import IntentCorrection.Text.Decimal
import IntentCorrection.Time.Calendar

namespace IntentCorrection

structure Timestamp where
  date : Date
  time : TimeOfDay
  /-- Minutes ahead of UTC. -/
  offset : Int
  valid : offset.natAbs < 24 * 60
  deriving DecidableEq, Repr

namespace Timestamp

open Text

/-- Nanoseconds since year 0 began in UTC. Two timestamps are the same moment if they agree here. -/
def instant (t : Timestamp) : Int :=
  t.date.ordinal * 86400000000000 + t.time.nanoseconds - t.offset * 60000000000

def fractionText (nanosecond : Nat) : List Char :=
  if nanosecond = 0 then [] else '.' :: dropTrailingZeros (fixedDigits 9 nanosecond)

def offsetText (offset : Int) : List Char :=
  if offset = 0 then ['Z']
  else
    (if offset < 0 then '-' else '+') :: fixedDigits 2 (offset.natAbs / 60) ++
      ':' :: fixedDigits 2 (offset.natAbs % 60)

def text (t : Timestamp) : List Char :=
  fixedDigits 4 t.date.year ++ '-' :: fixedDigits 2 t.date.month ++ '-' :: fixedDigits 2 t.date.day ++
    'T' :: fixedDigits 2 t.time.hour ++ ':' :: fixedDigits 2 t.time.minute ++
    ':' :: fixedDigits 2 t.time.second ++ fractionText t.time.nanosecond ++ offsetText t.offset

def expect (c : Char) : List Char → Option (List Char)
  | [] => none
  | d :: cs => if d = c then some cs else none

def readFraction (cs : List Char) : Option (Nat × List Char) :=
  match cs with
  | '.' :: r =>
    let ds := r.takeWhile Char.isDigit
    if ds.isEmpty then none
    else
      let nine := (ds ++ List.replicate 9 '0').take 9
      some (nine.foldl (fun n c ↦ 10 * n + digitValue c) 0, r.dropWhile Char.isDigit)
  | _ => some (0, cs)

def readOffset (cs : List Char) : Option Int :=
  match cs with
  | ['Z'] | ['z'] => some 0
  | sign :: r => do
    let (h, r) ← readDigits 2 0 r
    let r ← expect ':' r
    let (m, r) ← readDigits 2 0 r
    if 23 < h || 59 < m || !r.isEmpty then none
    else if sign = '+' then some (60 * h + m)
    else if sign = '-' then some (-(60 * h + m))
    else none
  | [] => none

def of? (date : Date) (time : TimeOfDay) (offset : Int) : Option Timestamp :=
  if h : offset.natAbs < 24 * 60 then some ⟨date, time, offset, h⟩ else none

def ofUnixTime? (nanoseconds : Nat) : Option Timestamp := do
  let second := nanoseconds / 1000000000
  let date ← Date.ofOrdinal? (Date.daysBeforeYear 1970 + second / 86400)
  let time ← TimeOfDay.of? (second / 3600 % 24) (second / 60 % 60) (second % 60)
    (nanoseconds % 1000000000)
  of? date time 0

def endsMonth (date : Date) (hour minute : Nat) (offset : Int) : Bool :=
  let utc := (hour * 60 + minute : Int) - offset
  utc % 1440 = 1439 && date.monthStartsAfter (utc / 1440 + 1)

def parse? (cs : List Char) : Option Timestamp := do
  let (year, r) ← readDigits 4 0 cs
  let r ← expect '-' r
  let (month, r) ← readDigits 2 0 r
  let r ← expect '-' r
  let (day, r) ← readDigits 2 0 r
  let (separator, r) ← r.head?.map (·, r.tail)
  let (hour, r) ← readDigits 2 0 r
  let r ← expect ':' r
  let (minute, r) ← readDigits 2 0 r
  let r ← expect ':' r
  let (second, r) ← readDigits 2 0 r
  let (nanosecond, r) ← readFraction r
  let offset ← readOffset r
  let date ← Date.of? year month day
  if 127 < separator.toNat then none
  else if second = 60 then
    let time ← TimeOfDay.of? hour minute 59 999999999
    if endsMonth date hour minute offset then of? date time offset else none
  else
    let time ← TimeOfDay.of? hour minute second nanosecond
    of? date time offset

end Timestamp

end IntentCorrection
