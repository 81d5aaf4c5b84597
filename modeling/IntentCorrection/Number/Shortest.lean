import IntentCorrection.Number.Binary64

namespace IntentCorrection.Binary64

structure Decimal where
  digits : Nat
  exponent : Int
  deriving DecidableEq, Repr

/-- The reals that round to a number, in quarters of a unit over the common denominator `den`. -/
structure Interval where
  low : Nat
  value : Nat
  high : Nat
  den : Nat
  closed : Bool

/-- Half a unit on both sides, except that below a power of two the neighbour is half as far. -/
def interval (x : Binary64) : Interval :=
  let below := if x.mantissa = Nat.pow 2 52 ∧ minExponent < x.exponent then 1 else 2
  let e := x.exponent - 2
  { low := shifted (4 * x.mantissa - below) e
    value := shifted (4 * x.mantissa) e
    high := shifted (4 * x.mantissa + 2) e
    den := shifted 1 (-e)
    closed := x.mantissa % 2 = 0 }

def decimalLength (n : Nat) : Nat := (Nat.toDigits 10 n).length

def leadingExponent (num den : Nat) : Int := (decimalLength (num * Nat.pow 10 330 / den) : Int) - 331

def Interval.contains (i : Interval) (d : Nat) (e : Int) : Bool :=
  let point := d * Nat.pow 10 e.toNat * i.den
  let scale := Nat.pow 10 (-e).toNat
  if i.closed then decide (i.low * scale ≤ point ∧ point ≤ i.high * scale)
  else decide (i.low * scale < point ∧ point < i.high * scale)

/-- The better of the two neighbours of the value on the grid of multiples of `10 ^ e`. -/
def Interval.onGrid? (i : Interval) (e : Int) : Option Nat :=
  let num := i.value * Nat.pow 10 (-e).toNat
  let den := i.den * Nat.pow 10 e.toNat
  let d := num / den
  let r := num % den
  match i.contains d e, i.contains (d + 1) e with
  | true, true =>
    if 2 * r < den then some d else if den < 2 * r then some (d + 1) else some (d + d % 2)
  | true, false => some d
  | false, true => some (d + 1)
  | false, false => none

def Decimal.stripped : Nat → Decimal → Decimal
  | 0, d => d
  | fuel + 1, d =>
    if d.digits ≠ 0 ∧ d.digits % 10 = 0 then stripped fuel ⟨d.digits / 10, d.exponent + 1⟩ else d

/-- The first grid that has a point in the interval, from coarse to fine. -/
def firstGrid (i : Interval) (lead : Int) : Nat → Nat → Decimal
  | 0, n => ⟨0, lead - n⟩
  | fuel + 1, n =>
    match i.onGrid? (lead - n) with
    | some d => ⟨d, lead - n⟩
    | none => firstGrid i lead fuel (n + 1)

def shortest (x : Binary64) : Decimal :=
  let i := x.interval
  (firstGrid i (leadingExponent i.value i.den) 17 0).stripped 2

structure Format where
  /-- Least exponent written positionally. -/
  least : Int
  /-- Greatest exponent written positionally. -/
  greatest : Int

/-- Positional from `10 ^ -5` to below `10 ^ 16`, always with a fraction digit; else `d.ddde±n`. -/
def format : Format := ⟨-5, 15⟩

def positional (ds : List Char) (n : Int) : List Char :=
  if n ≤ 0 then '0' :: '.' :: (List.replicate (-n).toNat '0' ++ ds)
  else
    let n := n.toNat
    if ds.length ≤ n then ds ++ List.replicate (n - ds.length) '0' ++ ['.', '0']
    else ds.take n ++ '.' :: ds.drop n

def scientific (ds : List Char) (e : Int) : List Char :=
  let fraction := ds.drop 1
  ds.take 1 ++ (if fraction.isEmpty then [] else '.' :: fraction) ++
    (if e < 0 then ['e', '-'] else ['e', '+']) ++ Nat.toDigits 10 e.natAbs

def magnitudeText (x : Binary64) : List Char :=
  if x.isZero then ['0', '.', '0']
  else
    let d := x.shortest
    let ds := Nat.toDigits 10 d.digits
    let e := d.exponent + ds.length - 1
    if format.least ≤ e ∧ e ≤ format.greatest then positional ds (e + 1) else scientific ds e

def text (x : Binary64) : List Char := if x.negative then '-' :: x.magnitudeText else x.magnitudeText

end IntentCorrection.Binary64
