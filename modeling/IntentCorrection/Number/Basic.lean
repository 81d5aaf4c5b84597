import IntentCorrection.Number.Shortest
import IntentCorrection.Number.Word

namespace IntentCorrection

/-- A literal without fraction and exponent is an integer if it has room in 64 bits, and a float otherwise. -/
inductive Number where
  | integer (n : Int)
  | float (x : Binary64)
  deriving DecidableEq, Repr

structure NumberLiteral where
  negative : Bool
  whole : List Nat
  fraction : Option (List Nat)
  exponent : Option Int
  deriving DecidableEq, Repr

namespace NumberLiteral

def maxSignificand : Nat := Word.size64 - 1

/-- Takes digits while the significand fits; gives it with the digits left over. -/
def takeDigits (significand : Nat) : List Nat → Nat × List Nat
  | [] => (significand, [])
  | d :: ds =>
    if significand * 10 + d ≤ maxSignificand then takeDigits (significand * 10 + d) ds
    else (significand, d :: ds)

def divLargestPower : Nat → Binary64 → Option Binary64
  | 0, x => some x
  | n + 1, x => if x.isZero then some x else (x.divPowerOfTen 308).bind (divLargestPower n)

/-- Divides by `10 ^ k`, taking `10 ^ 308` off while more than that is left. -/
def scaleDown (x : Binary64) (k : Nat) : Option Binary64 :=
  let steps := (k - 1) / 308
  (divLargestPower steps x).bind (·.divPowerOfTen (k - 308 * steps))

def scaled (negative : Bool) (significand : Nat) (e : Int) : Option Binary64 := do
  let x ← Binary64.ofRatio negative significand 1
  if e < 0 then scaleDown x (-e).toNat
  else if e ≤ 308 then x.mulPowerOfTen e.toNat
  else if x.isZero then some x
  else none

def float? (l : NumberLiteral) : Option Binary64 :=
  let (significand, dropped) := takeDigits 0 l.whole
  let (significand, left) := takeDigits significand (l.fraction.getD [])
  let taken := (l.fraction.getD []).length - left.length
  scaled l.negative significand ((dropped.length : Int) - taken + l.exponent.getD 0)

def natural (ds : List Nat) : Nat := ds.foldl (fun n d ↦ 10 * n + d) 0

/-- The number that a literal denotes; none if it is beyond the finite ones. `-0` is not an integer. -/
def number? (l : NumberLiteral) : Option Number :=
  let n := natural l.whole
  if l.fraction.isNone && l.exponent.isNone &&
      (if l.negative then 0 < n && (n : Int) ≤ Word.signedEnd64 else n < Word.size64) then
    some (.integer (if l.negative then -n else n))
  else l.float?.map .float

end NumberLiteral

namespace Number

def text : Number → List Char
  | .integer n => (toString n).toList
  | .float x => x.text

def int64? : Number → Option Int
  | .integer n => if n < Word.signedEnd64 then some n else none
  | .float _ => none

def natural? : Number → Option Nat
  | .integer n => if 0 ≤ n then some n.toNat else none
  | .float _ => none

end Number

end IntentCorrection
