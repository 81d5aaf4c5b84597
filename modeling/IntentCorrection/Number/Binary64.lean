namespace IntentCorrection

/-- The number `± mantissa · 2 ^ exponent`; zero has either sign. -/
structure Binary64 where
  negative : Bool
  mantissa : Nat
  exponent : Int
  deriving DecidableEq, Repr

/-- The quotient rounded to the nearest integer, a tie to the even one. -/
def roundHalfEven (num den : Nat) : Nat :=
  let q := num / den
  let r := num % den
  if 2 * r < den then q else if den < 2 * r then q + 1 else q + q % 2

namespace Binary64

def minExponent : Int := -1074

def maxExponent : Int := 971

def zero (negative : Bool) : Binary64 := ⟨negative, 0, minExponent⟩

def isZero (x : Binary64) : Bool := x.mantissa == 0

def shifted (n : Nat) (e : Int) : Nat := n * Nat.pow 2 e.toNat

/-- Mantissa and exponent nearest to `num / den`, both positive. -/
def nearest (num den : Nat) : Nat × Int :=
  let guess := (num.log2 : Int) - den.log2 - 52
  let small := shifted num (-guess) < shifted den guess * Nat.pow 2 52
  let e := max (if small then guess - 1 else guess) minExponent
  let m := roundHalfEven (shifted num (-e)) (shifted den e)
  if m = Nat.pow 2 53 then (Nat.pow 2 52, e + 1) else (m, e)

def ofRatio (negative : Bool) (num den : Nat) : Option Binary64 :=
  if num = 0 then some (zero negative)
  else
    let (m, e) := nearest num den
    if m = 0 then some (zero negative)
    else if maxExponent < e then none else some ⟨negative, m, e⟩

def powerOfTen (k : Nat) : Nat × Int := nearest (Nat.pow 10 k) 1

/-- `x · 10 ^ k` with the power and the product each rounded. -/
def mulPowerOfTen (x : Binary64) (k : Nat) : Option Binary64 :=
  let (m, e) := powerOfTen k
  let e := x.exponent + e
  ofRatio x.negative (shifted (x.mantissa * m) e) (shifted 1 (-e))

def divPowerOfTen (x : Binary64) (k : Nat) : Option Binary64 :=
  let (m, e) := powerOfTen k
  let e := x.exponent - e
  ofRatio x.negative (shifted x.mantissa e) (shifted m (-e))

end Binary64

end IntentCorrection
