import IntentCorrection.Number.Word
import IntentCorrection.Time.Duration

namespace IntentCorrection

structure BackoffPolicy where
  base : Duration
  max : Duration
  jitter : Duration
  deriving DecidableEq, Repr

namespace BackoffPolicy

/-- A word of 32 bits, so from attempt 32 on it is the largest one. -/
def factor (attempt : Nat) : Nat := if attempt < 32 then Nat.pow 2 attempt else Word.size32 - 1

def nominalDelay (p : BackoffPolicy) (attempt : Nat) : Duration :=
  ⟨min (p.base.times (factor attempt)).nanoseconds p.max.nanoseconds⟩

def word64 (n : Nat) : Int := Int.bmod n Word.size64

def bound (p : BackoffPolicy) : Int := word64 p.jitter.microseconds

/-- The offsets that may be drawn. Without jitter none is drawn; a jitter that wraps leaves none to draw. -/
def MayDraw (p : BackoffPolicy) (offset : Int) : Prop := -p.bound ≤ offset ∧ offset ≤ p.bound

instance (p : BackoffPolicy) (offset : Int) : Decidable (p.MayDraw offset) :=
  inferInstanceAs (Decidable (_ ∧ _))

def saturate (n : Int) : Int :=
  if n < -Word.signedEnd64 then -Word.signedEnd64
  else if Word.signedEnd64 ≤ n then Word.signedEnd64 - 1
  else n

/-- There is an offset to draw, or none is needed. -/
def Drawable (p : BackoffPolicy) : Prop := p.jitter = Duration.zero ∨ 0 ≤ p.bound

instance (p : BackoffPolicy) : Decidable p.Drawable := inferInstanceAs (Decidable (_ ∨ _))

def delayWith (p : BackoffPolicy) (attempt : Nat) (offset : Int) : Duration :=
  if p.jitter = Duration.zero then p.nominalDelay attempt
  else .ofMicroseconds (saturate (word64 (p.nominalDelay attempt).microseconds + offset)).toNat

/-- The delay with a drawn offset in microseconds; none if that offset cannot be drawn. -/
def delay? (p : BackoffPolicy) (attempt : Nat) (offset : Int) : Option Duration :=
  if p.jitter = Duration.zero ∨ p.MayDraw offset then some (p.delayWith attempt offset) else none

def staysWithinJitter (p : BackoffPolicy) (attempt : Nat) : Bool :=
  let nominal := (p.nominalDelay attempt).nanoseconds
  [-p.bound, p.bound].all fun offset ↦ (p.delay? attempt offset).all fun d ↦
    nominal ≤ d.nanoseconds + p.jitter.nanoseconds && d.nanoseconds ≤ nominal + p.jitter.nanoseconds

end BackoffPolicy

end IntentCorrection
