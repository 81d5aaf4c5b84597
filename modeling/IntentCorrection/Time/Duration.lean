import IntentCorrection.Number.Word
import IntentCorrection.Text.Decimal

namespace IntentCorrection

structure Duration where
  nanoseconds : Nat
  deriving DecidableEq, Repr

namespace Duration

def zero : Duration := ⟨0⟩

def ofMicroseconds (n : Nat) : Duration := ⟨n * 1000⟩

def ofMilliseconds (n : Nat) : Duration := ⟨n * 1000000⟩

def ofSeconds (n : Nat) : Duration := ⟨n * 1000000000⟩

def microseconds (d : Duration) : Nat := d.nanoseconds / 1000

def milliseconds (d : Duration) : Nat := d.nanoseconds / 1000000

/-- The seconds have a word of 64 bits. -/
def longest : Duration := ⟨Word.size64 * 1000000000 - 1⟩

/-- So many times the span, as far as there are spans that long. -/
def times (d : Duration) (n : Nat) : Duration := ⟨min (d.nanoseconds * n) longest.nanoseconds⟩

def inUnit (nanoseconds places : Nat) (unit : String) : String :=
  let fraction := Text.dropTrailingZeros (Text.fixedDigits places (nanoseconds % Nat.pow 10 places))
  toString (nanoseconds / Nat.pow 10 places) ++
    (if fraction.isEmpty then "" else "." ++ String.ofList fraction) ++ unit

def text (d : Duration) : String :=
  if 1000000000 ≤ d.nanoseconds then inUnit d.nanoseconds 9 "s"
  else if 1000000 ≤ d.nanoseconds then inUnit d.nanoseconds 6 "ms"
  else if 1000 ≤ d.nanoseconds then inUnit d.nanoseconds 3 "µs"
  else inUnit d.nanoseconds 0 "ns"

end Duration

end IntentCorrection
