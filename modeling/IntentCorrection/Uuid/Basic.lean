namespace IntentCorrection

structure Uuid where
  digits : List (Fin 16)
  length_digits : digits.length = 32
  deriving DecidableEq, Repr

namespace Uuid

def digitChar (d : Fin 16) : Char := Nat.digitChar d

def digit? (c : Char) : Option (Fin 16) :=
  (List.finRange 16).find? fun d ↦ digitChar d = c.toLower

theorem digit?_digitChar (d : Fin 16) : digit? (digitChar d) = some d := by
  revert d; decide

def groups : List Nat := [8, 4, 4, 4, 12]

def writeGroups : List Nat → List (Fin 16) → List Char
  | [], _ => []
  | [n], ds => (ds.take n).map digitChar
  | n :: r, ds => (ds.take n).map digitChar ++ '-' :: writeGroups r (ds.drop n)

def text (u : Uuid) : List Char := writeGroups groups u.digits

def readDigits : Nat → List Char → Option (List (Fin 16) × List Char)
  | 0, cs => some ([], cs)
  | _ + 1, [] => none
  | n + 1, c :: cs => do
    let d ← digit? c
    let (ds, r) ← readDigits n cs
    return (d :: ds, r)

def readGroups : List Nat → List Char → Option (List (Fin 16))
  | [], cs => if cs.isEmpty then some [] else none
  | n :: r, cs => do
    let (ds, cs) ← readDigits n cs
    if r.isEmpty then if cs.isEmpty then some ds else none
    else
      match cs with
      | '-' :: cs => return ds ++ (← readGroups r cs)
      | _ => none

def ofDigits? (ds : List (Fin 16)) : Option Uuid :=
  if h : ds.length = 32 then some ⟨ds, h⟩ else none

def hyphenated? (cs : List Char) : Option Uuid := (readGroups groups cs).bind ofDigits?

def simple? (cs : List Char) : Option Uuid := (readGroups [32] cs).bind ofDigits?

def urn : List Char := ['u', 'r', 'n', ':', 'u', 'u', 'i', 'd', ':']

def braced? : List Char → Option Uuid
  | '{' :: cs => if cs.getLast? = some '}' then hyphenated? cs.dropLast else none
  | _ => none

/-- With hyphens after the start of a URN, whose letters may have either case. -/
def urn? (cs : List Char) : Option Uuid :=
  if (cs.take urn.length).map Char.toLower = urn then hyphenated? (cs.drop urn.length) else none

def parse? (cs : List Char) : Option Uuid :=
  (((hyphenated? cs).or (simple? cs)).or (braced? cs)).or (urn? cs)

def version (u : Uuid) : Fin 16 := u.digits.get ⟨12, by simp [u.length_digits]⟩

/-- Digits with the version and the variant of a UUID made today in place. -/
def stamped (version : Fin 16) (ds : List (Fin 16)) : List (Fin 16) :=
  (ds.set 12 version).modify 16 fun d ↦ ⟨8 + d % 4, by omega⟩

theorem length_stamped (v : Fin 16) (ds : List (Fin 16)) : (stamped v ds).length = ds.length := by
  simp [stamped]

def digitsOfNat : Nat → Nat → List (Fin 16)
  | 0, _ => []
  | k + 1, n => digitsOfNat k (n / 16) ++ [Fin.ofNat 16 n]

theorem length_digitsOfNat (k n : Nat) : (digitsOfNat k n).length = k := by
  induction k generalizing n with
  | zero => rfl
  | succ k ih => simp [digitsOfNat, ih]

def ofRandom (n : Nat) : Uuid :=
  ⟨stamped ⟨4, by decide⟩ (digitsOfNat 32 n), by simp [length_stamped, length_digitsOfNat]⟩

end Uuid

end IntentCorrection
