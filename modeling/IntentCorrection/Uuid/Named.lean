import IntentCorrection.Digest.Sha1
import IntentCorrection.Uuid.Basic

namespace IntentCorrection.Uuid

def ofByte (b : UInt8) : List (Fin 16) := digitsOfNat 2 b.toNat

def bytesOf : List (Fin 16) → List UInt8
  | a :: b :: r => UInt8.ofNat (16 * a + b) :: bytesOf r
  | _ => []

def digestDigits (message : List UInt8) : List (Fin 16) :=
  let ds := (Sha1.digest message).flatMap ofByte
  (ds ++ List.replicate 32 (⟨0, by decide⟩ : Fin 16)).take 32

theorem length_digestDigits (message : List UInt8) : (digestDigits message).length = 32 := by
  simp [digestDigits]

def named (space : Uuid) (name : List UInt8) : Uuid :=
  ⟨stamped ⟨5, by decide⟩ (digestDigits (bytesOf space.digits ++ name)), by
    simp [length_stamped, length_digestDigits]⟩

/-- The namespace of domain names, 6ba7b810-9dad-11d1-80b4-00c04fd430c8. -/
def dns : Uuid :=
  ⟨digitsOfNat 32 0x6ba7b8109dad11d180b400c04fd430c8, length_digitsOfNat _ _⟩

end IntentCorrection.Uuid
