import IntentCorrection.Intent.CorrectionError
import IntentCorrection.Value.Canonical

namespace IntentCorrection

structure Diff where
  entries : ValueMap
  deriving DecidableEq, Repr

namespace Diff

def payloadKey : String := "payload"

def ofPayload (entries : ValueMap) : Diff := ⟨[(payloadKey, .map entries)]⟩

def ofValue : Value → Except CorrectionError Diff
  | .map m => .ok ⟨m⟩
  | v => .error (.invalidDiff (.notMap v.kind))

/-- The part for the payload; empty if absent or null. -/
def payload (d : Diff) : Except CorrectionError ValueMap :=
  match d.entries.get? payloadKey with
  | none | some .null => .ok []
  | some (.map m) => .ok m
  | some v => .error (.invalidDiff (.payloadNotMap v.kind))

def canonical (d : Diff) : List Char := Value.canonicalMap d.entries

end Diff

end IntentCorrection
