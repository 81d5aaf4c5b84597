import IntentCorrection.Diff.Path
import IntentCorrection.Diff.Validation

namespace IntentCorrection.Diff

/-- Puts a value at a path. The error names the segment that is in the way and what it holds. -/
def assign : List String → Value → ValueMap → Except (String × ValueKind) ValueMap
  | [], _, m => .ok m
  | [last], v, m => .ok (m.insert last v)
  | s :: p, v, m =>
    match m.get? s with
    | none | some .null => do return m.insert s (.map (← assign p v []))
    | some (.map sub) => do return m.insert s (.map (← assign p v sub))
    | some other => .error (s, other.kind)

def applyEntry (m : ValueMap) (key : String) (v : Value) : Except CorrectionError ValueMap :=
  match assign (Path.segments key) v m with
  | .ok r => .ok r
  | .error (segment, found) => .error (.collision key segment found)

def applyEntries : ValueMap → List (String × Value) → Except CorrectionError ValueMap
  | m, [] => .ok m
  | m, (k, v) :: r => do applyEntries (← applyEntry m k v) r

def apply (target diff : ValueMap) : Except CorrectionError ValueMap := do
  validateMap diff
  applyEntries target diff

end IntentCorrection.Diff
