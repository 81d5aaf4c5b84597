import IntentCorrection.Value.Basic

namespace IntentCorrection.Path

def splitDots : List Char → List (List Char)
  | [] => [[]]
  | c :: cs =>
    if c = '.' then [] :: splitDots cs
    else
      match splitDots cs with
      | [] => [[c]]
      | s :: r => (c :: s) :: r

def segments (key : String) : List String := (splitDots key.toList).map String.ofList

def read? : List String → Value → Option Value
  | [], v => some v
  | s :: p, v => v.map?.bind fun m ↦ (m.get? s).bind (read? p)

theorem read?_cons (s : String) (p : List String) (m : ValueMap) :
    read? (s :: p) (.map m) = (m.get? s).bind (read? p) := rfl

theorem splitDots_ne_nil (cs : List Char) : splitDots cs ≠ [] := by
  fun_cases splitDots cs <;> simp_all

theorem segments_ne_nil (key : String) : segments key ≠ [] := by
  simp [segments, splitDots_ne_nil]

end IntentCorrection.Path
