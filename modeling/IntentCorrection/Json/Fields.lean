import IntentCorrection.Json.Basic

namespace IntentCorrection.Json

/-- What is done with a field that the record does not have. -/
inductive UnknownFields where
  | skip | refuse
  deriving DecidableEq

def onlyField? (fields : List (String × Json)) (name : String) : Option (Option Json) :=
  match fields.filter (·.1 = name) with
  | [] => some none
  | [(_, j)] => some (some j)
  | _ => none

/-- The documents of the named fields, in the order of the names. -/
def record? (unknown : UnknownFields) (names : List String) : Json → Option (List (Option Json))
  | .object fields =>
    if unknown = .refuse ∧ fields.any (fun f ↦ !names.contains f.1) then none
    else names.mapM (onlyField? fields)
  | .array items =>
    if items.length ≤ names.length then
      some (items.map some ++ List.replicate (names.length - items.length) none)
    else none
  | _ => none

def name? : Json → Option String
  | .string s => some s
  | .object [(s, .null)] => some s
  | _ => none

def listOf? {α : Type} (read : Json → Option α) (j : Json) : Option (List α) :=
  j.array?.bind (·.mapM read)

def optionalMap? : Json → Option (Option ValueMap)
  | .null => some none
  | j => j.map?.map some

def below? (bound : Nat) (j : Json) : Option Nat :=
  j.natural?.bind fun n ↦ if n < bound then some n else none

end IntentCorrection.Json
