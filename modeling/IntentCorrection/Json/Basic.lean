import IntentCorrection.Value.Basic

namespace IntentCorrection

/-- A document as its text says it: fields keep their order and may repeat. What has a place in the grammar but denotes
no value is `unreadable`, an error only for a reader that wants its value. -/
inductive Json where
  | null
  | bool (b : Bool)
  | number (n : Number)
  | string (s : String)
  | array (items : List Json)
  | object (fields : List (String × Json))
  | unreadable
  deriving Repr

namespace Json

def ofNat (n : Nat) : Json := .number (.integer n)

mutual

/-- The value of a document; of several fields of one name the last counts. -/
def value? : Json → Option Value
  | .null => some .null
  | .bool b => some (.bool b)
  | .number n => some (.number n)
  | .string s => some (.string s)
  | .array items => (values? items).map .list
  | .object fields => (entries? fields).map fun m ↦ .map (Entries.ofList m)
  | .unreadable => none

def values? : List Json → Option (List Value)
  | [] => some []
  | j :: r => do return (← value? j) :: (← values? r)

def entries? : List (String × Json) → Option (List (String × Value))
  | [] => some []
  | (k, j) :: r => do return (k, ← value? j) :: (← entries? r)

end

def map? (j : Json) : Option ValueMap := j.value?.bind Value.map?

def string? : Json → Option String
  | .string s => some s
  | _ => none

def natural? : Json → Option Nat
  | .number n => n.natural?
  | _ => none

def array? : Json → Option (List Json)
  | .array items => some items
  | _ => none

mutual

def ofValue : Value → Json
  | .null => .null
  | .bool b => .bool b
  | .number n => .number n
  | .string s => .string s
  | .list items => .array (ofValues items)
  | .set items => .array (ofValues items)
  | .map entries => .object (ofEntries entries)

def ofValues : List Value → List Json
  | [] => []
  | v :: r => ofValue v :: ofValues r

def ofEntries : List (String × Value) → List (String × Json)
  | [] => []
  | (k, v) :: r => (k, ofValue v) :: ofEntries r

end

def ofMap (m : ValueMap) : Json := ofValue (.map m)

/-- The field of that name, the last of several. -/
def field? (j : Json) (name : String) : Option Json :=
  match j with
  | .object fields => Entries.get? fields.reverse name
  | _ => none

end Json

end IntentCorrection
