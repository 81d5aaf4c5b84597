import IntentCorrection.Entries
import IntentCorrection.Number.Basic

namespace IntentCorrection

/-- A `set` is a list whose order and repetitions do not matter. It has no written form of its own. -/
inductive Value where
  | null
  | bool (b : Bool)
  | number (n : Number)
  | string (s : String)
  | list (items : List Value)
  | set (items : List Value)
  | map (entries : List (String × Value))
  deriving Repr

abbrev ValueMap := Entries String Value

inductive ValueKind where
  | null | bool | number | string | list | set | map
  deriving DecidableEq, Repr

def ValueKind.name : ValueKind → String
  | .null => "null"
  | .bool => "bool"
  | .number => "number"
  | .string => "string"
  | .list => "list"
  | .set => "set"
  | .map => "map"

namespace Value

instance : Inhabited Value := ⟨.null⟩

def kind : Value → ValueKind
  | .null => .null
  | .bool _ => .bool
  | .number _ => .number
  | .string _ => .string
  | .list _ => .list
  | .set _ => .set
  | .map _ => .map

def isNull : Value → Bool
  | .null => true
  | _ => false

def map? : Value → Option ValueMap
  | .map m => some m
  | _ => none

def string? : Value → Option String
  | .string s => some s
  | _ => none

def int64? : Value → Option Int
  | .number n => n.int64?
  | _ => none

def ofInt (n : Int) : Value := .number (.integer n)

mutual

def decEq (v w : Value) : Decidable (v = w) :=
  if h : v.kind = w.kind then
    match v, w, h with
    | .null, .null, _ => isTrue rfl
    | .bool a, .bool b, _ => decidable_of_iff (a = b) (by simp)
    | .number a, .number b, _ => decidable_of_iff (a = b) (by simp)
    | .string a, .string b, _ => decidable_of_iff (a = b) (by simp)
    | .list a, .list b, _ => @decidable_of_iff _ (a = b) (by simp) (decEqItems a b)
    | .set a, .set b, _ => @decidable_of_iff _ (a = b) (by simp) (decEqItems a b)
    | .map a, .map b, _ => @decidable_of_iff _ (a = b) (by simp) (decEqEntries a b)
  else isFalse fun e ↦ h (congrArg kind e)

def decEqItems : (v w : List Value) → Decidable (v = w)
  | [], [] => isTrue rfl
  | [], _ :: _ => isFalse (by simp)
  | _ :: _, [] => isFalse (by simp)
  | a :: v, b :: w =>
    match decEq a b, decEqItems v w with
    | isTrue h, isTrue h' => isTrue (h ▸ h' ▸ rfl)
    | isFalse h, _ => isFalse (by simp [h])
    | _, isFalse h => isFalse (by simp [h])

def decEqEntries : (v w : List (String × Value)) → Decidable (v = w)
  | [], [] => isTrue rfl
  | [], _ :: _ => isFalse (by simp)
  | _ :: _, [] => isFalse (by simp)
  | (k, a) :: v, (l, b) :: w =>
    if hk : k = l then
      match decEq a b, decEqEntries v w with
      | isTrue h, isTrue h' => isTrue (hk ▸ h ▸ h' ▸ rfl)
      | isFalse h, _ => isFalse (by simp [h])
      | _, isFalse h => isFalse (by simp [h])
    else isFalse (by simp [hk])

end

instance : DecidableEq Value := decEq

end Value

end IntentCorrection
