import IntentCorrection.Text.Escaped
import IntentCorrection.Text.Order
import IntentCorrection.Value.Basic

namespace IntentCorrection.Value

open Text

def dropRepeats {α : Type} [DecidableEq α] : List α → List α
  | a :: b :: r => if a = b then dropRepeats (b :: r) else a :: dropRepeats (b :: r)
  | r => r

def sortTexts (ts : List (List Char)) : List (List Char) :=
  dropRepeats (ts.mergeSort atMost)

mutual

def canonical : Value → List Char
  | .null => ['n', 'u', 'l', 'l']
  | .bool true => ['t', 'r', 'u', 'e']
  | .bool false => ['f', 'a', 'l', 's', 'e']
  | .number n => n.text
  | .string s => quote s.toList
  | .list items => '[' :: joined [','] (canonicalItems items) ++ [']']
  | .set items => '[' :: joined [','] (sortTexts (canonicalItems items)) ++ [']']
  | .map entries => '{' :: joined [','] (canonicalEntries entries) ++ ['}']

def canonicalItems : List Value → List (List Char)
  | [] => []
  | v :: r => canonical v :: canonicalItems r

def canonicalEntries : List (String × Value) → List (List Char)
  | [] => []
  | (k, v) :: r => (quote k.toList ++ ':' :: canonical v) :: canonicalEntries r

end

def canonicalMap (m : ValueMap) : List Char := canonical (.map m)

def sortByText (vs : List Value) : List Value :=
  let keyed := (vs.map fun v ↦ (v.canonical, v)).mergeSort fun a b ↦ atMost a.1 b.1
  thin keyed
where
  /-- Leaves the last of several neighbours of one text. -/
  thin : List (List Char × Value) → List Value
    | a :: b :: r => if a.1 = b.1 then thin (b :: r) else a.2 :: thin (b :: r)
    | [a] => [a.2]
    | [] => []

mutual

/-- The value with each set replaced by the list of its elements, sorted by text and without repetitions. -/
def norm : Value → Value
  | .list items => .list (normItems items)
  | .set items => .list (sortByText (normItems items))
  | .map entries => .map (normEntries entries)
  | .null => .null
  | .bool b => .bool b
  | .number n => .number n
  | .string s => .string s

def normItems : List Value → List Value
  | [] => []
  | v :: r => norm v :: normItems r

def normEntries : List (String × Value) → List (String × Value)
  | [] => []
  | (k, v) :: r => (k, norm v) :: normEntries r

end

end IntentCorrection.Value
