import IntentCorrection.Json.Basic
import IntentCorrection.Text.Escaped

namespace IntentCorrection.Json

open Text

mutual

def compact : Json → List Char
  | .null | .unreadable => ['n', 'u', 'l', 'l']
  | .bool true => ['t', 'r', 'u', 'e']
  | .bool false => ['f', 'a', 'l', 's', 'e']
  | .number n => n.text
  | .string s => quote s.toList
  | .array items => '[' :: joined [','] (compactItems items) ++ [']']
  | .object fields => '{' :: joined [','] (compactFields fields) ++ ['}']

def compactItems : List Json → List (List Char)
  | [] => []
  | j :: r => compact j :: compactItems r

def compactFields : List (String × Json) → List (List Char)
  | [] => []
  | (k, j) :: r => (quote k.toList ++ ':' :: compact j) :: compactFields r

end

def newline (level : Nat) : List Char := '\n' :: List.replicate (2 * level) ' '

def block (level : Nat) (opening closing : Char) (parts : List (List Char)) : List Char :=
  if parts.isEmpty then [opening, closing]
  else
    opening :: newline (level + 1) ++ joined (',' :: newline (level + 1)) parts ++
      newline level ++ [closing]

mutual

def prettyAt (level : Nat) : Json → List Char
  | .null | .unreadable => ['n', 'u', 'l', 'l']
  | .bool true => ['t', 'r', 'u', 'e']
  | .bool false => ['f', 'a', 'l', 's', 'e']
  | .number n => n.text
  | .string s => quote s.toList
  | .array items => block level '[' ']' (prettyItems (level + 1) items)
  | .object fields => block level '{' '}' (prettyFields (level + 1) fields)

def prettyItems (level : Nat) : List Json → List (List Char)
  | [] => []
  | j :: r => prettyAt level j :: prettyItems level r

def prettyFields (level : Nat) : List (String × Json) → List (List Char)
  | [] => []
  | (k, j) :: r => (quote k.toList ++ ':' :: ' ' :: prettyAt level j) :: prettyFields level r

end

def pretty (j : Json) : List Char := prettyAt 0 j

end IntentCorrection.Json
