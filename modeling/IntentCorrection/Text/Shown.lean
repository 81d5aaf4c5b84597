import IntentCorrection.Text.Unshown

namespace IntentCorrection.Text

def hexText (n : Nat) : List Char := Nat.toDigits 16 n

def shownChar (c : Char) : List Char :=
  if c = '"' then ['\\', '"']
  else if c = '\\' then ['\\', '\\']
  else if c = '\n' then ['\\', 'n']
  else if c = '\r' then ['\\', 'r']
  else if c = '\t' then ['\\', 't']
  else if c.toNat = 0 then ['\\', '0']
  else if isUnshown c then ['\\', 'u', '{'] ++ hexText c.toNat ++ ['}']
  else [c]

def shown (cs : List Char) : List Char := '"' :: cs.flatMap shownChar ++ ['"']

end IntentCorrection.Text
