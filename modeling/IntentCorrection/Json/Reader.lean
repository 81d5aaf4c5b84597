import IntentCorrection.Json.Basic

namespace IntentCorrection.Json

def maxDepth : Nat := 127

def isSpace (c : Char) : Bool := c = ' ' || c = '\n' || c = '\t' || c = '\r'

def skipSpace (cs : List Char) : List Char := cs.dropWhile isSpace

def hexValue? (c : Char) : Option Nat :=
  if '0' ≤ c ∧ c ≤ '9' then some (c.toNat - 48)
  else if 'a' ≤ c ∧ c ≤ 'f' then some (c.toNat - 87)
  else if 'A' ≤ c ∧ c ≤ 'F' then some (c.toNat - 55)
  else none

def hex4? (a b c d : Char) : Option Nat := do
  return (((← hexValue? a) * 16 + (← hexValue? b)) * 16 + (← hexValue? c)) * 16 + (← hexValue? d)

def simpleEscape? (c : Char) : Option Nat :=
  if c = '"' ∨ c = '\\' ∨ c = '/' then some c.toNat
  else if c = 'b' then some 8
  else if c = 'f' then some 12
  else if c = 'n' then some 10
  else if c = 'r' then some 13
  else if c = 't' then some 9
  else none

/-- The inside of a string after its opening quote: code points and escaped 16-bit units, and what follows the
closing quote. -/
def stringUnits : List Char → Option (List Nat × List Char)
  | [] => none
  | '"' :: r => some ([], r)
  | '\\' :: 'u' :: a :: b :: c :: d :: r => do
    let u ← hex4? a b c d
    let (us, rest) ← stringUnits r
    return (u :: us, rest)
  | '\\' :: c :: r => do
    let u ← simpleEscape? c
    let (us, rest) ← stringUnits r
    return (u :: us, rest)
  | c :: r =>
    if c.toNat < 0x20 || c = '\\' then none
    else do
      let (us, rest) ← stringUnits r
      return (c.toNat :: us, rest)

def isHighSurrogate (u : Nat) : Bool := 0xD800 ≤ u && u < 0xDC00

def isLowSurrogate (u : Nat) : Bool := 0xDC00 ≤ u && u < 0xE000

/-- Characters of units, a high surrogate joined with the low one behind it; none if a surrogate is alone. -/
def charsOfUnits : List Nat → Option (List Char)
  | [] => some []
  | u :: r =>
    if isHighSurrogate u then
      match r with
      | v :: r' =>
        if isLowSurrogate v then
          (charsOfUnits r').map (Char.ofNat (0x10000 + (u - 0xD800) * 0x400 + (v - 0xDC00)) :: ·)
        else none
      | [] => none
    else if isLowSurrogate u then none
    else (charsOfUnits r).map (Char.ofNat u :: ·)

def textOfUnits (us : List Nat) : Option String := (charsOfUnits us).map String.ofList

def digits (cs : List Char) : List Nat × List Char :=
  ((cs.takeWhile Char.isDigit).map fun c ↦ c.toNat - 48, cs.dropWhile Char.isDigit)

def digits1? (cs : List Char) : Option (List Nat × List Char) :=
  match digits cs with
  | ([], _) => none
  | r => some r

def fraction? : List Char → Option (Option (List Nat) × List Char)
  | '.' :: r => (digits1? r).map fun (ds, rest) ↦ (some ds, rest)
  | r => some (none, r)

def exponentDigits? (negative : Bool) (cs : List Char) : Option (Option Int × List Char) :=
  (digits1? cs).map fun (ds, rest) ↦
    let n : Int := NumberLiteral.natural ds
    (some (if negative then -n else n), rest)

def exponent? : List Char → Option (Option Int × List Char)
  | c :: r =>
    if c = 'e' ∨ c = 'E' then
      match r with
      | '+' :: r' => exponentDigits? false r'
      | '-' :: r' => exponentDigits? true r'
      | _ => exponentDigits? false r
    else some (none, c :: r)
  | [] => some (none, [])

def literal? (negative : Bool) (cs : List Char) : Option (NumberLiteral × List Char) := do
  let (whole, r) ← digits1? cs
  if whole.head? = some 0 ∧ whole.length ≠ 1 then none
  else
    let (fraction, r) ← fraction? r
    let (exponent, r) ← exponent? r
    return (⟨negative, whole, fraction, exponent⟩, r)

def ofLiteral (l : NumberLiteral) : Json := (l.number?.map .number).getD .unreadable

def arrayAt (depth : Nat) (items : List Json) : Json :=
  if depth ≤ maxDepth then .array items else .unreadable

def named? : List (Option String × Json) → Option (List (String × Json))
  | [] => some []
  | (k, j) :: r => do return (← k, j) :: (← named? r)

def objectAt (depth : Nat) (fields : List (Option String × Json)) : Json :=
  if depth ≤ maxDepth then ((named? fields).map .object).getD .unreadable else .unreadable

mutual

/-- A document that starts here, inside so many containers. The fuel bounds the steps. -/
def document? : Nat → Nat → List Char → Option (Json × List Char)
  | 0, _, _ => none
  | fuel + 1, depth, cs =>
    match skipSpace cs with
    | 'n' :: 'u' :: 'l' :: 'l' :: r => some (.null, r)
    | 't' :: 'r' :: 'u' :: 'e' :: r => some (.bool true, r)
    | 'f' :: 'a' :: 'l' :: 's' :: 'e' :: r => some (.bool false, r)
    | '"' :: r => do
      let (us, r) ← stringUnits r
      return (((textOfUnits us).map .string).getD .unreadable, r)
    | '-' :: r => (literal? true r).map fun (l, r) ↦ (ofLiteral l, r)
    | '[' :: r =>
      match skipSpace r with
      | ']' :: r => some (arrayAt (depth + 1) [], r)
      | r => (items? fuel (depth + 1) r).map fun (js, r) ↦ (arrayAt (depth + 1) js, r)
    | '{' :: r =>
      match skipSpace r with
      | '}' :: r => some (objectAt (depth + 1) [], r)
      | r => (fields? fuel (depth + 1) r).map fun (fs, r) ↦ (objectAt (depth + 1) fs, r)
    | r => (literal? false r).map fun (l, r) ↦ (ofLiteral l, r)

def items? : Nat → Nat → List Char → Option (List Json × List Char)
  | 0, _, _ => none
  | fuel + 1, depth, cs => do
    let (j, r) ← document? fuel depth cs
    match skipSpace r with
    | ',' :: r =>
      let (js, r) ← items? fuel depth r
      return (j :: js, r)
    | ']' :: r => return ([j], r)
    | _ => none

def fields? : Nat → Nat → List Char → Option (List (Option String × Json) × List Char)
  | 0, _, _ => none
  | fuel + 1, depth, cs =>
    match skipSpace cs with
    | '"' :: r => do
      let (us, r) ← stringUnits r
      match skipSpace r with
      | ':' :: r =>
        let (j, r) ← document? fuel depth r
        match skipSpace r with
        | ',' :: r =>
          let (fs, r) ← fields? fuel depth r
          return ((textOfUnits us, j) :: fs, r)
        | '}' :: r => return ([(textOfUnits us, j)], r)
        | _ => none
      | _ => none
    | _ => none

end

def parse (cs : List Char) : Option Json := do
  let (j, r) ← document? (2 * cs.length + 2) 0 cs
  if (skipSpace r).isEmpty then some j else none

end IntentCorrection.Json
