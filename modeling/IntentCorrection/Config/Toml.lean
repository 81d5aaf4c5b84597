import IntentCorrection.Entries
import IntentCorrection.Json.Reader
import IntentCorrection.Number.Word

namespace IntentCorrection

inductive Toml where
  | integer (n : Int)
  | string (s : String)
  | array (items : List Toml)
  | table (entries : List (String × Toml))
  deriving Repr

namespace Toml

def isSpace (c : Char) : Bool := c = ' ' || c = '\t'

def skipSpace (cs : List Char) : List Char := cs.dropWhile isSpace

def isControl (c : Char) : Bool := (c.toNat < 0x20 && c ≠ '\t') || c.toNat = 0x7F

def newline? : List Char → Option (List Char)
  | '\n' :: r | '\r' :: '\n' :: r => some r
  | _ => none

def skipComment (cs : List Char) : List Char :=
  if cs.head? = some '#' then cs.dropWhile (!isControl ·) else cs

def endOfLine? (cs : List Char) : Option (List Char) :=
  match skipComment (skipSpace cs) with
  | [] => some []
  | r => newline? r

def skipTrivia : Nat → List Char → List Char
  | 0, cs => cs
  | fuel + 1, cs =>
    let r := skipComment (skipSpace cs)
    match newline? r with
    | some r => skipTrivia fuel r
    | none => r

def hexValue (cs : List Char) : Option Nat :=
  cs.foldlM (fun n c ↦ (Json.hexValue? c).map (16 * n + ·)) 0

def scalar? (n : Nat) : Option Char :=
  if h : n.isValidChar then some (Char.ofNatAux n h) else none

def codePoint? (width : Nat) (cs : List Char) : Option (Char × List Char) :=
  if cs.length < width then none
  else do
    let n ← hexValue (cs.take width)
    let c ← scalar? n
    return (c, cs.drop width)

def escape? : List Char → Option (Char × List Char)
  | 'b' :: r => some ('\x08', r)
  | 't' :: r => some ('\t', r)
  | 'n' :: r => some ('\n', r)
  | 'f' :: r => some ('\x0c', r)
  | 'r' :: r => some ('\r', r)
  | '"' :: r => some ('"', r)
  | '\\' :: r => some ('\\', r)
  | 'u' :: r => codePoint? 4 r
  | 'U' :: r => codePoint? 8 r
  | _ => none

def lineText? (mark : Char) : Nat → List Char → Option (List Char × List Char)
  | 0, _ => none
  | _ + 1, [] => none
  | fuel + 1, c :: r =>
    if c = mark then some ([], r)
    else if mark = '"' ∧ c = '\\' then do
      let (d, r) ← escape? r
      let (cs, r) ← lineText? mark fuel r
      return (d :: cs, r)
    else if isControl c then none
    else (lineText? mark fuel r).map fun (cs, r) ↦ (c :: cs, r)

def skipLines : List Char → List Char
  | [] => []
  | '\r' :: '\n' :: r => skipLines r
  | c :: r => if isSpace c || c = '\n' then skipLines r else c :: r

/-- A backslash at the end of a line joins it with what comes next after blanks. -/
def lineJoin? (cs : List Char) : Option (List Char) := (newline? (skipSpace cs)).map skipLines

/-- The inside of a text over several lines. Of a run of up to five marks the last three close it. -/
def blockText? (mark : Char) : Nat → List Char → Option (List Char × List Char)
  | 0, _ => none
  | _ + 1, [] => none
  | fuel + 1, c :: r =>
    if c = mark then
      let run := 1 + (r.takeWhile (· = mark)).length
      let rest := r.dropWhile (· = mark)
      if run < 3 then
        (blockText? mark fuel rest).map fun (cs, r) ↦ (List.replicate run mark ++ cs, r)
      else if run ≤ 5 then some (List.replicate (run - 3) mark, rest)
      else none
    else if mark = '"' ∧ c = '\\' then
      match lineJoin? r with
      | some r => blockText? mark fuel r
      | none => do
        let (d, r) ← escape? r
        let (cs, r) ← blockText? mark fuel r
        return (d :: cs, r)
    else
      match newline? (c :: r) with
      | some r => (blockText? mark fuel r).map fun (cs, r) ↦ ('\n' :: cs, r)
      | none =>
        if isControl c then none
        else (blockText? mark fuel r).map fun (cs, r) ↦ (c :: cs, r)

def text? (mark : Char) (r : List Char) : Option (List Char × List Char) :=
  match r with
  | a :: b :: r' =>
    if a = mark ∧ b = mark then blockText? mark r'.length.succ ((newline? r').getD r')
    else lineText? mark r.length.succ r
  | _ => lineText? mark r.length.succ r

def digits? (isDigit : Char → Bool) : List Char → Option (List Char)
  | [] => none
  | [c] => if isDigit c then some [c] else none
  | c :: '_' :: r => if isDigit c then (digits? isDigit r).map (c :: ·) else none
  | c :: r => if isDigit c then (digits? isDigit r).map (c :: ·) else none

def isHexDigit (c : Char) : Bool := (Json.hexValue? c).isSome

def valueIn (base : Nat) (ds : List Char) : Int :=
  (ds.foldl (fun n c ↦ base * n + (Json.hexValue? c).getD 0) 0 : Nat)

def decimal? (cs : List Char) : Option Int := do
  let ds ← digits? Char.isDigit cs
  if ds.head? = some '0' ∧ ds.length ≠ 1 then none else some (valueIn 10 ds)

def unboundedInteger? : List Char → Option Int
  | '0' :: 'x' :: r => (digits? isHexDigit r).map (valueIn 16)
  | '0' :: 'o' :: r => (digits? (fun c ↦ '0' ≤ c ∧ c ≤ '7') r).map (valueIn 8)
  | '0' :: 'b' :: r => (digits? (fun c ↦ c = '0' ∨ c = '1') r).map (valueIn 2)
  | '+' :: r => decimal? r
  | '-' :: r => (decimal? r).map (- ·)
  | r => decimal? r

def integer? (cs : List Char) : Option Int :=
  (unboundedInteger? cs).bind fun n ↦ if -Word.signedEnd64 ≤ n ∧ n < Word.signedEnd64 then some n else none

def isWordChar (c : Char) : Bool :=
  c.isAlphanum || c = '_' || c = '+' || c = '-' || c = '.' || c = ':'

def isBareKeyChar (c : Char) : Bool := c.isAlphanum || c = '_' || c = '-'

def simpleKey? : List Char → Option (String × List Char)
  | '"' :: r => (lineText? '"' r.length.succ r).map fun (cs, r) ↦ (String.ofList cs, r)
  | '\'' :: r => (lineText? '\'' r.length.succ r).map fun (cs, r) ↦ (String.ofList cs, r)
  | r =>
    let name := r.takeWhile isBareKeyChar
    if name.isEmpty then none else some (String.ofList name, r.dropWhile isBareKeyChar)

def key? : Nat → List Char → Option (List String × List Char)
  | 0, _ => none
  | fuel + 1, cs => do
    let (k, r) ← simpleKey? (skipSpace cs)
    match skipSpace r with
    | '.' :: r =>
      let (ks, r) ← key? fuel r
      return (k :: ks, r)
    | r => return ([k], r)

inductive Origin where
  /-- Only passed through by a header. -/
  | passed
  /-- Opened by a header. -/
  | header
  /-- Made by a dotted key. -/
  | dotted
  deriving DecidableEq

inductive Node where
  | closed (v : Toml)
  | table (origin : Origin) (entries : List (String × Node))
  | tables (elements : List (List (String × Node)))

abbrev Nodes := Entries String Node

def setKey : List String → Toml → Nodes → Option Nodes
  | [], _, _ => none
  | [k], v, m => if m.contains k then none else some (m.insert k (.closed v))
  | k :: p, v, m =>
    match m.get? k with
    | none => (setKey p v []).map fun sub ↦ m.insert k (.table .dotted sub)
    | some (.table .dotted sub) => (setKey p v sub).map fun sub ↦ m.insert k (.table .dotted sub)
    | some _ => none

/-- Changes the table that a path leads to, making tables on the way; of a list of tables the last counts. -/
def within (f : Nodes → Option Nodes) : List String → Nodes → Option Nodes
  | [], m => f m
  | k :: p, m =>
    match m.get? k with
    | none => (within f p []).map fun sub ↦ m.insert k (.table .passed sub)
    | some (.table origin sub) => (within f p sub).map fun sub ↦ m.insert k (.table origin sub)
    | some (.tables elements) =>
      match elements.getLast? with
      | none => none
      | some sub => (within f p sub).map fun sub ↦ m.insert k (.tables (elements.dropLast ++ [sub]))
    | some (.closed _) => none

def openTable (k : String) (m : Nodes) : Option Nodes :=
  match m.get? k with
  | none => some (m.insert k (.table .header []))
  | some (.table .passed sub) => some (m.insert k (.table .header sub))
  | some _ => none

def addTable (k : String) (m : Nodes) : Option Nodes :=
  match m.get? k with
  | none => some (m.insert k (.tables [[]]))
  | some (.tables elements) => some (m.insert k (.tables (elements ++ [[]])))
  | some _ => none

mutual

def Node.close : Node → Toml
  | .closed v => v
  | .table _ entries => .table (closeEntries entries)
  | .tables elements => .array (closeElements elements)

def closeEntries : List (String × Node) → List (String × Toml)
  | [] => []
  | (k, n) :: r => (k, n.close) :: closeEntries r

def closeElements : List (List (String × Node)) → List Toml
  | [] => []
  | m :: r => .table (closeEntries m) :: closeElements r

end

mutual

/-- A value that starts here. The fuel bounds the steps. -/
def value? : Nat → List Char → Option (Toml × List Char)
  | 0, _ => none
  | fuel + 1, cs =>
    match cs with
    | '"' :: r => (text? '"' r).map fun (t, r) ↦ (.string (String.ofList t), r)
    | '\'' :: r => (text? '\'' r).map fun (t, r) ↦ (.string (String.ofList t), r)
    | '[' :: r => (items? fuel r).map fun (vs, r) ↦ (.array vs, r)
    | '{' :: r =>
      match skipSpace r with
      | '}' :: r => some (.table [], r)
      | r => (pairs? fuel [] r).map fun (m, r) ↦ (.table (closeEntries m), r)
    | r => (integer? (r.takeWhile isWordChar)).map fun n ↦ (.integer n, r.dropWhile isWordChar)

def items? : Nat → List Char → Option (List Toml × List Char)
  | 0, _ => none
  | fuel + 1, cs =>
    match skipTrivia cs.length cs with
    | ']' :: r => some ([], r)
    | r => do
      let (v, r) ← value? fuel r
      match skipTrivia r.length r with
      | ',' :: r =>
        let (vs, r) ← items? fuel r
        return (v :: vs, r)
      | ']' :: r => return ([v], r)
      | _ => none

def pairs? : Nat → Nodes → List Char → Option (Nodes × List Char)
  | 0, _, _ => none
  | fuel + 1, m, cs => do
    let (path, r) ← key? cs.length.succ cs
    match skipSpace r with
    | '=' :: r =>
      let (v, r) ← value? fuel (skipSpace r)
      let m ← setKey path v m
      match skipSpace r with
      | ',' :: r => pairs? fuel m r
      | '}' :: r => return (m, r)
      | _ => none
    | _ => none

end

inductive Statement where
  | set (path : List String) (v : Toml)
  | table (path : List String)
  | tables (path : List String)

/-- The statement of a line; none on a line without. -/
def statement? (cs : List Char) : Option (Option Statement × List Char) :=
  match cs with
  | '[' :: '[' :: r => do
    let (path, r) ← key? r.length.succ r
    match r with
    | ']' :: ']' :: r => return (some (.tables path), r)
    | _ => none
  | '[' :: r => do
    let (path, r) ← key? r.length.succ r
    match r with
    | ']' :: r => return (some (.table path), r)
    | _ => none
  | r =>
    if r.isEmpty || r.head? = some '#' || (newline? r).isSome then some (none, r)
    else do
      let (path, r) ← key? r.length.succ r
      match r with
      | '=' :: r =>
        let (v, r) ← value? (2 * r.length + 2) (skipSpace r)
        return (some (.set path v), r)
      | _ => none

def statements? : Nat → List Char → Option (List Statement)
  | 0, _ => none
  | fuel + 1, cs => do
    let (s, r) ← statement? (skipSpace cs)
    let r ← endOfLine? r
    if r.isEmpty then return s.toList
    else return s.toList ++ (← statements? fuel r)

/-- Runs the statements; `here` is the way to the table that the latest header opened. -/
def build : List Statement → List String → Nodes → Option Nodes
  | [], _, m => some m
  | .set path v :: r, here, m => do build r here (← within (setKey path v) here m)
  | .table path :: r, _, m => do
    build r path (← within (openTable (path.getLastD "")) path.dropLast m)
  | .tables path :: r, _, m => do
    build r path (← within (addTable (path.getLastD "")) path.dropLast m)

def parse (cs : List Char) : Option (List (String × Toml)) := do
  let cs := if cs.head? = some '\ufeff' then cs.tail else cs
  let ss ← statements? cs.length.succ cs
  return closeEntries (← build ss [] [])

end Toml

end IntentCorrection
