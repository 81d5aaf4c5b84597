import IntentCorrection.Diff.Basic
import IntentCorrection.Text.Blank

namespace IntentCorrection.Diff

open Text

def hasBadDots (cs : List Char) : Bool :=
  cs.head? = some '.' || cs.getLast? = some '.' || Text.contains ['.', '.'] cs

/-- `+5`, `- 3`: a sign, then digits to the end. -/
def isRelativeOperation : List Char → Bool
  | c :: cs =>
    (c = '+' || c = '-' || c = '*' || c = '/') &&
      (let rest := trimStart cs; !rest.isEmpty && rest.all Char.isDigit)
  | [] => false

def startsName (c : Char) : Bool := c.isAlpha || c = '_'

def continuesName (c : Char) : Bool := c.isAlphanum || c = '_' || c = '.'

/-- `eval(`, `os.system (`: a name, which may have dots inside, and an opening parenthesis. -/
def isFunctionCall : List Char → Bool
  | c :: cs => startsName c && (trimStart (cs.dropWhile continuesName)).head? = some '('
  | [] => false

def codeMarker : List Char := ['_', '_', 'i', 'm', 'p', 'o', 'r', 't', '_', '_']

def textFault? (key text : String) : Option DiffFault :=
  let cs := trim text.toList
  if isRelativeOperation cs then some (.relativeOperation key text)
  else if isFunctionCall cs then some (.functionCall key text)
  else if Text.contains codeMarker cs then some (.codePattern key)
  else none

def keyFault? (key : String) : Option DiffFault :=
  if key.isEmpty then some .emptyKey
  else if hasBadDots key.toList then some (.badDots key)
  else none

def itemsFault? (key : String) : List Value → Option DiffFault
  | [] => none
  | .string s :: r => (textFault? key s).or (itemsFault? key r)
  | _ :: r => itemsFault? key r

mutual

def valueFault? (key : String) : Value → Option DiffFault
  | .map m => entriesFault? m
  | .string s => textFault? key s
  | .list items | .set items => itemsFault? key items
  | .null | .bool _ | .number _ => none

/-- The first fault of the entries, a key before what is under it. -/
def entriesFault? : List (String × Value) → Option DiffFault
  | [] => none
  | (k, v) :: r => ((keyFault? k).or (valueFault? k v)).or (entriesFault? r)

end

def validateMap (m : ValueMap) : Except CorrectionError Unit :=
  match entriesFault? m with
  | none => .ok ()
  | some fault => .error (.invalidDiff fault)

def validate (d : Diff) : Except CorrectionError Unit := validateMap d.entries

end IntentCorrection.Diff
