import IntentCorrection.Entries
import IntentCorrection.Text.Escaped

namespace IntentCorrection

inductive FileError where
  | notFound | notDirectory | isDirectory | nameTooLong
  /-- Anything else, as the system words it. -/
  | other (text : String)
  deriving DecidableEq, Repr

def FileError.message : FileError → String
  | .notFound => "No such file or directory (os error 2)"
  | .notDirectory => "Not a directory (os error 20)"
  | .isDirectory => "Is a directory (os error 21)"
  | .nameTooLong => "File name too long (os error 36)"
  | .other text => text

structure FileSystem (m : Type → Type) where
  read : String → m (Except FileError String)
  isThere : String → m Bool
  write : String → String → m (Except FileError Unit)
  rename : String → String → m (Except FileError Unit)

def splitPath : List Char → List (List Char)
  | [] => [[]]
  | c :: r =>
    match splitPath r with
    | [] => [[c]]
    | p :: ps => if c = '/' then [] :: p :: ps else (c :: p) :: ps

def pathPieces (path : String) : List (List Char) := (splitPath path.toList).filter (· ≠ [])

def here : List Char := ['.']

def up : List Char := ['.', '.']

def endsInSeparator (path : String) : Bool := path.toList.getLast? = some '/'

/-- A name without its last extension. A dot at the start makes no extension. -/
def stem (name : List Char) : List Char :=
  let before := ((name.reverse.dropWhile (· ≠ '.')).drop 1).reverse
  if before.isEmpty then name else before

def extensionLength (name : List Char) : Nat := name.length - (stem name).length - 1

/-- Drops what leads nowhere from the front of a path that is read backwards. -/
def dropIdle : List Char → List Char
  | '/' :: r => dropIdle r
  | '.' :: '/' :: r => dropIdle r
  | cs => cs

def lastName (path : List Char) : List Char × List Char :=
  let backwards := dropIdle path.reverse
  ((backwards.dropWhile (· ≠ '/')).reverse, (backwards.takeWhile (· ≠ '/')).reverse)

/-- Puts an extension in place of the last one. A path that ends in no name of a file is left as it is. -/
def setExtension (path extension : List Char) : List Char :=
  let (directory, name) := lastName path
  if name = [] ∨ name = here ∨ name = up then path else directory ++ stem name ++ '.' :: extension

/-- A path with another extension. First as much is cut off its end as the old extension is long. This is seen
where a name of two dots is left: it is no name of a file. -/
def withExtension (path extension : String) : String :=
  let cs := path.toList
  let left := cs.length - extensionLength (lastName cs).2
  String.ofList (setExtension (cs.take left) extension.toList)

/-- Where a path leads: names from the current directory. Names of two dots at the front lead up from there, and
an empty name at the front is the root. -/
abbrev Place := List (List Char)

def root : Place := [[]]

def Place.parent (p : Place) : Place :=
  if p = root then root else if p.all (· = up) then p ++ [up] else p.dropLast

def Place.start (path : String) : Place := if path.toList.head? = some '/' then root else []

def Place.text (p : Place) : String := String.ofList (Text.joined ['/'] p)

def maxNameLength : Nat := 255

def maxPathLength : Nat := 4095

def systemDirectories : List String :=
  ["/bin", "/dev", "/etc", "/home", "/proc", "/root", "/sys", "/tmp", "/usr", "/var"]

def emptyFile : String := "/dev/null"

/-- What files hold, under the places where they are. -/
abbrev Files := Entries String ByteArray

namespace Files

def isInside (name : String) : Bool :=
  match splitPath name.toList with
  | piece :: _ => piece ≠ [] && piece ≠ up
  | [] => false

def file? (fs : Files) (p : Place) : Option ByteArray :=
  if p.text = emptyFile then some .empty else fs.get? p.text

def isDirectory (fs : Files) (p : Place) : Bool :=
  p.all (· = up) || p = root || systemDirectories.contains p.text ||
    fs.any fun f ↦ p.isPrefixOf (splitPath f.1.toList) && f.1 ≠ p.text

def noDirectory (fs : Files) (p : Place) : FileError :=
  if (fs.file? p).isSome then .notDirectory else .notFound

def follow (fs : Files) (p : Place) (piece : List Char) : Except FileError Place :=
  if !fs.isDirectory p then .error (fs.noDirectory p)
  else if piece = here then .ok p
  else if piece = up then .ok p.parent
  else if maxNameLength < (String.ofList piece).utf8ByteSize then .error .nameTooLong
  else .ok (p ++ [piece])

/-- Where a path leads. Only the last piece may lead to nothing. -/
def locate (fs : Files) (path : String) : Except FileError Place :=
  if path.isEmpty then .error .notFound
  else if maxPathLength < path.utf8ByteSize then .error .nameTooLong
  else (pathPieces path).foldlM fs.follow (Place.start path)

def bytes (fs : Files) (path : String) : Except FileError ByteArray := do
  let p ← fs.locate path
  if fs.isDirectory p then throw .isDirectory
  else
    match fs.file? p with
    | some bytes => if endsInSeparator path then throw .notDirectory else return bytes
    | none => throw .notFound

def read (fs : Files) (path : String) : Except FileError String := do
  match String.fromUTF8? (← fs.bytes path) with
  | some text => return text
  | none => throw (.other "stream did not contain valid UTF-8")

def isThere (fs : Files) (path : String) : Bool :=
  match fs.locate path with
  | .ok p => fs.isDirectory p || (fs.file? p).isSome && !endsInSeparator path
  | .error _ => false

def write (fs : Files) (path text : String) : Except FileError Files := do
  let p ← fs.locate path
  if endsInSeparator path || fs.isDirectory p then throw .isDirectory
  else return fs.insert p.text text.toUTF8

def rename (fs : Files) (path target : String) : Except FileError Files := do
  let source ← fs.locate path
  let bytes ← fs.bytes path
  let p ← fs.locate target
  if endsInSeparator target then throw .notDirectory
  else if fs.isDirectory p then throw .isDirectory
  else return (fs.erase source.text).insert p.text bytes

/-- The model as a file system. A step that fails changes nothing. -/
def system : FileSystem (StateM Files) where
  read path := return (← get).read path
  isThere path := return (← get).isThere path
  write path text := modifyGet fun fs ↦
    match fs.write path text with
    | .ok fs' => (.ok (), fs')
    | .error e => (.error e, fs)
  rename path target := modifyGet fun fs ↦
    match fs.rename path target with
    | .ok fs' => (.ok (), fs')
    | .error e => (.error e, fs)

end Files

end IntentCorrection
