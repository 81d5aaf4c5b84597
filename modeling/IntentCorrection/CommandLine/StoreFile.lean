import IntentCorrection.CommandLine.Failure
import IntentCorrection.Intent.Codec
import IntentCorrection.Json.Reader
import IntentCorrection.Store.Basic

namespace IntentCorrection.CommandLine

def intentsOfText? (text : String) : Option (List Intent) :=
  (Json.parse text.toList).bind (·.listOf? Intent.ofJson?)

def storeOfText (path text : String) : Except Failure Store :=
  match intentsOfText? text with
  | none => .error (.notStore path)
  | some is =>
    match Store.ofIntents is with
    | .ok s => .ok s
    | .error e => .error (.badStore path e)

def storeText (s : Store) : String :=
  String.ofList ((Json.array (s.snapshot.map Intent.toJson)).pretty ++ ['\n'])

variable {m : Type → Type} [Monad m] (fs : FileSystem m)

def loadStore (path : String) : ExceptT Failure m Store := do
  match ← fs.read path with
  | .error e => throw (.unreadableStore path e)
  | .ok text => storeOfText path text

def loadOrCreateStore (path : String) : ExceptT Failure m Store := do
  if ← fs.isThere path then loadStore fs path else return .empty

def draftPath (path : String) : String := withExtension path "json.tmp"

def saveStore (path : String) (s : Store) : ExceptT Failure m Unit := do
  match ← fs.write (draftPath path) (storeText s) with
  | .error e => throw (.unwritableStore (draftPath path) e)
  | .ok () =>
    match ← fs.rename (draftPath path) path with
    | .error e => throw (.unwritableStore path e)
    | .ok () => return ()

end IntentCorrection.CommandLine
