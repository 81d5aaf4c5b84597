import IntentCorrection.CommandLine.Commands
import Std.Time.DateTime.Timestamp

namespace IntentCorrection.CommandLine

def errorNumber (code : UInt32) : Nat :=
  if 2 * code.toNat < Word.size32 then code.toNat else Word.size32 - code.toNat

def otherError (code : UInt32) (details : String) : FileError :=
  if errorNumber code = 36 then .nameTooLong
  else .other (details ++ " (os error " ++ toString (errorNumber code) ++ ")")

def fileError : IO.Error → FileError
  | .noFileOrDirectory .. => .notFound
  | .inappropriateType _ code _ => if errorNumber code = 21 then .isDirectory else .notDirectory
  | .permissionDenied _ code details | .alreadyExists _ code details
  | .invalidArgument _ code details | .resourceExhausted _ code details
  | .noSuchThing _ code details | .interrupted _ code details
  | .otherError code details | .resourceBusy code details | .resourceVanished code details
  | .unsupportedOperation code details | .hardwareFault code details
  | .unsatisfiedConstraints code details | .illegalOperation code details
  | .protocolError code details | .timeExpired code details => otherError code details
  | .unexpectedEof => .other "unexpected end of file"
  | .userError _ => .other "stream did not contain valid UTF-8"

def attempt {α : Type} (x : IO α) : IO (Except FileError α) := do
  try return .ok (← x)
  catch e => return .error (fileError e)

/-- The file is there if it can be opened, or cannot for another reason than where it should be. -/
def isThere (path : String) : IO Bool := do
  match ← attempt (IO.FS.Handle.mk path .read) with
  | .ok _ => return true
  | .error e => return !(e matches .notFound | .notDirectory | .nameTooLong)

def machineFiles : FileSystem IO where
  read path := attempt (IO.FS.readFile path)
  isThere := isThere
  write path text := attempt (IO.FS.writeFile path text)
  rename path target := attempt (IO.FS.rename path target)

def readVariables : IO (List (String × Option String)) :=
  Config.variableNames.mapM fun name ↦ return (name, ← IO.getEnv name)

def randomNumber : IO Nat :=
  return (← IO.getRandomBytes 16).toList.foldl (fun n b ↦ 256 * n + b.toNat) 0

def currentTime : IO Timestamp := do
  let now := (← Std.Time.Timestamp.now).toNanosecondsSinceUnixEpoch.val.toNat
  match Timestamp.ofUnixTime? now with
  | some t => return t
  | none => throw (.userError "the clock shows no time of this calendar")

end IntentCorrection.CommandLine

open IntentCorrection CommandLine in
def main (arguments : List String) : IO UInt32 := do
  let found ← readVariables
  let surroundings : Surroundings IO :=
    { files := machineFiles
      lookup := fun name ↦ (found.find? (·.1 = name)).bind Prod.snd
      date := ← currentTime
      newId := .ofRandom (← randomNumber) }
  let ending ← run surroundings "the text is not a document of that kind" arguments
  IO.print ending.output
  IO.eprint ending.errors
  return ending.exitCode.toUInt32
