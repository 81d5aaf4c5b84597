import IntentCorrection.CommandLine.Files
import IntentCorrection.Config.Basic
import IntentCorrection.Json.Writer
import IntentCorrection.Reevaluation.Error

namespace IntentCorrection.CommandLine

inductive Failure where
  | unreadableFile (path : String) (e : FileError)
  /-- A text from there is not a document. -/
  | notDocument (origin : String)
  | diff (e : CorrectionError)
  | refusedDiff (e : CorrectionError)
  | notObject (what : String) (found : ValueKind)
  | unreadableStore (path : String) (e : FileError)
  | notStore (path : String)
  | badStore (path : String) (e : StorageError)
  | unwritableStore (path : String) (e : FileError)
  | unreadableConfig (path : String) (e : FileError)
  | config (e : ConfigError)
  | storage (e : StorageError)
  | reevaluation (e : ReevaluationError)
  deriving DecidableEq, Repr

namespace Failure

def keyNote : CorrectionError → String
  | .invalidDiff fault =>
    match fault.key with
    | some key => " (key '" ++ key ++ "')"
    | none => ""
  | _ => ""

/-- The text of a failure; `detail` says what is wrong with a text that cannot be read. -/
def message (detail : String) : Failure → String
  | .unreadableFile path e => "error reading file '" ++ path ++ "': " ++ e.message
  | .notDocument origin => "error: invalid JSON in " ++ origin ++ ": " ++ detail
  | .diff e => e.message
  | .refusedDiff e => e.message ++ keyNote e
  | .notObject what found => "error: " ++ what ++ " must be a JSON object, got " ++ found.name
  | .unreadableStore path e => "error reading store '" ++ path ++ "': " ++ e.message
  | .notStore path => "error: invalid store file " ++ path ++ ": " ++ detail
  | .badStore path e => "error: " ++ path ++ ": " ++ e.message
  | .unwritableStore path e => "error writing store '" ++ path ++ "': " ++ e.message
  | .unreadableConfig path e => "error: failed to read config file " ++ path ++ ": " ++ e.message
  | .config e => "error: " ++ e.message detail
  | .storage e => "error: " ++ e.message
  | .reevaluation e => "error [" ++ e.code ++ "]: " ++ e.message

def panic? : Failure → Option Panic
  | .reevaluation (.panicked p) => some p
  | _ => none

def toJson (detail : String) (f : Failure) : Json :=
  match f with
  | .reevaluation e =>
    .object [("code", .string e.code), ("error", .string e.message), ("status", .ofNat e.httpStatus)]
  | f => .object [("error", .string (f.message detail))]

end Failure

end IntentCorrection.CommandLine
