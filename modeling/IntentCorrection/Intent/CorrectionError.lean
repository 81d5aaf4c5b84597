import IntentCorrection.Intent.Status
import IntentCorrection.Value.Basic

namespace IntentCorrection

inductive DiffFault where
  | notMap (found : ValueKind)
  | payloadNotMap (found : ValueKind)
  | emptyKey
  | badDots (key : String)
  | relativeOperation (key value : String)
  | functionCall (key value : String)
  | codePattern (key : String)
  /-- A fault found elsewhere, in its own words. -/
  | other (message : String) (key : Option String)
  deriving DecidableEq, Repr

namespace DiffFault

def message : DiffFault → String
  | .notMap found => "diff payload must be a map, got " ++ found.name
  | .payloadNotMap found => "diff['payload'] must be a map when provided, got " ++ found.name
  | .emptyKey => "diff keys must be non-empty strings"
  | .badDots key => "diff key '" ++ key ++ "' contains invalid dot notation"
  | .relativeOperation key value => "relative operations forbidden in diff: " ++ key ++ "=" ++ value
  | .functionCall key value => "function-style expressions forbidden in diff: " ++ key ++ "=" ++ value
  | .codePattern key => "code patterns forbidden in diff values: " ++ key
  | .other message _ => message

def key : DiffFault → Option String
  | .notMap _ => none
  | .payloadNotMap _ => some "payload"
  | .emptyKey => some ""
  | .badDots key | .relativeOperation key _ | .functionCall key _ | .codePattern key => some key
  | .other _ key => key

end DiffFault

/-- Where the program panics: at a sum that has no room in its word, and at a draw from nothing. A panic ends a call
as an error does, and lets go of what the call has in hand, but nobody handles it. -/
inductive Panic where
  | version | attempts | draw
  deriving DecidableEq, Repr

def Panic.message : Panic → String
  | .version | .attempts => "attempt to add with overflow"
  | .draw => "cannot sample empty range"

inductive CorrectionError where
  | invalidDiff (fault : DiffFault)
  /-- The path `key` runs through something that is not a map. -/
  | collision (key segment : String) (found : ValueKind)
  | invalidTransition (current requested : Status)
  | terminal (status : Status)
  | invalidReason (length max : Nat)
  | panicked (p : Panic)
  deriving DecidableEq, Repr

namespace CorrectionError

def message : CorrectionError → String
  | .invalidDiff fault => "invalid diff: " ++ fault.message
  | .collision key segment found =>
    "cannot apply diff key '" ++ key ++ "': segment '" ++ segment ++ "' holds a " ++ found.name ++
      ", not a map"
  | .invalidTransition current requested =>
    "invalid status transition " ++ current.name ++ " -> " ++ requested.name
  | .terminal status => "cannot correct intent in " ++ status.name ++ " status"
  | .invalidReason length max =>
    "correction reason must be 1..=" ++ toString max ++ " characters, got " ++ toString length
  | .panicked p => p.message

def isInvalidStatus : CorrectionError → Bool
  | .invalidTransition .. | .terminal .. => true
  | _ => false

end CorrectionError

end IntentCorrection
