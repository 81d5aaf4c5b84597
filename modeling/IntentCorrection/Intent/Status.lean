import IntentCorrection.Text.Blank

namespace IntentCorrection

inductive Status where
  | received | normalized | processed | corrected | completed | failed
  deriving DecidableEq, Repr

namespace Status

def all : List Status := [.received, .normalized, .processed, .corrected, .completed, .failed]

def name : Status → String
  | .received => "received"
  | .normalized => "normalized"
  | .processed => "processed"
  | .corrected => "corrected"
  | .completed => "completed"
  | .failed => "failed"

def successors : Status → List Status
  | .received => [.received, .normalized, .failed]
  | .normalized => [.normalized, .processed, .completed, .failed]
  | .processed => [.processed, .corrected, .completed, .failed]
  | .corrected => [.corrected, .completed, .failed]
  | .completed => [.completed]
  | .failed => [.failed]

def isTerminal : Status → Bool
  | .completed | .failed => true
  | _ => false

def canBecome (s t : Status) : Bool := s = t || s.successors.contains t

def ofName? (name : String) : Option Status := all.find? (·.name = name)

/-- Reads a name, whatever its case and the blanks around it. -/
def parse? (text : String) : Option Status :=
  ofName? (String.ofList (Text.lowerAscii (Text.trim text.toList)))

theorem ofName?_name (s : Status) : ofName? s.name = some s := by cases s <;> decide

end Status

end IntentCorrection
