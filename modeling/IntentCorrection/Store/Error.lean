import IntentCorrection.Time.Duration

namespace IntentCorrection

inductive StorageError where
  | notFound (key : String)
  | alreadyExists (key : String)
  /-- The stored version moved under a locked update. -/
  | conflict (key : String) (expected actual : Nat)
  | lockTimeout (key : String) (timeout : Duration)
  /-- The store saw a deadlock; the whole operation may be tried again. -/
  | deadlock (key detail : String)
  | backend (message : String)
  deriving DecidableEq, Repr

namespace StorageError

def message : StorageError → String
  | .notFound key => "intent not found: " ++ key
  | .alreadyExists key => "intent already exists: " ++ key
  | .conflict key expected actual =>
    "concurrent conflict on intent " ++ key ++ ": expected version " ++ toString expected ++
      ", found " ++ toString actual
  | .lockTimeout key timeout =>
    "timed out after " ++ timeout.text ++ " waiting for lock on intent " ++ key
  | .deadlock key detail => "deadlock detected on intent " ++ key ++ ": " ++ detail
  | .backend message => "storage backend error: " ++ message

def isDeadlock : StorageError → Bool
  | .deadlock .. => true
  | _ => false

def isContention : StorageError → Bool
  | .lockTimeout .. | .deadlock .. => true
  | _ => false

end StorageError

end IntentCorrection
