import IntentCorrection.Diff.Basic
import IntentCorrection.Intent.Actor
import IntentCorrection.Time.Timestamp
import IntentCorrection.Uuid.Named

namespace IntentCorrection

/-- An applied correction, with its diff as submitted. -/
structure CorrectionRecord where
  id : Uuid
  source : Actor
  reason : String
  diff : Diff
  appliedAt : Timestamp
  metadata : Option ValueMap
  deriving DecidableEq, Repr

/-- A versioned record that corrections are applied to. -/
structure Intent where
  key : String
  kind : String
  correlationId : Uuid
  status : Status
  version : Nat
  payload : ValueMap
  history : List CorrectionRecord
  createdAt : Timestamp
  updatedAt : Timestamp
  deriving DecidableEq, Repr

def Intent.received (key kind : String) (payload : ValueMap) (correlationId : Uuid)
    (now : Timestamp) : Intent where
  key := key
  kind := kind
  correlationId := correlationId
  status := .received
  version := 0
  payload := payload
  history := []
  createdAt := now
  updatedAt := now

/-- The text that a correction id is derived from. -/
def correctionText (key : String) (diff : Diff) : List Char := key.toList ++ ':' :: diff.canonical

def correctionId (key : String) (diff : Diff) : Uuid :=
  Uuid.named Uuid.dns (String.ofList (correctionText key diff)).toUTF8.toList

end IntentCorrection
