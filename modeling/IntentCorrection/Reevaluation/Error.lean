import IntentCorrection.Intent.Actor
import IntentCorrection.Intent.CorrectionError
import IntentCorrection.Store.Error

namespace IntentCorrection

inductive ReevaluationError where
  | unauthorized (actor : Actor)
  | correction (e : CorrectionError)
  | intentNotFound (key : String)
  /-- The optimistic attempts and the locked path all failed. -/
  | concurrencyConflict (key : String) (attempts : Nat) (starved : Bool) (detail : String)
  | lockTimeout (key : String) (timeout : Duration)
  /-- Every attempt met a deadlock. -/
  | deadlock (operation : String) (attempts : Nat) (lastError : String)
  | deadlineExceeded (key : String) (deadline : Duration)
  | storage (e : StorageError)
  | panicked (p : Panic)
  deriving DecidableEq, Repr

def CorrectionError.code : CorrectionError → String
  | .invalidReason .. => "INVALID_REASON"
  | .invalidDiff _ => "INVALID_DIFF"
  | .collision .. => "APPLY_FAILED"
  | .invalidTransition .. | .terminal _ => "INVALID_STATUS"
  | .panicked _ => ""

namespace ReevaluationError

/-- A missing record and a lock that cannot be had have names of their own. -/
def ofStorage : StorageError → ReevaluationError
  | .notFound key => .intentNotFound key
  | .lockTimeout key timeout => .lockTimeout key timeout
  | e => .storage e

def ofCorrection : CorrectionError → ReevaluationError
  | .panicked p => .panicked p
  | e => .correction e

def message : ReevaluationError → String
  | .unauthorized actor => "source " ++ actor.name ++ " is not authorized to submit corrections"
  | .correction e => e.message
  | .intentNotFound key => "intent not found: " ++ key
  | .concurrencyConflict key attempts starved detail =>
    "concurrency conflict on intent " ++ key ++ " after " ++ toString attempts ++
      " attempts (starvation detected: " ++ (if starved then "true" else "false") ++ "): " ++ detail
  | .lockTimeout key timeout =>
    "timed out after " ++ timeout.text ++ " waiting for lock on intent " ++ key
  | .deadlock operation attempts lastError =>
    "deadlock persisted after " ++ toString attempts ++ " attempts in " ++ operation ++ ": " ++ lastError
  | .deadlineExceeded key deadline =>
    "re-evaluation of intent " ++ key ++ " exceeded its " ++ deadline.text ++ " deadline"
  | .storage e => e.message
  | .panicked p => p.message

/-- A panic has no code, and no transport gets to see it. -/
def code : ReevaluationError → String
  | .unauthorized _ => "INVALID_SOURCE"
  | .correction e => e.code
  | .intentNotFound _ => "INTENT_NOT_FOUND"
  | .concurrencyConflict .. => "CONCURRENCY_CONFLICT"
  | .lockTimeout .. => "LOCK_TIMEOUT"
  | .deadlock .. | .storage (.deadlock ..) => "DEADLOCK"
  | .deadlineExceeded .. => "DEADLINE_EXCEEDED"
  | .storage _ => "STORAGE_ERROR"
  | .panicked _ => ""

def httpStatus : ReevaluationError → Nat
  | .unauthorized _ => 403
  | .correction (.invalidReason ..) | .correction (.invalidDiff _) | .correction (.collision ..) => 400
  | .correction (.invalidTransition ..) | .correction (.terminal _) => 409
  | .correction (.panicked _) => 500
  | .intentNotFound _ => 404
  | .concurrencyConflict .. => 409
  | .lockTimeout .. | .deadlock .. | .storage (.deadlock ..) | .deadlineExceeded .. => 503
  | .storage _ | .panicked _ => 500

/-- The request itself is at fault, so trying again cannot help. -/
def isClientError : ReevaluationError → Bool
  | .unauthorized _ | .correction _ | .intentNotFound _ => true
  | _ => false

def isPanic : ReevaluationError → Bool
  | .panicked _ => true
  | _ => false

/-- A deadlock that the store reports, worth another attempt. -/
def isDeadlock : ReevaluationError → Bool
  | .storage e => e.isDeadlock
  | _ => false

end ReevaluationError

end IntentCorrection
