import IntentCorrection.Config.Basic
import IntentCorrection.Intent.Correction
import IntentCorrection.Reevaluation.Retry

namespace IntentCorrection

structure ReevaluationRequest where
  intentKey : String
  diff : Diff
  source : Actor
  reason : String
  metadata : Option ValueMap
  deriving DecidableEq, Repr

structure ReevaluationResponse where
  intentKey : String
  status : Status
  version : Nat
  /-- The correction was in the history, and nothing was written. -/
  alreadyApplied : Bool
  correctionId : Uuid
  appliedAt : Timestamp
  correctionCount : Nat
  /-- Optimistic attempts, and one more for the locked path. -/
  attempts : Nat
  starvationDetected : Bool
  deriving DecidableEq, Repr

namespace ReevaluationRequest

def fieldNames : List String := ["intent_key", "diff", "source", "reason", "metadata"]

def toJson (r : ReevaluationRequest) : Json :=
  .object <|
    [("intent_key", .string r.intentKey), ("diff", r.diff.toJson), ("source", r.source.toJson),
      ("reason", .string r.reason)] ++
    (r.metadata.map fun m ↦ ("metadata", Json.ofMap m)).toList

def ofJson? (j : Json) : Option ReevaluationRequest := do
  match ← j.record? .skip fieldNames with
  | [key, diff, source, reason, metadata] =>
    return {
      intentKey := ← key.bind Json.string?
      diff := ← diff.bind Diff.ofJson?
      source := ← source.bind Actor.ofJson?
      reason := ← reason.bind Json.string?
      metadata := ← (metadata.getD .null).optionalMap? }
  | _ => none

end ReevaluationRequest

namespace ReevaluationResponse

def of (i : Intent) (record : CorrectionRecord) (alreadyApplied : Bool) (attempts : Nat)
    (starved : Bool) : ReevaluationResponse where
  intentKey := i.key
  status := i.status
  version := i.version
  alreadyApplied := alreadyApplied
  correctionId := record.id
  appliedAt := record.appliedAt
  correctionCount := i.history.length
  attempts := attempts
  starvationDetected := starved

def toJson (r : ReevaluationResponse) : Json :=
  .object
    [("intent_key", .string r.intentKey), ("status", r.status.toJson), ("version", .ofNat r.version),
      ("already_applied", .bool r.alreadyApplied), ("correction_id", r.correctionId.toJson),
      ("applied_at", r.appliedAt.toJson), ("correction_count", .ofNat r.correctionCount),
      ("attempts", .ofNat r.attempts), ("starvation_detected", .bool r.starvationDetected)]

end ReevaluationResponse

namespace Reevaluation

def checkRequest (config : Config) (r : ReevaluationRequest) : Except ReevaluationError Unit :=
  if !config.isAuthorized r.source then .error (.unauthorized r.source)
  else
    match validateReason r.reason, r.diff.validate, r.diff.payload with
    | .error e, _, _ | .ok _, .error e, _ | .ok _, .ok _, .error e => .error (.correction e)
    | .ok _, .ok _, .ok _ => .ok ()

def correct (i : Intent) (r : ReevaluationRequest) (now : Timestamp) :
    Except CorrectionError CorrectionOutcome :=
  i.correct r.diff r.source r.reason r.metadata now

def settledEvent (i : Intent) (r : ReevaluationRequest) (response : ReevaluationResponse)
    (severity : Severity) (now : Timestamp) : AuditEvent :=
  (AuditEvent.of .reevaluated severity r.intentKey (some i.correlationId) now).withDetails
    [("correction_id", response.correctionId.toJson), ("source", r.source.toJson),
      ("reason", .string r.reason), ("diff", r.diff.toJson),
      ("already_applied", .bool response.alreadyApplied), ("version", .ofNat response.version),
      ("correction_count", .ofNat response.correctionCount), ("attempts", .ofNat response.attempts),
      ("starvation_detected", .bool response.starvationDetected)]

def settle (i : Intent) (record : CorrectionRecord) (r : ReevaluationRequest)
    (alreadyApplied : Bool) (attempts : Nat) (severity : Severity) :
    Program (Except ReevaluationError ReevaluationResponse) := do
  let response := ReevaluationResponse.of i record alreadyApplied attempts false
  let now ← .ask .now
  let _ ← Program.ask (.emit (settledEvent i r response severity now))
  return .ok response

structure Settled where
  intent : Intent
  record : CorrectionRecord
  alreadyApplied : Bool

def applyLocked (config : Config) (r : ReevaluationRequest) :
    Program (Except ReevaluationError Settled) := do
  match ← .ask (.lock r.intentKey config.lockTimeout) with
  | .error e => return .error (.ofStorage e)
  | .ok handle =>
    let now ← .ask .now
    match correct handle.intent r now with
    | .error e =>
      .ask (.drop handle)
      return .error (.ofCorrection e)
    | .ok (.alreadyApplied record) =>
      match ← .ask (.abort handle) with
      | .error e => return .error (.ofStorage e)
      | .ok _ => return .ok ⟨handle.intent, record, true⟩
    | .ok (.applied next record) =>
      match ← .ask (.commit (handle.replace next)) with
      | .error e => return .error (.ofStorage e)
      | .ok stored => return .ok ⟨stored, record, false⟩

def failedEvent (r : ReevaluationRequest) (correlationId : Option Uuid) (attempts : Nat)
    (e : ReevaluationError) (now : Timestamp) : AuditEvent :=
  (AuditEvent.of .reevaluated .error r.intentKey correlationId now).withDetails
    [("source", r.source.toJson), ("reason", .string r.reason), ("attempts", .ofNat attempts),
      ("starvation_detected", .bool true), ("fallback_strategy", .string "pessimistic"),
      ("error_code", .string e.code), ("error", .string e.message)]

/-- The correlation id for the event of a failure: as read before, else as the store has it now. -/
def correlationFor (r : ReevaluationRequest) : Option Uuid → Program (Option Uuid)
  | some id => return some id
  | none => do
    match ← .ask (.get r.intentKey) with
    | .ok i => return some i.correlationId
    | .error _ => return none

def fallback (config : Config) (r : ReevaluationRequest) (attempts : Nat)
    (correlationId : Option Uuid) : Program (Except ReevaluationError ReevaluationResponse) := do
  match ← retryOnDeadlock config.backoff config.deadlockRetries "reevaluate"
      (fun _ ↦ applyLocked config r) with
  | .ok settled =>
    let response :=
      ReevaluationResponse.of settled.intent settled.record settled.alreadyApplied attempts true
    let now ← .ask .now
    let event := (settledEvent settled.intent r response .warning now).withDetail
      "fallback_strategy" (.string "pessimistic")
    let _ ← Program.ask (.emit event)
    return .ok response
  | .error e =>
    if e.isClientError || e.isPanic then return .error e
    else
      let correlationId ← correlationFor r correlationId
      let now ← .ask .now
      let _ ← Program.ask (.emit (failedEvent r correlationId attempts e now))
      return .error (.concurrencyConflict r.intentKey attempts true e.message)

/-- The optimistic attempts that are left after `made` of them. The locked path counts as one more attempt, if there is
room for it. -/
def attemptFrom (config : Config) (r : ReevaluationRequest) :
    Nat → Nat → Option Uuid → Program (Except ReevaluationError ReevaluationResponse)
  | 0, made, correlationId =>
    if made + 1 < Word.size32 then fallback config r (made + 1) correlationId
    else return .error (.panicked .attempts)
  | left + 1, made, _ => do
    match ← .ask (.get r.intentKey) with
    | .error e => return .error (.ofStorage e)
    | .ok current =>
      let now ← .ask .now
      match correct current r now with
      | .error e => return .error (.ofCorrection e)
      | .ok (.alreadyApplied record) => settle current record r true (made + 1) .debug
      | .ok (.applied next record) =>
        match ← .ask (.swap r.intentKey next record current.version) with
        | .error e => return .error (.ofStorage e)
        | .ok true => settle next record r false (made + 1) .info
        | .ok false =>
          afterPause config.backoff made left (attemptFrom config r left (made + 1) (some current.correlationId))

def reevaluate (config : Config) (r : ReevaluationRequest) :
    Program (Except ReevaluationError ReevaluationResponse) :=
  match checkRequest config r with
  | .error e => return .error e
  | .ok () => attemptFrom config r config.maxRetries 0 none

theorem reevaluate_of_refused {config : Config} {r : ReevaluationRequest} {e : ReevaluationError}
    (h : checkRequest config r = .error e) : reevaluate config r = .done (.error e) := by
  unfold reevaluate
  rw [h]
  rfl

theorem reevaluate_of_admitted {config : Config} {r : ReevaluationRequest} (h : checkRequest config r = .ok ()) :
    reevaluate config r = attemptFrom config r config.maxRetries 0 none := by
  unfold reevaluate
  rw [h]

def transitionLocked (config : Config) (key : String) (requested : Status) :
    Program (Except ReevaluationError (Intent × Status)) := do
  match ← .ask (.lock key config.lockTimeout) with
  | .error e => return .error (.ofStorage e)
  | .ok handle =>
    let now ← .ask .now
    match handle.intent.transition requested now with
    | .error e =>
      .ask (.drop handle)
      return .error (.ofCorrection e)
    | .ok next =>
      if next.version = handle.intent.version then
        match ← .ask (.abort handle) with
        | .error e => return .error (.ofStorage e)
        | .ok _ => return .ok (next, handle.intent.status)
      else
        match ← .ask (.commit (handle.replace next)) with
        | .error e => return .error (.ofStorage e)
        | .ok stored => return .ok (stored, handle.intent.status)

def statusEvent (key : String) (i : Intent) (previous : Status) (now : Timestamp) : AuditEvent :=
  (AuditEvent.of .statusChanged .info key (some i.correlationId) now).withDetails
    [("from", previous.toJson), ("to", i.status.toJson), ("version", .ofNat i.version)]

/-- Moves an intent to a status under the lock; the status it has already is accepted and writes nothing. -/
def updateStatus (config : Config) (key : String) (requested : Status) :
    Program (Except ReevaluationError Intent) := do
  match ← retryOnDeadlock config.backoff config.deadlockRetries "update_status"
      (fun _ ↦ transitionLocked config key requested) with
  | .error e => return .error e
  | .ok (i, previous) =>
    if i.status = previous then return .ok i
    else
      let now ← .ask .now
      let _ ← Program.ask (.emit (statusEvent key i previous now))
      return .ok i

end Reevaluation

end IntentCorrection
