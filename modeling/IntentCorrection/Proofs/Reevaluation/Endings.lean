import IntentCorrection.Proofs.Reevaluation.Sink

namespace IntentCorrection

open Reevaluation Program

namespace ReevaluationResponse

/-- Starvation is worth a warning, whatever came of the request; a replay is worth less than a write. -/
def severity (response : ReevaluationResponse) : Severity :=
  if response.starvationDetected then .warning else if response.alreadyApplied then .debug else .info

def details (response : ReevaluationResponse) : List (String × Json) :=
  [("correction_id", response.correctionId.toJson), ("already_applied", .bool response.alreadyApplied),
    ("version", .ofNat response.version), ("correction_count", .ofNat response.correctionCount),
    ("attempts", .ofNat response.attempts), ("starvation_detected", .bool response.starvationDetected)]

end ReevaluationResponse

namespace AuditEvent

variable {e : AuditEvent} {key name : String} {response : ReevaluationResponse}

@[simp] theorem detail?_withDetail (e : AuditEvent) (name name' : String) (j : Json) :
    (e.withDetail name j).detail? name' = if name' = name then some j else e.detail? name' :=
  Entries.get?_insert _ _ _ _

/-- The event of a settled request, with all that its response tells. -/
structure Reports (e : AuditEvent) (key : String) (response : ReevaluationResponse) : Prop where
  kind : e.kind = .reevaluated
  severity : e.severity = response.severity
  intentKey : e.intentKey = key
  details : ∀ x ∈ response.details, e.detail? x.1 = some x.2

structure Alarms (e : AuditEvent) (key : String) : Prop where
  kind : e.kind = .reevaluated
  severity : e.severity = .error
  intentKey : e.intentKey = key

theorem Reports.withDetail (h : e.Reports key response) (hname : name ∉ response.details.map Prod.fst) (j : Json) :
    (e.withDetail name j).Reports key response where
  kind := h.kind
  severity := h.severity
  intentKey := h.intentKey
  details x hx := by
    have hne : x.1 ≠ name := fun heq ↦ hname (heq ▸ List.mem_map_of_mem hx)
    rw [detail?_withDetail, if_neg hne, h.details x hx]

theorem reports_settledEvent (i : Intent) (r : ReevaluationRequest) (response : ReevaluationResponse)
    (now : Timestamp) : (settledEvent i r response response.severity now).Reports r.intentKey response where
  kind := rfl
  severity := rfl
  intentKey := rfl
  details x hx := by
    simp only [ReevaluationResponse.details, List.mem_cons, List.not_mem_nil, or_false] at hx
    rcases hx with rfl | rfl | rfl | rfl | rfl | rfl
    all_goals simp [settledEvent, withDetails]

theorem alarms_failedEvent (r : ReevaluationRequest) (correlationId : Option Uuid) (attempts : Nat)
    (e : ReevaluationError) (now : Timestamp) : (failedEvent r correlationId attempts e now).Alarms r.intentKey :=
  ⟨rfl, rfl, rfl⟩

end AuditEvent

namespace Reevaluation

variable {config : Config} {r : ReevaluationRequest} {e : ReevaluationError} {log : Log}

inductive Fails (r : ReevaluationRequest) : ReevaluationError → Prop
  | refused {i : Intent} {now : Timestamp} {e : CorrectionError} : correct i r now = .error e →
      Fails r (.ofCorrection e)
  | storage (e : StorageError) : Fails r (.ofStorage e)
  | deadlock (operation : String) (attempts : Nat) (lastError : String) :
      Fails r (.deadlock operation attempts lastError)
  | panicked (p : Panic) : Fails r (.panicked p)

def Unsettled (r : ReevaluationRequest) (log : Log) (result : Except ReevaluationError Settled) : Prop :=
  log.events = [] ∧ ∀ e, result = .error e → Fails r e

theorem unsettled_error (h : log.events = []) (he : Fails r e) : Unsettled r log (.error e) := by
  refine ⟨h, fun e' heq ↦ ?_⟩
  cases heq
  exact he

theorem unsettled_ok (h : log.events = []) (settled : Settled) : Unsettled r log (.ok settled) := by
  refine ⟨h, fun e heq ↦ ?_⟩
  cases heq

theorem lockRules_unsettled :
    LockRules (fun _ ↦ True) (fun _ _ ↦ True) (fun log ↦ log.events = []) (fun _ log ↦ log.events = []) (Unsettled r)
      r.intentKey config.lockTimeout (judgeRequest r) where
  lock _ _ := trivial
  missed _ e h := unsettled_error (Log.events_silent h rfl) (.storage e)
  clock _ := trivial
  opened _ _ _ h _ := Log.events_silent (Log.events_silent h rfl) rfl
  refused _ _ _ _ h hjudge :=
    ⟨trivial, unsettled_error (Log.events_silent h rfl) (.refused (judgeRequest_error hjudge))⟩
  kept _ _ _ settled h _ :=
    ⟨trivial, fun e ↦ unsettled_error (Log.events_silent h rfl) (.storage e),
      fun _ ↦ unsettled_ok (Log.events_silent h rfl) settled⟩
  replaced _ _ _ _ a h _ :=
    ⟨trivial, fun e ↦ unsettled_error (Log.events_silent h rfl) (.storage e),
      fun stored _ ↦ unsettled_ok (Log.events_silent h rfl) (a stored)⟩

/-- Retries fail as one attempt can fail, with its deadlock, or with a panic, and no attempt emits anything. -/
theorem retries_unsettled (h : log.events = []) :
    (retryOnDeadlock config.backoff config.deadlockRetries "reevaluate" fun _ ↦ applyLocked config r).Ends
      (Unsettled r) log := by
  have hpause : ∀ (log : Log) (n : Nat), log.events = [] →
      True ∧ Log.events (log ++ [⟨.pause config.backoff n, ()⟩]) = [] :=
    fun _ _ hquiet ↦ ⟨trivial, Log.events_silent hquiet rfl⟩
  apply retryOnDeadlock_obeys hpause _ _ h
  · intro log e hend _
    exact ⟨hend.1, unsettled_error hend.1 (.panicked .draw), unsettled_error hend.1 (.deadlock _ _ e.message)⟩
  · intro _ log hquiet
    rw [applyLocked_eq]
    exact lockRules_unsettled.obeys hquiet

/-- How a request ends that was let in, with the events that were emitted by then. -/
inductive Ending (r : ReevaluationRequest) (log : Log) : Except ReevaluationError ReevaluationResponse → Prop
  | settled {response : ReevaluationResponse} {e : AuditEvent} : log.events = [e] → e.Reports r.intentKey response →
      Ending r log (.ok response)
  | conflict {attempts : Nat} {detail : String} {e : AuditEvent} : log.events = [e] → e.Alarms r.intentKey →
      Ending r log (.error (.concurrencyConflict r.intentKey attempts true detail))
  | refused {i : Intent} {now : Timestamp} {e : CorrectionError} : log.events = [] → correct i r now = .error e →
      Ending r log (.error (.ofCorrection e))
  | storage {e : StorageError} : log.events = [] → Ending r log (.error (.ofStorage e))
  | panicked {p : Panic} : log.events = [] → Ending r log (.error (.panicked p))

/-- Only the errors that are the fault of the caller, and panics, get out of the locked path as they are. -/
theorem Fails.ending (h : Fails r e) (hpassed : (e.isClientError || e.isPanic) = true) (hquiet : log.events = []) :
    Ending r log (.error e) := by
  cases h with
  | refused hc => exact .refused hquiet hc
  | storage e => exact .storage hquiet
  | deadlock operation attempts lastError => cases hpassed
  | panicked p => exact .panicked hquiet

theorem permits_all : Permits fun _ _ ↦ True := ⟨fun _ ↦ trivial, fun _ _ ↦ trivial⟩

theorem settle_ending {i : Intent} {record : CorrectionRecord} {alreadyApplied : Bool} {attempts : Nat}
    {severity : Severity}
    (hseverity : severity = (ReevaluationResponse.of i record alreadyApplied attempts false).severity)
    (h : log.events = []) : (settle i record r alreadyApplied attempts severity).Ends (Ending r) log := by
  subst hseverity
  apply settle_obeys permits_all
  intro now answer
  exact .settled (Log.events_emit (Log.events_silent h rfl) _ answer) (AuditEvent.reports_settledEvent i r _ now)

theorem fallbackRules_ending {attempts : Nat} {correlationId : Option Uuid} :
    FallbackRules (fun _ ↦ True) (fun _ _ ↦ True) (Unsettled r) (fun _ log ↦ log.events = []) (Ending r) r attempts
      correlationId where
  permits := permits_all
  settled log s now answer h := by
    have hreports :=
      AuditEvent.reports_settledEvent s.intent r (.of s.intent s.record s.alreadyApplied attempts true) now
    exact .settled (Log.events_emit (Log.events_silent h.1 rfl) _ answer)
      (hreports.withDetail (by simp [ReevaluationResponse.details]) _)
  passed _ e h hpassed := (h.2 e rfl).ending hpassed h.1
  known _ _ h _ := h.1
  read _ _ _ h _ _ := ⟨trivial, Log.events_silent h.1 rfl⟩
  failed _ e id now answer h :=
    .conflict (Log.events_emit (Log.events_silent h rfl) _ answer) (AuditEvent.alarms_failedEvent r id attempts e now)

theorem attemptRules_ending :
    AttemptRules (fun _ ↦ True) (fun _ _ ↦ True) (fun _ _ _ log ↦ log.events = []) (fun _ _ _ log ↦ log.events = [])
      (fun _ _ _ log ↦ log.events = []) (Ending r) config r where
  permits := permits_all
  read _ _ _ _ _ := trivial
  missing _ _ _ _ _ h := .storage (Log.events_silent h rfl)
  shown _ _ _ _ _ _ h _ := Log.events_silent (Log.events_silent h rfl) rfl
  refused _ _ _ _ _ _ h hc := .refused h hc
  found _ _ _ _ _ _ h _ := settle_ending rfl h
  swap _ _ _ _ _ _ _ _ _ := trivial
  failed _ _ _ _ _ _ _ _ h _ := .storage (Log.events_silent h rfl)
  won _ _ _ _ _ _ _ h _ := settle_ending rfl (Log.events_silent h rfl)
  lose _ _ _ _ _ _ _ h _ := Log.events_silent h rfl
  again _ _ _ h := h
  paused _ _ _ _ h := ⟨trivial, Log.events_silent h rfl⟩
  undrawn _ _ _ _ h _ := .panicked h
  fallback _ _ _ h _ := fallbackRules_ending.obeys (retries_unsettled h)
  overflow _ _ _ h _ := .panicked h

theorem reevaluate_ending (hcheck : checkRequest config r = .ok ()) : (reevaluate config r).Ends (Ending r) [] := by
  rw [reevaluate_of_admitted hcheck]
  exact attemptRules_ending.obeys rfl

end Reevaluation

end IntentCorrection
