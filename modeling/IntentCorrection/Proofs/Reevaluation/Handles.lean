import IntentCorrection.Proofs.Reevaluation.Job
import IntentCorrection.Proofs.Reevaluation.Rules

namespace IntentCorrection

open Reevaluation Program

namespace Exchange

def hands (held : Option LockedIntent) : Exchange → Option LockedIntent
  | ⟨.lock .., answer⟩ =>
    match answer with
    | Except.ok h => some h
    | Except.error _ => held
  | ⟨.commit _, _⟩ | ⟨.abort _, _⟩ | ⟨.drop _, _⟩ => none
  | _ => held

def failure? : Exchange → Option StorageError
  | ⟨.lock .., answer⟩ =>
    match answer with
    | Except.ok _ => none
    | Except.error e => some e
  | ⟨.commit _, answer⟩ =>
    match answer with
    | Except.ok _ => none
    | Except.error e => some e
  | ⟨.abort _, answer⟩ =>
    match answer with
    | Except.ok _ => none
    | Except.error e => some e
  | _ => none

end Exchange

namespace Log

def held (log : Log) : Option LockedIntent := log.foldl Exchange.hands none

@[simp] theorem held_append (log xs : Log) : held (log ++ xs) = xs.foldl Exchange.hands (held log) := by
  simp [held]

def Failed (log : Log) (e : StorageError) : Prop := ∃ x ∈ log, x.failure? = some e

theorem Failed.append {log : Log} {e : StorageError} (h : log.Failed e) (xs : Log) : Failed (log ++ xs) e := by
  obtain ⟨x, hx, he⟩ := h
  exact ⟨x, List.mem_append_left _ hx, he⟩

theorem failed_last {x : Exchange} {e : StorageError} (h : x.failure? = some e) (log : Log) :
    Failed (log ++ [x]) e := ⟨x, by simp, h⟩

/-- An error is due to the request, to a panic, to an error of the store, or to its deadlocks. -/
def Explains (log : Log) (e : ReevaluationError) : Prop :=
  (e.isClientError || e.isPanic) = true ∨
    ∃ cause, log.Failed cause ∧ (e = .ofStorage cause ∨ cause.isDeadlock = true)

theorem explains_last {x : Exchange} {cause : StorageError} (h : x.failure? = some cause) (log : Log) :
    Explains (log ++ [x]) (.ofStorage cause) :=
  .inr ⟨cause, failed_last h log, .inl rfl⟩

def Tells (log : Log) (detail : String) : Prop :=
  ∃ cause, log.Failed cause ∧ (cause.isDeadlock = true ∨
    (ReevaluationError.ofStorage cause).isClientError = false ∧
      detail = (ReevaluationError.ofStorage cause).message)

theorem Tells.append {log : Log} {detail : String} (h : log.Tells detail) (xs : Log) : Tells (log ++ xs) detail := by
  obtain ⟨cause, hfail, h⟩ := h
  exact ⟨cause, hfail.append xs, h⟩

theorem Explains.tells {log : Log} {e : ReevaluationError} (h : log.Explains e)
    (he : (e.isClientError || e.isPanic) = false) : log.Tells e.message := by
  rcases h with hpassed | ⟨cause, hfail, rfl | hdead⟩
  · rw [hpassed] at he
    cases he
  · exact ⟨cause, hfail, .inr ⟨(Bool.or_eq_false_iff.1 he).1, rfl⟩⟩
  · exact ⟨cause, hfail, .inl hdead⟩

theorem Explains.deadlock {log : Log} {e : ReevaluationError} (h : log.Explains e) (he : e.isDeadlock = true) :
    ∃ cause, log.Failed cause ∧ cause.isDeadlock = true := by
  rcases h with hpassed | ⟨cause, hfail, rfl | hdead⟩
  · cases e <;> simp_all [ReevaluationError.isClientError, ReevaluationError.isPanic, ReevaluationError.isDeadlock]
  · exact ⟨cause, hfail, by
      cases cause <;> simp_all [ReevaluationError.ofStorage, ReevaluationError.isDeadlock]⟩
  · exact ⟨cause, hfail, hdead⟩

end Log

namespace Job

def lockTimeout : Job → Duration
  | .correction config _ | .statusChange config _ _ => config.lockTimeout

def MayHandle (j : Job) (log : Log) : Call → Prop
  | .lock key timeout => log.held = none ∧ key = j.key ∧ timeout = j.lockTimeout
  | .commit h => ∃ h₀ i, log.held = some h₀ ∧ i.key = h₀.intent.key ∧ h = h₀.replace i
  | .abort h | .drop h => log.held = some h
  | _ => True

/-- A job ends with empty hands, and a conflict tells of an error of the store. -/
def MayFinish (log : Log) (outcome : Outcome) : Prop :=
  log.held = none ∧ ∀ key attempts starved detail,
    outcome = .corrected (.error (.concurrencyConflict key attempts starved detail)) → log.Tells detail

variable {j : Job} {log : Log} {config : Config} {r : ReevaluationRequest}

theorem permits_mayHandle : Permits j.MayHandle := ⟨fun _ ↦ trivial, fun _ _ ↦ trivial⟩

theorem between_pause {policy : BackoffPolicy} (log : Log) (n : Nat) (h : log.held = none) :
    j.MayHandle log (.pause policy n) ∧ Log.held (log ++ [⟨.pause policy n, ()⟩]) = none :=
  ⟨trivial, by simp [Exchange.hands, h]⟩

def LetGo {α : Type} (log : Log) (result : Except ReevaluationError α) : Prop :=
  log.held = none ∧ ∀ e, result = .error e → log.Explains e

theorem letGo_error {α : Type} {e : ReevaluationError} (hheld : log.held = none) (he : log.Explains e) :
    LetGo log (.error e : Except ReevaluationError α) := by
  refine ⟨hheld, fun e' heq ↦ ?_⟩
  cases heq
  exact he

theorem letGo_ok {α : Type} (hheld : log.held = none) (a : α) : LetGo log (.ok a : Except ReevaluationError α) := by
  refine ⟨hheld, fun e heq ↦ ?_⟩
  cases heq

/-- It does not matter what a locked attempt makes of its intent, as long as it keeps the key. -/
theorem lockRules_letGo {α : Type} {key : String} (hkey : key = j.key)
    {judge : Intent → Timestamp → Except CorrectionError (Verdict α)}
    (hjudge : ∀ i now next a, judge i now = .ok (.replace next a) → next.key = i.key) :
    LockRules Exchange.Honest j.MayHandle (fun log ↦ log.held = none) (fun h log ↦ log.held = some h) LetGo key
      j.lockTimeout judge where
  lock _ h := ⟨h, hkey, rfl⟩
  missed log _ h := letGo_error (by simp [h, Exchange.hands]) (Log.explains_last rfl log)
  clock _ := trivial
  opened _ _ _ _ _ := by simp [Exchange.hands]
  refused _ _ _ e h _ := ⟨h, letGo_error (by simp [Exchange.hands]) (.inl (ReevaluationError.passed_ofCorrection e))⟩
  kept log _ _ a h _ := by
    refine ⟨h, fun e ↦ ?_, fun _ ↦ ?_⟩
    · exact letGo_error (by simp [Exchange.hands]) (Log.explains_last rfl log)
    · exact letGo_ok (by simp [Exchange.hands]) a
  replaced log handle now next a h hreplace := by
    refine ⟨⟨handle, next, h, hjudge _ _ _ _ hreplace, rfl⟩, fun e ↦ ?_, fun stored _ ↦ ?_⟩
    · exact letGo_error (by simp [Exchange.hands]) (Log.explains_last rfl log)
    · exact letGo_ok (by simp [Exchange.hands]) (a stored)

/-- A deadlock of the last attempt explains why all of them failed. -/
theorem explains_deadlock {operation : String} {limit : Nat} {e : ReevaluationError} (h : log.Explains e)
    (he : e.isDeadlock = true) : log.Explains (.deadlock operation limit e.message) := by
  obtain ⟨cause, hfail, hdead⟩ := h.deadlock he
  exact .inr ⟨cause, hfail, .inr hdead⟩

theorem retries_letGo {α : Type} {policy : BackoffPolicy} {limit : Nat} {operation : String}
    {run : Nat → Program (Except ReevaluationError α)}
    (hrun : ∀ n log, log.held = none → (run n).Meets j.MayHandle LetGo log) (h : log.held = none) :
    (retryOnDeadlock policy limit operation run).Meets j.MayHandle LetGo log := by
  apply retryOnDeadlock_obeys between_pause _ hrun h
  intro log e hend he
  obtain ⟨hheld, hexplain⟩ := hend
  exact ⟨hheld, letGo_error hheld (.inl rfl), letGo_error hheld (explains_deadlock (hexplain e rfl) he)⟩

theorem mayFinish_ok {response : ReevaluationResponse} (h : log.held = none) :
    MayFinish log (.corrected (.ok response)) := by
  refine ⟨h, fun key attempts starved detail heq ↦ ?_⟩
  cases heq

theorem mayFinish_ofStorage {e : StorageError} (h : log.held = none) :
    MayFinish log (.corrected (.error (.ofStorage e))) := by
  refine ⟨h, fun key attempts starved detail heq ↦ ?_⟩
  cases e <;> cases heq

theorem mayFinish_passed {e : ReevaluationError} (h : log.held = none) (he : (e.isClientError || e.isPanic) = true) :
    MayFinish log (.corrected (.error e)) := by
  refine ⟨h, fun key attempts starved detail heq ↦ ?_⟩
  cases heq
  cases he

theorem settle_handles {i : Intent} {record : CorrectionRecord} {alreadyApplied : Bool} {attempts : Nat}
    {severity : Severity} (h : log.held = none) :
    (settle i record r alreadyApplied attempts severity).Meets (correction config r).MayHandle
      (fun log result ↦ MayFinish log (.corrected result)) log :=
  settle_obeys permits_mayHandle fun _ _ ↦ mayFinish_ok (by simp [Exchange.hands, h])

theorem fallbackRules_handles {attempts : Nat} {correlationId : Option Uuid} :
    FallbackRules Exchange.Honest (correction config r).MayHandle LetGo
      (fun e log ↦ log.held = none ∧ log.Tells e.message)
      (fun log result ↦ MayFinish log (.corrected result)) r attempts correlationId where
  permits := permits_mayHandle
  settled _ _ _ _ h := mayFinish_ok (by simp [Exchange.hands, h.1])
  passed _ _ h he := mayFinish_passed h.1 he
  known _ e h he := ⟨h.1, (h.2 e rfl).tells he⟩
  read _ e _ h he _ := ⟨trivial, by simp [Exchange.hands, h.1], ((h.2 e rfl).tells he).append _⟩
  failed _ _ _ _ _ h := by
    obtain ⟨hheld, htells⟩ := h
    refine ⟨by simp [Exchange.hands, hheld], fun key attempts starved detail heq ↦ ?_⟩
    cases heq
    exact (htells.append _).append _

/-- No optimistic attempt asks for a lock, so the hands are as empty after an attempt as before it. -/
theorem attemptRules_handles :
    AttemptRules Exchange.Honest (correction config r).MayHandle (fun _ _ _ log ↦ log.held = none)
      (fun _ _ _ log ↦ log.held = none) (fun _ _ _ log ↦ log.held = none)
      (fun log result ↦ MayFinish log (.corrected result)) config r where
  permits := permits_mayHandle
  read _ _ _ _ _ := trivial
  missing _ _ _ _ _ h := mayFinish_ofStorage (by simp [Exchange.hands, h])
  shown _ _ _ _ _ _ h _ := by simp [Exchange.hands, h]
  refused _ _ _ _ _ e h _ := mayFinish_passed h (ReevaluationError.passed_ofCorrection e)
  found _ _ _ _ _ _ h _ := settle_handles h
  swap _ _ _ _ _ _ _ _ _ := trivial
  failed _ _ _ _ _ _ _ _ h _ := mayFinish_ofStorage (by simp [Exchange.hands, h])
  won _ _ _ _ _ _ _ h _ := settle_handles (by simp [Exchange.hands, h])
  lose _ _ _ _ _ _ _ h _ := by simp [Exchange.hands, h]
  again _ _ _ h := h
  paused log _ made _ h := between_pause log made h
  undrawn _ _ _ _ h _ := mayFinish_passed h rfl
  fallback _ _ _ h _ := by
    apply fallbackRules_handles.obeys
    apply retries_letGo _ h
    intro _ log hheld
    rw [applyLocked_eq]
    refine LockRules.obeys (lockRules_letGo rfl fun i now next a hreplace ↦ ?_) hheld
    obtain ⟨record, -, hc⟩ := judgeRequest_replace hreplace
    obtain ⟨-, -, -, changes, payload, -, -, rfl⟩ := Intent.correct_applied hc
    rfl
  overflow _ _ _ h _ := mayFinish_passed h rfl

/-- What is refused without a look at the store is the fault of the request. -/
theorem isClientError_of_checkRequest {e : ReevaluationError} (h : checkRequest config r = .error e) :
    e.isClientError = true := by
  unfold checkRequest at h
  split at h
  · cases h
    rfl
  · split at h <;> cases h <;> rfl

variable {key : String} {requested : Status}

theorem updateStatus_handles :
    (updateStatus config key requested).Meets (statusChange config key requested).MayHandle
      (fun log _ ↦ log.held = none) [] := by
  have hretries : (retryOnDeadlock config.backoff config.deadlockRetries "update_status"
      fun _ ↦ transitionLocked config key requested).Meets (statusChange config key requested).MayHandle LetGo [] := by
    apply retries_letGo _ rfl
    intro _ log hheld
    rw [transitionLocked_eq]
    refine LockRules.obeys (lockRules_letGo rfl fun i now next a hreplace ↦ ?_) hheld
    obtain ⟨-, -, ht⟩ := judgeStatus_replace hreplace
    obtain ⟨-, ⟨-, rfl⟩ | ⟨-, rfl⟩⟩ := Intent.transition_ok ht
    · rfl
    · rfl
  apply updateStatus_obeys permits_mayHandle hretries
  · intro log e h
    exact h.1
  · intro log i previous h _
    exact h.1
  · intro log i previous now answer h _
    simp [Exchange.hands, h.1]

theorem program_handles (j : Job) : j.program.Meets j.MayHandle MayFinish [] := by
  cases j with
  | correction config r =>
    apply Obeys.bind
    unfold reevaluate
    split
    · rename_i e he
      exact mayFinish_passed rfl (by simp [isClientError_of_checkRequest he])
    · exact attemptRules_handles.obeys rfl
  | statusChange config key requested =>
    apply Obeys.bind
    apply updateStatus_handles.mono
    intro log result hheld
    refine ⟨hheld, fun key attempts starved detail heq ↦ ?_⟩
    cases heq

end Job

end IntentCorrection
