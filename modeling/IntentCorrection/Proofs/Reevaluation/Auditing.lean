import IntentCorrection.Proofs.Concurrency.Errand
import IntentCorrection.Proofs.Reevaluation.Endings

namespace IntentCorrection

open Reevaluation Program

namespace AuditEvent

structure Marks (e : AuditEvent) (key : String) (previous : Status) (i : Intent) : Prop where
  kind : e.kind = .statusChanged
  severity : e.severity = .info
  intentKey : e.intentKey = key
  origin : e.detail? "from" = some previous.toJson
  target : e.detail? "to" = some i.status.toJson
  version : e.detail? "version" = some (.ofNat i.version)

theorem marks_statusEvent (key : String) (i : Intent) (previous : Status) (now : Timestamp) :
    (statusEvent key i previous now).Marks key previous i where
  kind := rfl
  severity := rfl
  intentKey := rfl
  origin := by simp [statusEvent, withDetails]
  target := by simp [statusEvent, withDetails]
  version := by simp [statusEvent, withDetails]

end AuditEvent

namespace Job

/-- What was emitted in the course of a job is what its outcome asks for. The status that a change started from is that
of the intent that was shown last. -/
def Audits : Job → Log → Outcome → Prop
  | .correction _ r, log, .corrected (.ok response) => ∃ e, log.events = [e] ∧ e.Reports r.intentKey response
  | .correction _ r, log, .corrected (.error (.concurrencyConflict ..)) =>
    ∃ e, log.events = [e] ∧ e.Alarms r.intentKey
  | .correction .., log, .corrected (.error _) => log.events = []
  | .statusChange _ key _, log, .statusChanged (.ok i) =>
    ∃ base, log.shown = some base ∧
      if i.status = base.status then log.events = [] else ∃ e, log.events = [e] ∧ e.Marks key base.status i
  | .statusChange .., log, .statusChanged (.error _) => log.events = []
  | _, _, _ => False

variable {log : Log} {config : Config} {r : ReevaluationRequest}

theorem audits_clientError {e : ReevaluationError} (he : e.isClientError = true) (h : log.events = []) :
    (correction config r).Audits log (.corrected (.error e)) := by
  cases e with
  | concurrencyConflict key attempts starved detail => cases he
  | _ => exact h

theorem audits_of_ending {result : Except ReevaluationError ReevaluationResponse} (h : Ending r log result) :
    (correction config r).Audits log (.corrected result) := by
  cases h with
  | settled hevents hreports => exact ⟨_, hevents, hreports⟩
  | conflict hevents halarms => exact ⟨_, hevents, halarms⟩
  | @refused _ _ e hquiet _ => cases e <;> exact hquiet
  | @storage e hquiet => cases e <;> exact hquiet
  | panicked hquiet => exact hquiet

theorem reevaluate_audits :
    (reevaluate config r).Ends (fun log result ↦ (correction config r).Audits log (.corrected result)) [] := by
  cases hcheck : checkRequest config r with
  | ok _ => exact (reevaluate_ending hcheck).mono fun _ _ ↦ audits_of_ending
  | error e =>
    rw [reevaluate_of_refused hcheck]
    exact audits_clientError (isClientError_of_checkRequest hcheck) rfl

variable {key : String} {requested : Status}

/-- Nothing was emitted, and a result tells the status of the intent that was shown last. -/
def Unmarked (log : Log) : Except ReevaluationError (Intent × Status) → Prop
  | .ok (_, previous) => log.events = [] ∧ ∃ base, log.shown = some base ∧ base.status = previous
  | .error _ => log.events = []

theorem unmarked_error {e : ReevaluationError} (h : log.events = []) : Unmarked log (.error e) := h

theorem lockRules_unmarked :
    LockRules (fun _ ↦ True) (fun _ _ ↦ True) (fun log ↦ log.events = [])
      (fun h log ↦ log.events = [] ∧ log.shown = some h.intent) Unmarked key config.lockTimeout
      (judgeStatus requested) where
  lock _ _ := trivial
  missed _ _ h := unmarked_error (Log.events_silent h rfl)
  clock _ := trivial
  opened _ _ _ h _ := ⟨Log.events_silent (Log.events_silent h rfl) rfl, Log.shown_of_clock _ _ rfl⟩
  refused _ _ _ _ h _ := ⟨trivial, unmarked_error (Log.events_silent h.1 rfl)⟩
  kept log handle now a h hjudge := by
    obtain ⟨rfl, -⟩ := judgeStatus_keep hjudge
    refine ⟨trivial, fun _ ↦ unmarked_error (Log.events_silent h.1 rfl), fun _ ↦ ?_⟩
    exact ⟨Log.events_silent h.1 rfl, handle.intent, Log.shown_quiet h.2 rfl, rfl⟩
  replaced log handle now next a h hjudge := by
    obtain ⟨rfl, -, -⟩ := judgeStatus_replace hjudge
    refine ⟨trivial, fun _ ↦ unmarked_error (Log.events_silent h.1 rfl), fun stored _ ↦ ?_⟩
    exact ⟨Log.events_silent h.1 rfl, handle.intent, Log.shown_quiet h.2 rfl, rfl⟩

theorem updateStatus_audits :
    (updateStatus config key requested).Ends
      (fun log result ↦ (statusChange config key requested).Audits log (.statusChanged result)) [] := by
  have hpause : ∀ (log : Log) (n : Nat), log.events = [] →
      True ∧ Log.events (log ++ [⟨.pause config.backoff n, ()⟩]) = [] :=
    fun _ _ hquiet ↦ ⟨trivial, Log.events_silent hquiet rfl⟩
  have hretries : (retryOnDeadlock config.backoff config.deadlockRetries "update_status"
      fun _ ↦ transitionLocked config key requested).Ends Unmarked [] := by
    apply retryOnDeadlock_obeys hpause _ _ (show Log.events [] = [] from rfl)
    · intro log e hquiet _
      exact ⟨hquiet, hquiet, hquiet⟩
    · intro _ log hquiet
      rw [transitionLocked_eq]
      exact lockRules_unmarked.obeys hquiet
  apply updateStatus_obeys permits_all hretries
  · intro log e hquiet
    exact hquiet
  · intro log i previous h hsame
    obtain ⟨hquiet, base, hshown, rfl⟩ := h
    exact ⟨base, hshown, by rwa [if_pos hsame]⟩
  · intro log i previous now answer h hchanged
    obtain ⟨hquiet, base, hshown, rfl⟩ := h
    refine ⟨base, Log.shown_quiet (Log.shown_quiet hshown rfl) rfl, ?_⟩
    rw [if_neg hchanged]
    exact ⟨_, Log.events_emit (Log.events_silent hquiet rfl) _ answer,
      AuditEvent.marks_statusEvent key i base.status now⟩

theorem ends_audits (job : Job) : job.program.Ends job.Audits [] := by
  cases job with
  | correction config r => exact .bind (reevaluate_audits.mono fun log result hend ↦ hend)
  | statusChange config key requested => exact .bind (updateStatus_audits.mono fun log result hend ↦ hend)

theorem deaf_program (job : Job) : job.program.Deaf := by
  cases job with
  | correction config r => exact deaf_reevaluate.bind fun _ ↦ trivial
  | statusChange config key requested => exact (deaf_updateStatus key requested).bind fun _ ↦ trivial

/-- Whatever the answers are, the events of a job are just those that its outcome asks for; and whatever answers it and
with whatever effects, all that comes of it is the same for every sink. -/
theorem program_audited (job : Job) :
    (∀ log outcome, job.program.Leads log (.done outcome) → job.Audits log outcome) ∧
      ∀ (m : Type → Type) [Monad m] [LawfulMonad m] (env : (c : Call) → m c.Answer) (sink : Sink),
        job.program.within env sink = job.program.within env .broken :=
  ⟨fun _ _ h ↦ h.ended job.ends_audits, fun _ _ _ env sink ↦ job.deaf_program.within_eq env sink .broken⟩

/-- The fourth attempt has succeeded, and the event warns of it. -/
theorem program_audited_outage : ∃ response e,
    Outage.errand.progress = .running (.done (.corrected (.ok response))) ∧ Outage.errand.log.events = [e] ∧
      e.severity = .warning ∧ e.detail? "attempts" = some (.ofNat 4) ∧
        (correction .default Race.request).program.within (Store.answerAlone Race.noon) .accepting =
          (correction .default Race.request).program.within (Store.answerAlone Race.noon) .broken := by
  obtain ⟨response, hp, hattempts, hstarved⟩ : ∃ response,
      Outage.errand.progress = .running (.done (.corrected (.ok response))) ∧ response.attempts = 4 ∧
        response.starvationDetected = true := ⟨_, rfl, rfl, rfl⟩
  have he := (Errand.inv_start .nil).run Race.ofIntents_payment Outage.run_errand
  obtain ⟨haudits, hsink⟩ := program_audited (correction .default Race.request)
  obtain ⟨e, hevents, hreports⟩ := haudits _ _ (he.sound.leads (.done _) (by rw [hp]; rfl))
  refine ⟨response, e, hp, hevents, ?_, ?_, hsink _ _ _⟩
  · rw [hreports.severity, ReevaluationResponse.severity, hstarved]
    rfl
  · rw [← hattempts]
    exact hreports.details ("attempts", .ofNat response.attempts) (by simp [ReevaluationResponse.details])

end Job

end IntentCorrection
