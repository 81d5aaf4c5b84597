import IntentCorrection.Proofs.Reevaluation.Conclusion
import IntentCorrection.Proofs.Reevaluation.Endings
import IntentCorrection.Proofs.Reevaluation.Handles

namespace IntentCorrection

open Reevaluation Program

/-- The answer may take time. To let a handle go, to look at the clock and to send an event takes none. -/
def Call.mayWait : Call → Bool
  | .get _ | .swap .. | .lock .. | .commit _ | .abort _ | .pause .. => true
  | .drop _ | .now | .emit _ => false

theorem Call.event?_of_mayWait {c : Call} (h : c.mayWait = true) : c.event? = none := by
  cases c with
  | drop _ | now | emit _ => cases h
  | _ => rfl

variable {log : Log} {config : Config} {r : ReevaluationRequest} {x : Exchange}

namespace Log

structure Quiet (log : Log) : Prop where
  writes : log.writes = []
  events : log.events = []

structure Idle (log : Log) : Prop extends Quiet log where
  held : log.held = none

def Waits (log : Log) : Call → Prop
  | .get _ | .swap .. | .lock .. | .pause .. => log.Idle
  | .commit _ | .abort _ => log.Quiet
  | .drop _ | .now | .emit _ => True

theorem Quiet.concat (h : log.Quiet) (hl : x.landed? = none) (he : x.call.event? = none) : Quiet (log ++ [x]) :=
  ⟨writes_quiet h.writes hl, events_silent h.events he⟩

theorem Quiet.idle (h : log.Quiet) (hl : x.landed? = none) (he : x.call.event? = none)
    (hh : ∀ held, x.hands held = none) : Idle (log ++ [x]) :=
  ⟨h.concat hl he, by simp [hh]⟩

theorem Idle.concat (h : log.Idle) (hl : x.landed? = none) (he : x.call.event? = none) (hh : x.hands none = none) :
    Idle (log ++ [x]) := ⟨h.toQuiet.concat hl he, by simp [h.held, hh]⟩

theorem idle_nil : Idle [] := ⟨⟨rfl, rfl⟩, rfl⟩

theorem Waits.quiet {c : Call} (h : log.Waits c) (hc : c.mayWait = true) : log.Quiet := by
  cases c with
  | get _ | swap _ _ _ _ | lock _ _ | pause _ _ => exact h.toQuiet
  | commit _ | abort _ => exact h
  | drop _ | now | emit _ => cases hc

end Log

/-- Whatever the answers are, the program waits with a quiet log only. -/
def Program.Patient {α : Type} (ends : Log → α → Prop) (p : Program α) (log : Log) : Prop :=
  p.Obeys (fun _ ↦ True) Log.Waits ends log

namespace Reevaluation

theorem permits_waits : Permits Log.Waits := ⟨fun _ ↦ trivial, fun _ _ ↦ trivial⟩

def Undone {α : Type} (log : Log) (result : Except ReevaluationError α) : Prop := ∀ e, result = .error e → log.Idle

theorem undone_ok {α : Type} (a : α) : Undone log (.ok a : Except ReevaluationError α) := by
  intro e heq
  cases heq

/-- A failed attempt has done nothing; one that went well is not followed by any wait. -/
theorem lockRules_undone :
    LockRules (fun _ ↦ True) Log.Waits Log.Idle (fun _ log ↦ log.Quiet) Undone r.intentKey config.lockTimeout
      (judgeRequest r) where
  lock _ h := h
  missed _ _ h _ _ := h.concat rfl rfl rfl
  clock _ := trivial
  opened _ _ _ h _ := (h.toQuiet.concat rfl rfl).concat rfl rfl
  refused _ _ _ _ h _ := ⟨trivial, fun _ _ ↦ h.idle rfl rfl fun _ ↦ rfl⟩
  kept _ _ _ a h _ := ⟨h, fun _ _ _ ↦ h.idle rfl rfl fun _ ↦ rfl, fun _ ↦ undone_ok a⟩
  replaced _ _ _ _ a h _ := ⟨h, fun _ _ _ ↦ h.idle rfl rfl fun _ ↦ rfl, fun stored _ ↦ undone_ok (a stored)⟩

theorem retries_undone (h : log.Idle) :
    (retryOnDeadlock config.backoff config.deadlockRetries "reevaluate" fun _ ↦ applyLocked config r).Patient
      Undone log := by
  have hpause : ∀ (log : Log) (n : Nat), log.Idle →
      log.Waits (.pause config.backoff n) ∧ Log.Idle (log ++ [⟨.pause config.backoff n, ()⟩]) :=
    fun _ _ hidle ↦ ⟨hidle, hidle.concat rfl rfl rfl⟩
  apply retryOnDeadlock_obeys hpause _ _ h
  · intro log e hend _
    have hidle := hend e rfl
    exact ⟨hidle, fun _ _ ↦ hidle, fun _ _ ↦ hidle⟩
  · intro _ log hidle
    rw [applyLocked_eq]
    exact lockRules_undone.obeys hidle

/-- The event comes last, so it does not matter what was done before. -/
theorem settle_patient (i : Intent) (record : CorrectionRecord) (alreadyApplied : Bool) (attempts : Nat)
    (severity : Severity) (log : Log) :
    (settle i record r alreadyApplied attempts severity).Patient (fun _ _ ↦ True) log :=
  settle_obeys permits_waits fun _ _ ↦ trivial

theorem fallbackRules_patient {attempts : Nat} {correlationId : Option Uuid} :
    FallbackRules (fun _ ↦ True) Log.Waits Undone (fun _ _ ↦ True) (fun _ _ ↦ True) r attempts correlationId where
  permits := permits_waits
  settled _ _ _ _ _ := trivial
  passed _ _ _ _ := trivial
  known _ _ _ _ := trivial
  read _ e _ h _ _ := ⟨h e rfl, trivial⟩
  failed _ _ _ _ _ _ := trivial

/-- A lost swap has done nothing, and a swap that was won ends it all. -/
theorem attemptRules_patient :
    AttemptRules (fun _ ↦ True) Log.Waits (fun _ _ _ log ↦ log.Idle) (fun _ _ _ log ↦ log.Idle)
      (fun _ _ _ log ↦ log.Idle) (fun _ _ ↦ True) config r where
  permits := permits_waits
  read _ _ _ _ h := h
  missing _ _ _ _ _ _ := trivial
  shown _ _ _ _ _ _ h _ := (h.concat rfl rfl rfl).concat rfl rfl rfl
  refused _ _ _ _ _ _ _ _ := trivial
  found _ _ _ _ _ _ _ _ := settle_patient _ _ _ _ _ _
  swap _ _ _ _ _ _ _ h _ := h
  failed _ _ _ _ _ _ _ _ _ _ := trivial
  won _ _ _ _ _ _ _ _ _ := settle_patient _ _ _ _ _ _
  lose _ _ _ _ _ _ _ h _ := h.concat rfl rfl rfl
  again _ _ _ h := h
  paused _ _ _ _ h := ⟨h, h.concat rfl rfl rfl⟩
  undrawn _ _ _ _ _ _ := trivial
  fallback _ _ _ h _ := fallbackRules_patient.obeys (retries_undone h)
  overflow _ _ _ _ _ := trivial

theorem reevaluate_patient : (reevaluate config r).Patient (fun _ _ ↦ True) [] := by
  unfold reevaluate
  split
  · trivial
  · exact attemptRules_patient.obeys Log.idle_nil

/-- The protocol knows of no deadline, so it never says that one was missed. -/
theorem reevaluate_undated :
    (reevaluate config r).Ends (fun _ result ↦ ∀ key limit, result ≠ .error (.deadlineExceeded key limit)) [] := by
  cases hcheck : checkRequest config r with
  | error e =>
    rw [reevaluate_of_refused hcheck]
    rintro key limit ⟨⟩
    unfold checkRequest at hcheck
    split at hcheck
    · cases hcheck
    · split at hcheck <;> cases hcheck
  | ok _ =>
    refine (reevaluate_ending hcheck).mono fun log result hend key limit hresult ↦ ?_
    cases hend with
    | settled _ _ | conflict _ _ | panicked _ => cases hresult
    | @refused _ _ e _ _ => cases e <;> cases hresult
    | @storage e _ => cases e <;> cases hresult

end Reevaluation

/-- The last call of a log, as it was when it had been made but not answered. -/
theorem Program.Leads.last {p q : Program Outcome} (h : p.Leads log q) (hx : log.getLast? = some x) :
    ∃ before next, log = before ++ [x] ∧ p.Leads before (.call x.call next) := by
  cases h with
  | nil => cases hx
  | @snoc before c next a h =>
    obtain rfl : ⟨c, a⟩ = x := by simpa using hx
    exact ⟨before, next, rfl, h⟩

namespace Job

variable {p : Program Outcome} {c : Call} {next : c.Answer → Program Outcome}

theorem correction_patient : (correction config r).program.Patient (fun _ _ ↦ True) [] :=
  Obeys.bind (Obeys.mono reevaluate_patient fun _ _ _ ↦ trivial)

theorem waits_of_leads (h : (correction config r).program.Leads log (.call c next)) : log.Waits c :=
  (h.obeys correction_patient fun _ _ ↦ trivial).1

/-- A call that wrote nothing may have taken its time afterwards too. -/
theorem quiet_of_waited (h : (correction config r).program.Leads log p) (hx : log.getLast? = some x)
    (hc : x.call.mayWait = true) (hl : x.landed? = none) : log.Quiet := by
  obtain ⟨before, next, rfl, hbefore⟩ := h.last hx
  exact ((waits_of_leads hbefore).quiet hc).concat hl (Call.event?_of_mayWait hc)

theorem undated_of_leads {result : Except ReevaluationError ReevaluationResponse}
    (h : (correction config r).program.Leads log (.done (.corrected result))) (key : String) (limit : Duration) :
    result ≠ .error (.deadlineExceeded key limit) := by
  have hends : (correction config r).program.Ends
      (fun _ outcome ↦ ∀ key limit, outcome ≠ .corrected (.error (.deadlineExceeded key limit))) [] :=
    .bind (reevaluate_undated.mono fun _ result hresult key limit houtcome ↦
      hresult key limit (Outcome.corrected.inj houtcome))
  exact fun hresult ↦ h.ended hends key limit (congrArg Outcome.corrected hresult)

end Job

end IntentCorrection
