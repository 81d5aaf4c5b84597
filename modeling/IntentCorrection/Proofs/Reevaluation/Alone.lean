import IntentCorrection.Proofs.Reevaluation.Rules
import IntentCorrection.Proofs.Store.Contents
import IntentCorrection.Reevaluation.Solo

namespace IntentCorrection

namespace Program

variable {α β : Type} {date : Timestamp} {s : Store}

@[simp] theorem runAlone_done (a : α) (date : Timestamp) (s : Store) : (Program.done a).runAlone date s = (a, s) :=
  rfl

@[simp] theorem runAlone_call (c : Call) (next : c.Answer → Program α) (date : Timestamp) (s : Store) :
    (Program.call c next).runAlone date s =
      (next (Store.answerAlone date c s).1).runAlone date (Store.answerAlone date c s).2 := rfl

theorem runAlone_bind (p : Program α) (f : α → Program β) (date : Timestamp) (s : Store) :
    (p >>= f).runAlone date s = (f (p.runAlone date s).1).runAlone date (p.runAlone date s).2 := by
  induction p generalizing s with
  | done a => rfl
  | call c next ih => exact ih _ _

def eventsAlone : Program α → Timestamp → Store → List AuditEvent
  | .done _, _, _ => []
  | .call c next, date, s =>
    c.event?.toList ++ (next (Store.answerAlone date c s).1).eventsAlone date (Store.answerAlone date c s).2

@[simp] theorem eventsAlone_done (a : α) (date : Timestamp) (s : Store) : (Program.done a).eventsAlone date s = [] :=
  rfl

@[simp] theorem eventsAlone_call (c : Call) (next : c.Answer → Program α) (date : Timestamp) (s : Store) :
    (Program.call c next).eventsAlone date s = c.event?.toList ++
      (next (Store.answerAlone date c s).1).eventsAlone date (Store.answerAlone date c s).2 := rfl

theorem eventsAlone_bind (p : Program α) (f : α → Program β) (date : Timestamp) (s : Store) :
    (p >>= f).eventsAlone date s =
      p.eventsAlone date s ++ (f (p.runAlone date s).1).eventsAlone date (p.runAlone date s).2 := by
  induction p generalizing s with
  | done a => rfl
  | call c next ih =>
    rw [call_bind, eventsAlone_call, eventsAlone_call, ih, List.append_assoc]
    rfl

end Program

namespace LockRegistry

variable {r : LockRegistry} {key : String}

theorem holder_slotFor (h : r.isLocked key = false) :
    (((r.slotFor key).2.slots.get? (r.slotFor key).1).getD ⟨none, []⟩).holder = none := by
  unfold slotFor
  cases hkey : r.registered.get? key with
  | none => simp [Entries.get?_insert]
  | some id =>
    simp only [isLocked, hkey, Option.bind_some] at h
    cases hslot : r.slots.get? id with
    | none => simp
    | some slot => simpa [hslot] using h

theorem phase?_begin (h : r.isLocked key = false) : (r.begin key).2.phase? (r.begin key).1 = some .holding := by
  have hfree := holder_slotFor h
  unfold begin
  simp only [hfree, Option.isNone_none, if_true, phase?, Entries.get?_insert, Option.map_some]

end LockRegistry

namespace Store

variable {s : Store} {key : String} {i : Intent}

theorem lockAlone_eq (h : s.locks.isLocked key = false) (timeout : Duration) :
    s.lockAlone key timeout = (s.beginLock key).2.openLocked (s.beginLock key).1 key := by
  have hphase := LockRegistry.phase?_begin h
  unfold lockAlone
  exact if_pos hphase

theorem SameContents.get {s' : Store} (h : s.SameContents s') (key : String) : s'.get key = s.get key := by
  rw [Store.get, Store.get, h.1]

theorem lockAlone_error {e : StorageError} (h : s.locks.isLocked key = false) (hget : s.get key = .error e)
    (timeout : Duration) : ∃ s', s.lockAlone key timeout = (.error e, s') ∧ s.SameContents s' ∧
      s'.locks = (s.locks.begin key).2.release (s.locks.begin key).1 := by
  have hbegin := s.sameContents_beginLock key
  refine ⟨(s.beginLock key).2.release (s.beginLock key).1, ?_, hbegin, rfl⟩
  rw [lockAlone_eq h, openLocked, hbegin.get, hget]

theorem lockAlone_ok (h : s.locks.isLocked key = false) (hget : s.get key = .ok i) (timeout : Duration) :
    ∃ s', s.lockAlone key timeout = (.ok ⟨(s.locks.begin key).1, i, i.version, i.history.length, false⟩, s') ∧
      s.SameContents s' ∧ s'.locks = (s.locks.begin key).2 := by
  have hbegin := s.sameContents_beginLock key
  refine ⟨(s.beginLock key).2, ?_, hbegin, rfl⟩
  rw [lockAlone_eq h, openLocked, hbegin.get, hget]
  rfl

/-- Nothing has changed since the handle was opened, so its replacement is written. -/
theorem commit_replace {s' : Store} (hs : s.SameContents s') {next : Intent} (hget : s.get next.key = .ok i)
    (t : Ticket) :
    ∃ s'', s'.commit (LockedIntent.replace ⟨t, i, i.version, i.history.length, false⟩ next) = (.ok next, s'') ∧
      (s.write next (s.log next.key ++ next.history.drop i.history.length)).SameContents s'' ∧
      s''.locks = s'.locks.release t := by
  refine ⟨(s'.write next (s'.log next.key ++ next.history.drop i.history.length)).release t, ?_, ?_, rfl⟩
  · simp [commit, LockedIntent.replace, hs.get, hget]
  · rw [hs.log]
    simp [SameContents, write, release, hs.1, hs.2]

theorem compareAndSwap_won (hfree : s.locks.isLocked key = false) {next : Intent} (hkey : next.key = key)
    (hget : s.get key = .ok i) (record : CorrectionRecord) :
    s.compareAndSwap key next record i.version = (.ok true, s.write next (s.log key ++ [record])) := by
  simp [compareAndSwap, hkey, hfree, hget]

end Store

namespace Reevaluation

variable {r : ReevaluationRequest} {date : Timestamp} {s : Store}

section

variable {α : Type} {key : String} {judge : Intent → Timestamp → Except CorrectionError (Verdict α)}

/-- What comes of an attempt under a lock that is free. -/
inductive Resolves (key : String) (judge : Intent → Timestamp → Except CorrectionError (Verdict α)) (date : Timestamp)
    (s : Store) : Except ReevaluationError α → Store → Prop
  | missing {e : StorageError} {s' : Store} : s.get key = .error e → s.SameContents s' →
      Resolves key judge date s (.error (.ofStorage e)) s'
  | refused {i : Intent} {e : CorrectionError} {s' : Store} : s.get key = .ok i → judge i date = .error e →
      s.SameContents s' → Resolves key judge date s (.error (.ofCorrection e)) s'
  | kept {i : Intent} {a : α} {s' : Store} : s.get key = .ok i → judge i date = .ok (.keep a) → s.SameContents s' →
      Resolves key judge date s (.ok a) s'
  | replaced {i next : Intent} {a : Intent → α} {s' : Store} : s.get key = .ok i →
      judge i date = .ok (.replace next a) →
      (s.write next (s.log key ++ next.history.drop i.history.length)).SameContents s' →
      Resolves key judge date s (.ok (a next)) s'

/-- Each exit gives the ticket back: without an intent, by a drop, an abort or a commit. -/
theorem underLock_resolves (timeout : Duration) (hkeyed : s.Keyed) (hfree : s.locks.isLocked key = false)
    (hjudge : ∀ i now next a, judge i now = .ok (.replace next a) → next.key = i.key) :
    ∃ x s', (underLock key timeout judge).runAlone date s = (x, s') ∧ Resolves key judge date s x s' ∧
      s'.locks = (s.locks.begin key).2.release (s.locks.begin key).1 := by
  unfold underLock
  cases hget : s.get key with
  | error e =>
    obtain ⟨s', hlock, hs', hlocks⟩ := Store.lockAlone_error hfree hget timeout
    have hanswer : Store.answerAlone date (.lock key timeout) s = (.error e, s') := hlock
    rw [Program.ask_bind, Program.runAlone_call, hanswer]
    exact ⟨_, s', rfl, .missing hget hs', hlocks⟩
  | ok i =>
    obtain ⟨s', hlock, hs', hlocks⟩ := Store.lockAlone_ok hfree hget timeout
    have hanswer : Store.answerAlone date (.lock key timeout) s =
        (.ok ⟨(s.locks.begin key).1, i, i.version, i.history.length, false⟩, s') := hlock
    have hnow : ∀ s, Store.answerAlone date .now s = (date, s) := fun _ ↦ rfl
    have hreleased : s'.locks.release (s.locks.begin key).1 = (s.locks.begin key).2.release (s.locks.begin key).1 := by
      rw [hlocks]
    rw [Program.ask_bind, Program.runAlone_call, hanswer]
    simp only [Program.ask_bind, Program.runAlone_call, hnow]
    cases hverdict : judge i date with
    | error e => exact ⟨_, _, rfl, .refused hget hverdict hs', hreleased⟩
    | ok verdict =>
      cases verdict with
      | keep a => exact ⟨_, _, rfl, .kept hget hverdict hs', hreleased⟩
      | replace next a =>
        have hkey : next.key = key := (hjudge i date next a hverdict).trans (hkeyed _ _ (Store.get_eq_ok.1 hget))
        have hget' : s.get next.key = .ok i := by rw [hkey, hget]
        -- Nobody writes between the lock and the commit.
        obtain ⟨s'', hcommit, hs'', hlocks'⟩ := Store.commit_replace hs' hget' (s.locks.begin key).1
        have hanswer : Store.answerAlone date (.commit (LockedIntent.replace
            ⟨(s.locks.begin key).1, i, i.version, i.history.length, false⟩ next)) s' = (.ok next, s'') := hcommit
        rw [hkey] at hs''
        simp only [Program.runAlone_call, hanswer]
        exact ⟨_, s'', rfl, .replaced hget hverdict hs'', hlocks'.trans hreleased⟩

end

/-- What comes of a request on a store: it is refused, or its correction is found, or the next version is written. -/
inductive Decides (r : ReevaluationRequest) (date : Timestamp) (s : Store) :
    Except ReevaluationError Settled → Store → Prop
  | missing {e : StorageError} {s' : Store} : s.get r.intentKey = .error e → s.SameContents s' →
      Decides r date s (.error (.ofStorage e)) s'
  | refused {i : Intent} {e : CorrectionError} {s' : Store} : s.get r.intentKey = .ok i →
      correct i r date = .error e → s.SameContents s' → Decides r date s (.error (.ofCorrection e)) s'
  | found {i : Intent} {record : CorrectionRecord} {s' : Store} : s.get r.intentKey = .ok i →
      correct i r date = .ok (.alreadyApplied record) → s.SameContents s' →
      Decides r date s (.ok ⟨i, record, true⟩) s'
  | applied {i next : Intent} {record : CorrectionRecord} {s' : Store} : s.get r.intentKey = .ok i →
      correct i r date = .ok (.applied next record) →
      (s.write next (s.log r.intentKey ++ [record])).SameContents s' →
      Decides r date s (.ok ⟨next, record, false⟩) s'

theorem isDeadlock_ofCorrection (e : CorrectionError) : (ReevaluationError.ofCorrection e).isDeadlock = false := by
  cases e <;> rfl

theorem Decides.not_deadlock {e : ReevaluationError} {s' : Store} (h : Decides r date s (.error e) s') :
    (e.isClientError || e.isPanic) = true ∧ e.isDeadlock = false := by
  cases h with
  | missing hget _ =>
    rw [Store.error_of_get hget]
    exact ⟨rfl, rfl⟩
  | @refused _ e _ _ _ _ => exact ⟨ReevaluationError.passed_ofCorrection e, isDeadlock_ofCorrection e⟩

theorem key_history_of_correct {i next : Intent} {record : CorrectionRecord}
    (h : correct i r date = .ok (.applied next record)) :
    next.key = i.key ∧ next.history = i.history ++ [record] := by
  obtain ⟨-, -, -, changes, payload, -, -, rfl⟩ := Intent.correct_applied h
  exact ⟨rfl, rfl⟩

theorem applyLocked_decides (config : Config) (hkeyed : s.Keyed) (hfree : s.locks.isLocked r.intentKey = false) :
    ∃ x s', (applyLocked config r).runAlone date s = (x, s') ∧ Decides r date s x s' ∧
      s'.locks = (s.locks.begin r.intentKey).2.release (s.locks.begin r.intentKey).1 := by
  have hjudge : ∀ i now next a, judgeRequest r i now = .ok (.replace next a) → next.key = i.key := by
    intro i now next a h
    obtain ⟨record, -, hc⟩ := judgeRequest_replace h
    exact (key_history_of_correct hc).1
  obtain ⟨x, s', hrun, hx, hlocks⟩ := underLock_resolves config.lockTimeout hkeyed hfree hjudge
  refine ⟨x, s', by rw [applyLocked_eq]; exact hrun, ?_, hlocks⟩
  cases hx with
  | missing hget hs => exact .missing hget hs
  | refused hget h hs => exact .refused hget (judgeRequest_error h) hs
  | kept hget h hs =>
    obtain ⟨record, rfl, hc⟩ := judgeRequest_keep h
    exact .found hget hc hs
  | replaced hget h hs =>
    obtain ⟨record, rfl, hc⟩ := judgeRequest_replace h
    rw [(key_history_of_correct hc).2, List.drop_left] at hs
    exact .applied hget hc hs

theorem retryFrom_alone {α : Type} {policy : BackoffPolicy} {operation last : String} {limit left attempt : Nat}
    {run : Nat → Program (Except ReevaluationError α)}
    (h : ∀ e, ((run attempt).runAlone date s).1 = .error e → e.isDeadlock = false) :
    (retryFrom policy operation limit run (left + 1) attempt last).runAlone date s =
      (run attempt).runAlone date s := by
  rw [retryFrom, Program.runAlone_bind]
  rcases hrun : (run attempt).runAlone date s with ⟨e | a, s'⟩
  · rw [hrun] at h
    dsimp only
    rw [h e rfl]
    rfl
  · rfl

theorem retryOnDeadlock_alone {α : Type} {policy : BackoffPolicy} {operation : String} {limit : Nat}
    {run : Nat → Program (Except ReevaluationError α)}
    (h : ∀ e, ((run 0).runAlone date s).1 = .error e → e.isDeadlock = false) :
    (retryOnDeadlock policy limit operation run).runAlone date s = (run 0).runAlone date s := by
  obtain ⟨left, hleft⟩ : ∃ left, max limit 1 = left + 1 := ⟨max limit 1 - 1, by omega⟩
  rw [retryOnDeadlock, hleft]
  exact retryFrom_alone h

def answer (attempts : Nat) (starved : Bool) (x : Except ReevaluationError Settled) :
    Except ReevaluationError ReevaluationResponse :=
  x.map fun x ↦ .of x.intent x.record x.alreadyApplied attempts starved

def settledEvents (r : ReevaluationRequest) (date : Timestamp) (attempts : Nat) (starved : Bool) (severity : Severity) :
    Except ReevaluationError Settled → List AuditEvent
  | .error _ => []
  | .ok x => [settledEvent x.intent r (.of x.intent x.record x.alreadyApplied attempts starved) severity date]

theorem retries_decide (config : Config) (hkeyed : s.Keyed) (hfree : s.locks.isLocked r.intentKey = false) :
    ∃ x s', (retryOnDeadlock config.backoff config.deadlockRetries "reevaluate"
        fun _ ↦ applyLocked config r).runAlone date s = (x, s') ∧ Decides r date s x s' ∧
      s'.locks = (s.locks.begin r.intentKey).2.release (s.locks.begin r.intentKey).1 := by
  obtain ⟨x, s', hrun, hx, hlocks⟩ : ∃ x s', (applyLocked config r).runAlone date s = (x, s') ∧
      Decides r date s x s' ∧ _ := applyLocked_decides config hkeyed hfree
  refine ⟨x, s', (retryOnDeadlock_alone fun e he ↦ ?_).trans hrun, hx, hlocks⟩
  obtain rfl : x = .error e := by rw [← he, hrun]
  exact hx.not_deadlock.2

section

variable {config : Config} {x : Except ReevaluationError Settled} {s' : Store}

theorem fallback_alone (hretries : (retryOnDeadlock config.backoff config.deadlockRetries "reevaluate"
      fun _ ↦ applyLocked config r).runAlone date s = (x, s')) (hx : Decides r date s x s')
    (attempts : Nat) (correlationId : Option Uuid) :
    (fallback config r attempts correlationId).runAlone date s = (answer attempts true x, s') := by
  rw [fallback, Program.runAlone_bind, hretries]
  cases x with
  | error e =>
    dsimp only
    rw [hx.not_deadlock.1]
    rfl
  | ok settled => rfl

end

theorem settle_alone (i : Intent) (record : CorrectionRecord) (alreadyApplied : Bool) (attempts : Nat)
    (severity : Severity) (s : Store) :
    (settle i record r alreadyApplied attempts severity).runAlone date s =
      (answer attempts false (.ok ⟨i, record, alreadyApplied⟩), s) := rfl

/-- The first optimistic attempt settles the request, since its swap cannot be lost to anyone, and takes no lock. -/
theorem attempt_decides (config : Config) (hkeyed : s.Keyed) (hfree : s.locks.isLocked r.intentKey = false)
    (left made : Nat) (correlationId : Option Uuid) :
    ∃ x s', Decides r date s x s' ∧ s'.locks = s.locks ∧
      (attemptFrom config r (left + 1) made correlationId).runAlone date s = (answer (made + 1) false x, s') ∧
      ∃ severity, (attemptFrom config r (left + 1) made correlationId).eventsAlone date s =
        settledEvents r date (made + 1) false severity x := by
  have hread : Store.answerAlone date (.get r.intentKey) s = (s.get r.intentKey, s) := rfl
  have hnow : ∀ s, Store.answerAlone date .now s = (date, s) := fun _ ↦ rfl
  rw [attemptFrom]
  simp only [Program.ask_bind, Program.runAlone_call, Program.eventsAlone_call, hread]
  cases hget : s.get r.intentKey with
  | error e => exact ⟨_, _, .missing hget .rfl, rfl, rfl, .info, rfl⟩
  | ok i =>
    simp only [Program.runAlone_call, Program.eventsAlone_call, hnow]
    cases hc : correct i r date with
    | error e => exact ⟨_, _, .refused hget hc .rfl, rfl, rfl, .info, rfl⟩
    | ok outcome =>
      cases outcome with
      | alreadyApplied record =>
        exact ⟨_, _, .found hget hc .rfl, rfl, settle_alone i record true _ _ s, .debug, rfl⟩
      | applied next record =>
        obtain ⟨hkey, -⟩ := key_history_of_correct hc
        have hik := hkeyed _ _ (Store.get_eq_ok.1 hget)
        have hswap : Store.answerAlone date (.swap r.intentKey next record i.version) s =
            (.ok true, s.write next (s.log r.intentKey ++ [record])) :=
          Store.compareAndSwap_won hfree (hkey.trans hik) hget record
        simp only [Program.runAlone_call, Program.eventsAlone_call, hswap]
        exact ⟨_, _, .applied hget hc .rfl, rfl, settle_alone next record false _ _ _, .info, rfl⟩

/-- On a store of its own, a request whose key is not locked is decided by the intent that is stored. -/
theorem reevaluate_decides (config : Config) (hkeyed : s.Keyed) (hfree : s.locks.isLocked r.intentKey = false)
    (hcheck : checkRequest config r = .ok ()) :
    ∃ x s', Decides r date s x s' ∧ ∃ attempts starved,
      (reevaluate config r).runAlone date s = (answer attempts starved x, s') := by
  rw [reevaluate_of_admitted hcheck]
  cases config.maxRetries with
  | zero =>
    obtain ⟨x, s', hretries, hx, -⟩ := retries_decide config hkeyed hfree
    exact ⟨x, s', hx, 1, true, fallback_alone hretries hx 1 none⟩
  | succ left =>
    obtain ⟨x, s', hx, -, hrun, -⟩ := attempt_decides config hkeyed hfree left 0 none
    exact ⟨x, s', hx, 1, false, hrun⟩

variable {key : String} {requested : Status}

/-- What comes of a change of status: it is refused, or the intent has the status, or the next version is written. -/
inductive Shifts (key : String) (requested : Status) (date : Timestamp) (s : Store) :
    Except ReevaluationError (Intent × Status) → Store → Prop
  | missing {e : StorageError} {s' : Store} : s.get key = .error e → s.SameContents s' →
      Shifts key requested date s (.error (.ofStorage e)) s'
  | refused {i : Intent} {e : CorrectionError} {s' : Store} : s.get key = .ok i →
      i.transition requested date = .error e → s.SameContents s' →
      Shifts key requested date s (.error (.ofCorrection e)) s'
  | kept {i : Intent} {s' : Store} : s.get key = .ok i → i.status = requested → s.SameContents s' →
      Shifts key requested date s (.ok (i, i.status)) s'
  | moved {i next : Intent} {s' : Store} : s.get key = .ok i → i.transition requested date = .ok next →
      i.status ≠ next.status → (s.write next (s.log key)).SameContents s' →
      Shifts key requested date s (.ok (next, i.status)) s'

theorem Shifts.not_deadlock {e : ReevaluationError} {s' : Store} (h : Shifts key requested date s (.error e) s') :
    e.isDeadlock = false := by
  cases h with
  | missing hget _ =>
    rw [Store.error_of_get hget]
    rfl
  | @refused _ e _ _ _ _ => exact isDeadlock_ofCorrection e

theorem transitionLocked_shifts (config : Config) (hkeyed : s.Keyed) (hfree : s.locks.isLocked key = false) :
    ∃ x s', (transitionLocked config key requested).runAlone date s = (x, s') ∧ Shifts key requested date s x s' := by
  have hjudge : ∀ i now next a, judgeStatus requested i now = .ok (.replace next a) → next.key = i.key := by
    intro i now next a h
    obtain ⟨-, -, ht⟩ := judgeStatus_replace h
    obtain ⟨-, ⟨-, rfl⟩ | ⟨-, rfl⟩⟩ := Intent.transition_ok ht
    · rfl
    · rfl
  obtain ⟨x, s', hrun, hx, -⟩ := underLock_resolves config.lockTimeout hkeyed hfree hjudge
  refine ⟨x, s', by rw [transitionLocked_eq]; exact hrun, ?_⟩
  cases hx with
  | missing hget hs => exact .missing hget hs
  | refused hget h hs => exact .refused hget (judgeStatus_error h) hs
  | kept hget h hs =>
    obtain ⟨rfl, hstatus⟩ := judgeStatus_keep h
    exact .kept hget hstatus hs
  | replaced hget h hs =>
    obtain ⟨rfl, hstatus, ht⟩ := judgeStatus_replace h
    obtain ⟨-, ⟨he, -⟩ | ⟨-, hnext⟩⟩ := Intent.transition_ok ht
    · exact absurd he hstatus
    · have hhistory : _ = _ := congrArg Intent.history hnext
      rw [hhistory, List.drop_length, List.append_nil] at hs
      refine .moved hget ht ?_ hs
      rw [hnext]
      exact hstatus

theorem updateStatus_shifts (config : Config) (hkeyed : s.Keyed) (hfree : s.locks.isLocked key = false) :
    ∃ x s', Shifts key requested date s x s' ∧
      (updateStatus config key requested).runAlone date s = (x.map Prod.fst, s') := by
  obtain ⟨x, s', hrun, hx⟩ : ∃ x s', (transitionLocked config key requested).runAlone date s = (x, s') ∧
      Shifts key requested date s x s' := transitionLocked_shifts config hkeyed hfree
  have hretry : (retryOnDeadlock config.backoff config.deadlockRetries "update_status"
      fun _ ↦ transitionLocked config key requested).runAlone date s = (x, s') := by
    refine (retryOnDeadlock_alone fun e he ↦ ?_).trans hrun
    obtain rfl : x = .error e := by rw [← he, hrun]
    exact hx.not_deadlock
  refine ⟨x, s', hx, ?_⟩
  rw [updateStatus, Program.runAlone_bind, hretry]
  cases x with
  | error e => rfl
  | ok result =>
    obtain ⟨i, previous⟩ := result
    dsimp only
    split <;> rfl

end Reevaluation

end IntentCorrection
