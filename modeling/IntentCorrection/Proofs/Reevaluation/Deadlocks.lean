import IntentCorrection.Proofs.Concurrency.Schedule

namespace IntentCorrection

open Program

variable {α : Type}

/-- Ended in a deadlock that the store reports, as opposed to one that has been retried already. -/
def Deadlocked (result : Except ReevaluationError α) : Prop :=
  ∃ key detail, result = .error (.storage (.deadlock key detail))

theorem deadlocked_error {e : ReevaluationError} :
    Deadlocked (.error e : Except ReevaluationError α) ↔ e.isDeadlock = true := by
  constructor
  · rintro ⟨key, detail, ⟨⟩⟩
    rfl
  · intro he
    cases e with
    | storage e =>
      cases e with
      | deadlock key detail => exact ⟨key, detail, rfl⟩
      | _ => cases he
    | _ => cases he

section

variable (answers : Log → (c : Call) → c.Answer) (policy : BackoffPolicy)
  (run : Nat → Program (Except ReevaluationError α)) (log : Log)

/-- The log after the attempt of that number, from zero, and what it ended with, if all attempts before it were made
and each was followed by its pause. -/
def nthAttempt : Nat → Log × Except ReevaluationError α
  | 0 => (run 0).answered answers log
  | n + 1 => (run (n + 1)).answered answers ((nthAttempt n).1 ++ [⟨.pause policy n, ()⟩])

def beforeAttempt : Nat → Log
  | 0 => log
  | n + 1 => (nthAttempt answers policy run log n).1 ++ [⟨.pause policy n, ()⟩]

theorem nthAttempt_eq (n : Nat) :
    nthAttempt answers policy run log n = (run n).answered answers (beforeAttempt answers policy run log n) := by
  cases n <;> rfl

end

section

variable {answers : Log → (c : Call) → c.Answer} {policy : BackoffPolicy}
  {run : Nat → Program (Except ReevaluationError α)} {log : Log} {operation lastError : String}
  {limit left n j : Nat} {e : ReevaluationError}

theorem answered_retryFrom_other (h : ¬Deadlocked (nthAttempt answers policy run log n).2) :
    (retryFrom policy operation limit run (left + 1) n lastError).answered answers
      (beforeAttempt answers policy run log n) = nthAttempt answers policy run log n := by
  rw [nthAttempt_eq] at h ⊢
  rw [retryFrom, answered_bind]
  generalize (run n).answered answers (beforeAttempt answers policy run log n) = x at h ⊢
  obtain ⟨after, result⟩ := x
  cases result with
  | ok a => rfl
  | error e =>
    have he : ¬e.isDeadlock = true := fun he ↦ h (deadlocked_error.2 he)
    dsimp only
    rw [if_neg he]
    rfl

theorem answered_retryFrom_last (h : (nthAttempt answers policy run log n).2 = .error e) (he : e.isDeadlock = true) :
    (retryFrom policy operation limit run 1 n lastError).answered answers (beforeAttempt answers policy run log n) =
      ((nthAttempt answers policy run log n).1, .error (.deadlock operation limit e.message)) := by
  rw [nthAttempt_eq] at h ⊢
  rw [retryFrom, answered_bind, h]
  dsimp only
  rw [if_pos he]
  rfl

theorem answered_retryFrom_again (h : (nthAttempt answers policy run log n).2 = .error e) (he : e.isDeadlock = true)
    (hdraw : policy.Drawable) :
    (retryFrom policy operation limit run (left + 2) n lastError).answered answers
        (beforeAttempt answers policy run log n) =
      (retryFrom policy operation limit run (left + 1) (n + 1) e.message).answered answers
        (beforeAttempt answers policy run log (n + 1)) := by
  rw [beforeAttempt, nthAttempt_eq]
  rw [nthAttempt_eq] at h
  rw [retryFrom, answered_bind, h]
  dsimp only
  rw [if_pos he, afterPause, if_neg left.succ_ne_zero, if_pos hdraw]
  rfl

theorem answered_retryFrom_undrawn (h : (nthAttempt answers policy run log n).2 = .error e) (he : e.isDeadlock = true)
    (hdraw : ¬policy.Drawable) :
    (retryFrom policy operation limit run (left + 2) n lastError).answered answers
        (beforeAttempt answers policy run log n) =
      ((nthAttempt answers policy run log n).1, .error (.panicked .draw)) := by
  rw [nthAttempt_eq] at h ⊢
  rw [retryFrom, answered_bind, h]
  dsimp only
  rw [if_pos he, afterPause, if_neg left.succ_ne_zero, if_neg hdraw]
  rfl

theorem answered_retryFrom_reach (hj : j < limit) (hdraw : j ≠ 0 → policy.Drawable)
    (h : ∀ k < j, Deadlocked (nthAttempt answers policy run log k).2) :
    ∃ left lastError, j + (left + 1) = limit ∧
      (retryFrom policy operation limit run limit 0 "").answered answers log =
        (retryFrom policy operation limit run (left + 1) j lastError).answered answers
          (beforeAttempt answers policy run log j) := by
  induction j with
  | zero =>
    obtain ⟨left, rfl⟩ : ∃ left, limit = left + 1 := ⟨limit - 1, by omega⟩
    exact ⟨left, "", by omega, rfl⟩
  | succ j ih =>
    have hdrawable := hdraw j.succ_ne_zero
    obtain ⟨left, lastError, hlimit, hsame⟩ := ih (by omega) (fun _ ↦ hdrawable) fun k hk ↦ h k (by omega)
    obtain ⟨left, rfl⟩ : ∃ left', left = left' + 1 := ⟨left - 1, by omega⟩
    obtain ⟨key, detail, he⟩ := h j (Nat.lt_succ_self j)
    exact ⟨left, _, by omega, hsame.trans (answered_retryFrom_again he rfl hdrawable)⟩

/-- The first pause is the end if no delay can be drawn for it. -/
theorem answered_retryOnDeadlock_undrawn (hlimit : 1 < limit) (hdraw : ¬policy.Drawable)
    (h : Deadlocked (nthAttempt answers policy run log 0).2) :
    (retryOnDeadlock policy limit operation run).answered answers log =
      ((nthAttempt answers policy run log 0).1, .error (.panicked .draw)) := by
  obtain ⟨key, detail, he⟩ := h
  obtain ⟨left, hleft⟩ : ∃ left, max limit 1 = left + 2 := ⟨max limit 1 - 2, by omega⟩
  unfold retryOnDeadlock
  rw [hleft]
  exact answered_retryFrom_undrawn he rfl hdraw

theorem answered_retryOnDeadlock_first (hj : j < max limit 1) (hdraw : j ≠ 0 → policy.Drawable)
    (h : ∀ k < j, Deadlocked (nthAttempt answers policy run log k).2)
    (hother : ¬Deadlocked (nthAttempt answers policy run log j).2) :
    (retryOnDeadlock policy limit operation run).answered answers log = nthAttempt answers policy run log j := by
  obtain ⟨left, lastError, -, hsame⟩ := answered_retryFrom_reach hj hdraw h
  exact hsame.trans (answered_retryFrom_other hother)

theorem answered_retryOnDeadlock_exhausted (hdraw : 1 < limit → policy.Drawable)
    (h : ∀ k < max limit 1, Deadlocked (nthAttempt answers policy run log k).2) :
    ∃ e, (nthAttempt answers policy run log (max limit 1 - 1)).2 = .error e ∧
      (retryOnDeadlock policy limit operation run).answered answers log =
        ((nthAttempt answers policy run log (max limit 1 - 1)).1,
          .error (.deadlock operation (max limit 1) e.message)) := by
  have hlast : max limit 1 - 1 < max limit 1 := by omega
  obtain ⟨key, detail, he⟩ := h _ hlast
  obtain ⟨left, lastError, hlimit, hsame⟩ :=
    answered_retryFrom_reach hlast (fun _ ↦ hdraw (by omega)) fun k hk ↦ h k (by omega)
  obtain rfl : left = 0 := by omega
  exact ⟨_, he, hsame.trans (answered_retryFrom_last he rfl)⟩

end

/-- Whatever the attempts end with: if there is one of the allowed number that does not end in a deadlock of the store,
the first of these is the last one made, and its result is given on, be it the deadlock of retries further in. If there
is none, all are made, no pause follows the last, and the result tells of its error. Where a pause is made at all, its
delay must be one that can be drawn. -/
theorem retryOnDeadlock_returns (answers : Log → (c : Call) → c.Answer) (policy : BackoffPolicy) (limit : Nat)
    (operation : String) (run : Nat → Program (Except ReevaluationError α)) (log : Log) :
    (∀ j < max limit 1, (j ≠ 0 → policy.Drawable) → (∀ k < j, Deadlocked (nthAttempt answers policy run log k).2) →
        ¬Deadlocked (nthAttempt answers policy run log j).2 →
        (retryOnDeadlock policy limit operation run).answered answers log = nthAttempt answers policy run log j) ∧
      ((1 < limit → policy.Drawable) → (∀ k < max limit 1, Deadlocked (nthAttempt answers policy run log k).2) →
        ∃ e, (nthAttempt answers policy run log (max limit 1 - 1)).2 = .error e ∧
          (retryOnDeadlock policy limit operation run).answered answers log =
            ((nthAttempt answers policy run log (max limit 1 - 1)).1,
              .error (.deadlock operation (max limit 1) e.message))) ∧
      ∀ j < max limit 1, (j ≠ 0 → policy.Drawable) → (∀ k < j, Deadlocked (nthAttempt answers policy run log k).2) →
        ∀ inner made text, (nthAttempt answers policy run log j).2 = .error (.deadlock inner made text) →
        (retryOnDeadlock policy limit operation run).answered answers log = nthAttempt answers policy run log j := by
  refine ⟨fun j ↦ answered_retryOnDeadlock_first, answered_retryOnDeadlock_exhausted, ?_⟩
  intro j hj hdraw h inner made text hinner
  apply answered_retryOnDeadlock_first hj hdraw h
  rw [hinner, deadlocked_error]
  exact Bool.false_ne_true

namespace LockCycle

def answers (_ : Log) (c : Call) : c.Answer := (Store.answerAlone Race.noon c Race.store).1

def outcome (n : Nat) : Except ReevaluationError Nat :=
  if n < 2 then .error (.storage (.deadlock "order-1" "lock cycle")) else .error (.deadlock "refund" 4 "lock cycle")

def attempt (n : Nat) : Program (Except ReevaluationError Nat) := do
  let _ ← .ask .now
  return outcome n

def retried (policy : BackoffPolicy) (limit : Nat) : Log × Except ReevaluationError Nat :=
  (retryOnDeadlock policy limit "capture" attempt).answered answers []

/-- Its jitter is one millisecond more than a signed word of microseconds has room for. -/
def unsteady : BackoffPolicy := { Config.default.backoff with jitter := .ofMilliseconds 9223372036854776 }

def noted (c : Call) : Exchange := ⟨c, answers [] c⟩

theorem deadlocked_of_lt (policy : BackoffPolicy) {n : Nat} (hn : n < 2) :
    Deadlocked (nthAttempt answers policy attempt [] n).2 := by
  have houtcome : (nthAttempt answers policy attempt [] n).2 = outcome n := by cases n <;> rfl
  rw [houtcome, outcome, if_pos hn]
  exact ⟨_, _, rfl⟩

end LockCycle

open LockCycle

/-- Five attempts may be made, and the third ends it; two are used up; and none at all means one, without a pause. -/
theorem retryOnDeadlock_returns_cycle :
    retried Config.default.backoff 5 = ([noted .now, noted (.pause Config.default.backoff 0), noted .now,
        noted (.pause Config.default.backoff 1), noted .now], .error (.deadlock "refund" 4 "lock cycle")) ∧
      retried Config.default.backoff 2 = ([noted .now, noted (.pause Config.default.backoff 0), noted .now],
        .error (.deadlock "capture" 2 "deadlock detected on intent order-1: lock cycle")) ∧
      retried unsteady 0 =
        ([noted .now], .error (.deadlock "capture" 1 "deadlock detected on intent order-1: lock cycle")) := by
  have hreturns := fun policy limit ↦ retryOnDeadlock_returns answers policy limit "capture" attempt []
  have hdrawable : Config.default.backoff.Drawable := by decide
  refine ⟨?_, ?_, ?_⟩
  · exact (hreturns _ 5).2.2 2 (by decide) (fun _ ↦ hdrawable) (fun k hk ↦ deadlocked_of_lt _ hk) "refund" 4
      "lock cycle" rfl
  · obtain ⟨e, he, h⟩ := (hreturns _ 2).2.1 (fun _ ↦ hdrawable) fun k hk ↦ deadlocked_of_lt _ hk
    cases he
    exact h
  · have honce : 1 < 0 → unsteady.Drawable := fun hlimit ↦ absurd hlimit (by decide)
    obtain ⟨e, he, h⟩ := (hreturns unsteady 0).2.1 honce fun k hk ↦ deadlocked_of_lt _ (by omega)
    cases he
    exact h

/-- With a jitter that no offset can be drawn from, the first deadlock is the end. -/
example : retried unsteady 5 = ([noted .now], .error (.panicked .draw)) := rfl

end IntentCorrection
