import IntentCorrection.Reevaluation.Retry

namespace IntentCorrection

def Call.key? : Call → Option String
  | .get key | .swap key .. | .lock key _ => some key
  | _ => none

def Call.event? : Call → Option AuditEvent
  | .emit e => some e
  | _ => none

/-- An intent that is to be written in place of one of the expected version, and the corrections for the
journal. -/
structure Proposal where
  expected : Nat
  intent : Intent
  corrections : List CorrectionRecord

def Call.proposal? : Call → Option Proposal
  | .swap _ i r expected => some ⟨expected, i, [r]⟩
  | .commit h =>
    if h.dirty then some ⟨h.readVersion, h.intent, h.intent.history.drop h.readHistoryLength⟩ else none
  | _ => none

structure Exchange where
  call : Call
  answer : call.Answer

namespace Exchange

def shown? : Exchange → Option Intent
  | ⟨.get _, answer⟩ =>
    match answer with
    | Except.ok i => some i
    | Except.error _ => none
  | ⟨.lock .., answer⟩ =>
    match answer with
    | Except.ok h => some h.intent
    | Except.error _ => none
  | _ => none

def accepted : Exchange → Bool
  | ⟨.swap .., answer⟩ =>
    match answer with
    | Except.ok won => won
    | Except.error _ => false
  | ⟨.commit _, answer⟩ =>
    match answer with
    | Except.ok _ => true
    | Except.error _ => false
  | _ => false

def landed? (x : Exchange) : Option Proposal := if x.accepted then x.call.proposal? else none

/-- An intent shown for a key has that key, a new handle shows the intent as it was read, and a committed handle
gives its intent back. -/
def Honest : Exchange → Prop
  | ⟨.get key, answer⟩ =>
    match answer with
    | Except.ok i => i.key = key
    | Except.error _ => True
  | ⟨.lock key _, answer⟩ =>
    match answer with
    | Except.ok h => h.intent.key = key ∧
        ∃ t, h = ⟨t, h.intent, h.intent.version, h.intent.history.length, false⟩
    | Except.error _ => True
  | ⟨.commit h, answer⟩ =>
    match answer with
    | Except.ok i => i = h.intent
    | Except.error _ => True
  | _ => True

theorem key_of_shown {x : Exchange} {i : Intent} (hx : x.Honest) (hi : x.shown? = some i) :
    x.call.key? = some i.key := by
  obtain ⟨c, a⟩ := x
  cases c with
  | get key =>
    cases a with
    | ok j =>
      cases hi
      exact congrArg some hx.symm
    | error e => cases hi
  | lock key timeout =>
    cases a with
    | ok h =>
      cases hi
      exact congrArg some hx.1.symm
    | error e => cases hi
  | _ => cases hi

end Exchange

/-- Oldest first. -/
abbrev Log := List Exchange

namespace Log

def shown (log : Log) : Option Intent := (log.filterMap Exchange.shown?).getLast?

theorem shown_append (log : Log) (x : Exchange) :
    shown (log ++ [x]) = x.shown?.or (shown log) := by
  cases hx : x.shown? <;> simp [shown, List.filterMap_append, hx]

theorem mem_of_shown {log : Log} {i : Intent} (h : log.shown = some i) : ∃ x ∈ log, x.shown? = some i :=
  List.mem_filterMap.1 (List.mem_of_getLast? h)

theorem shown_quiet {log : Log} {x : Exchange} {i : Intent} (h : log.shown = some i) (hx : x.shown? = none) :
    shown (log ++ [x]) = some i := by
  rw [shown_append, hx, h]
  rfl

theorem shown_of_clock {x : Exchange} {i : Intent} (log : Log) (now : Timestamp) (h : x.shown? = some i) :
    shown (log ++ [x] ++ [⟨.now, now⟩]) = some i := by
  rw [shown_append, shown_append, h]
  rfl

end Log

namespace Program

variable {α β : Type}

/-- With the answers of the log, the program makes the calls of the log and is left as `q`. -/
inductive Leads (p : Program α) : Log → Program α → Prop
  | nil : Leads p [] p
  | snoc {log : Log} {c : Call} {next : c.Answer → Program α} (a : c.Answer) :
      Leads p log (.call c next) → Leads p (log ++ [⟨c, a⟩]) (next a)

/-- As long as the answers are trusted, every call is one that `asks` allows after what was logged before, and the
result is one that `ends` allows. -/
def Obeys (trusts : Exchange → Prop) (asks : Log → Call → Prop) (ends : Log → α → Prop) : Program α → Log → Prop
  | .done a, log => ends log a
  | .call c next, log =>
    asks log c ∧ ∀ a, trusts ⟨c, a⟩ → (next a).Obeys trusts asks ends (log ++ [⟨c, a⟩])

def Meets (asks : Log → Call → Prop) (ends : Log → α → Prop) (p : Program α) (log : Log) : Prop :=
  p.Obeys Exchange.Honest asks ends log

/-- Whatever the answers are, the result is one that `ends` allows. -/
def Ends (ends : Log → α → Prop) (p : Program α) (log : Log) : Prop :=
  p.Obeys (fun _ ↦ True) (fun _ _ ↦ True) ends log

variable {trusts : Exchange → Prop} {asks : Log → Call → Prop} {ends ends' : Log → α → Prop} {p q : Program α}
  {log : Log} {a : α}

theorem Obeys.ask {c : Call} {f : c.Answer → Program α} (h : asks log c)
    (hnext : ∀ a, trusts ⟨c, a⟩ → (f a).Obeys trusts asks ends (log ++ [⟨c, a⟩])) :
    (Program.ask c >>= f).Obeys trusts asks ends log := ⟨h, hnext⟩

theorem Obeys.bind {ends : Log → β → Prop} {f : α → Program β}
    (h : p.Obeys trusts asks (fun log a ↦ (f a).Obeys trusts asks ends log) log) :
    (p >>= f).Obeys trusts asks ends log := by
  induction p generalizing log with
  | done a => exact h
  | call c next ih => exact ⟨h.1, fun a ha ↦ ih a (h.2 a ha)⟩

theorem Obeys.mono (h : p.Obeys trusts asks ends log) (himp : ∀ log a, ends log a → ends' log a) :
    p.Obeys trusts asks ends' log := by
  induction p generalizing log with
  | done a => exact himp log a h
  | call c next ih => exact ⟨h.1, fun a ha ↦ ih a (h.2 a ha)⟩

theorem Leads.obeys (h : p.Leads log q) (hp : p.Obeys trusts asks ends []) (hlog : ∀ x ∈ log, trusts x) :
    q.Obeys trusts asks ends log := by
  induction h with
  | nil => exact hp
  | snoc a h ih =>
    have hcall := ih fun x hx ↦ hlog x (List.mem_append_left _ hx)
    exact hcall.2 a (hlog _ (by simp))

theorem Leads.asked (h : p.Leads log q) (hp : p.Meets asks ends []) (hlog : ∀ x ∈ log, x.Honest) :
    ∀ x ∈ log, ∃ before, asks before x.call := by
  induction h with
  | nil => simp
  | @snoc log c next a h ih =>
    have hbefore : ∀ x ∈ log, x.Honest := fun x hx ↦ hlog x (List.mem_append_left _ hx)
    intro x hx
    rcases List.mem_append.1 hx with hx | hx
    · exact ih hbefore x hx
    · rw [List.mem_singleton.1 hx]
      exact ⟨log, (h.obeys hp hbefore).1⟩

theorem Leads.ended (h : p.Leads log (.done a)) (hp : p.Ends ends []) : ends log a :=
  h.obeys hp fun _ _ ↦ trivial

def answered (answers : Log → (c : Call) → c.Answer) : Program α → Log → Log × α
  | .done a, log => (log, a)
  | .call c next, log => (next (answers log c)).answered answers (log ++ [⟨c, answers log c⟩])

theorem answered_bind (answers : Log → (c : Call) → c.Answer) (p : Program α) (f : α → Program β) (log : Log) :
    (p >>= f).answered answers log =
      (f (p.answered answers log).2).answered answers (p.answered answers log).1 := by
  induction p generalizing log with
  | done a => rfl
  | call c next ih => exact ih _ _

theorem Ends.answered (h : p.Ends ends log) (answers : Log → (c : Call) → c.Answer) :
    ends (p.answered answers log).1 (p.answered answers log).2 := by
  induction p generalizing log with
  | done a => exact h
  | call c next ih => exact ih _ (h.2 _ trivial)

/-- What was logged before a program began is there at its end. -/
theorem Ends.after {before : Log} (h : p.Ends (fun log a ↦ ends (before ++ log) a) log) :
    p.Ends ends (before ++ log) := by
  induction p generalizing log with
  | done a => exact h
  | call c next ih =>
    refine ⟨trivial, fun a _ ↦ ?_⟩
    rw [List.append_assoc]
    exact ih a (h.2 a trivial)

theorem Obeys.afterPause {ends : Log → Except ReevaluationError α → Prop} {policy : BackoffPolicy} {attempt left : Nat}
    {again : Program (Except ReevaluationError α)}
    (hlast : left = 0 → again.Obeys trusts asks ends log)
    (hpause : left ≠ 0 → policy.Drawable →
      asks log (.pause policy attempt) ∧ again.Obeys trusts asks ends (log ++ [⟨.pause policy attempt, ()⟩]))
    (hdraw : left ≠ 0 → ¬policy.Drawable → ends log (.error (.panicked .draw))) :
    (afterPause policy attempt left again).Obeys trusts asks ends log := by
  unfold IntentCorrection.afterPause
  split
  · rename_i hleft
    exact hlast hleft
  · rename_i hleft
    split
    · rename_i hdrawable
      obtain ⟨hask, hagain⟩ := hpause hleft hdrawable
      exact .ask hask fun _ _ ↦ hagain
    · rename_i hdrawable
      exact hdraw hleft hdrawable

/-- What makes retries keep to a contract: `before` holds at the start of an attempt of that number, `tried` at its end,
and `ends` at the end of them all. -/
structure RetryRules (trusts : Exchange → Prop) (asks : Log → Call → Prop) (before : Nat → Log → Prop)
    (tried : Nat → Log → Except ReevaluationError α → Prop) (ends : Log → Except ReevaluationError α → Prop)
    (policy : BackoffPolicy) (operation : String) (limit : Nat) (run : Nat → Program (Except ReevaluationError α)) :
    Prop where
  run : ∀ n log, before n log → (run n).Obeys trusts asks (tried n) log
  other : ∀ n log result, n < limit → tried n log result → ends log result
  paused : ∀ n log e, tried n log (.error e) → e.isDeadlock = true →
    asks log (.pause policy n) ∧ before (n + 1) (log ++ [⟨.pause policy n, ()⟩])
  undrawn : ∀ n log e, n + 1 < limit → tried n log (.error e) → e.isDeadlock = true → ¬policy.Drawable →
    ends log (.error (.panicked .draw))
  exhausted : ∀ n log e, n + 1 = limit → tried n log (.error e) → e.isDeadlock = true →
    ends log (.error (.deadlock operation limit e.message))

section

variable {before : Nat → Log → Prop} {tried : Nat → Log → Except ReevaluationError α → Prop}
  {ends : Log → Except ReevaluationError α → Prop} {policy : BackoffPolicy} {operation : String} {limit : Nat}
  {run : Nat → Program (Except ReevaluationError α)}

theorem RetryRules.obeys_from (rules : RetryRules trusts asks before tried ends policy operation limit run)
    (left attempt : Nat) (lastError : String) (hlimit : attempt + (left + 1) = limit) {log : Log}
    (h : before attempt log) :
    (retryFrom policy operation limit run (left + 1) attempt lastError).Obeys trusts asks ends log := by
  -- By induction on the attempts that are left after the next one.
  induction left generalizing attempt lastError log with
  | zero =>
    apply Obeys.bind
    apply (rules.run attempt log h).mono
    intro log result hresult
    cases result with
    | ok a => exact rules.other attempt log _ (by omega) hresult
    | error e =>
      dsimp only
      split
      · rename_i he
        apply Obeys.afterPause
        · intro _
          exact rules.exhausted attempt log e hlimit hresult he
        · intro hleft
          exact absurd rfl hleft
        · intro hleft
          exact absurd rfl hleft
      · exact rules.other attempt log _ (by omega) hresult
  | succ left ih =>
    apply Obeys.bind
    apply (rules.run attempt log h).mono
    intro log result hresult
    cases result with
    | ok a => exact rules.other attempt log _ (by omega) hresult
    | error e =>
      dsimp only
      split
      · rename_i he
        apply Obeys.afterPause
        · intro hleft
          cases hleft
        · intro _ _
          obtain ⟨hask, hbefore⟩ := rules.paused attempt log e hresult he
          exact ⟨hask, ih (attempt + 1) _ (by omega) hbefore⟩
        · intro _ hdrawable
          exact rules.undrawn attempt log e (by omega) hresult he hdrawable
      · exact rules.other attempt log _ (by omega) hresult

theorem RetryRules.obeys (rules : RetryRules trusts asks before tried ends policy operation (max limit 1) run)
    {log : Log} (h : before 0 log) : (retryOnDeadlock policy limit operation run).Obeys trusts asks ends log := by
  obtain ⟨left, hleft⟩ : ∃ left, max limit 1 = left + 1 := ⟨max limit 1 - 1, by omega⟩
  unfold retryOnDeadlock
  rw [hleft] at rules ⊢
  exact rules.obeys_from left 0 _ (by omega) h

end

variable {between : Log → Prop} {ends : Log → Except ReevaluationError α → Prop} {policy : BackoffPolicy}
  {operation : String} {limit : Nat} {run : Nat → Program (Except ReevaluationError α)}

/-- Retries end as an attempt may end, with the deadlock of the last one, or with a panic between two of them. After a
deadlock it must be true again what an attempt starts from. -/
theorem retryOnDeadlock_obeys
    (hpause : ∀ log n, between log → asks log (.pause policy n) ∧ between (log ++ [⟨.pause policy n, ()⟩]))
    (hfail : ∀ log e, ends log (.error e) → e.isDeadlock = true →
      between log ∧ ends log (.error (.panicked .draw)) ∧
        ends log (.error (.deadlock operation (max limit 1) e.message)))
    (hrun : ∀ n log, between log → (run n).Obeys trusts asks ends log) {log : Log} (h : between log) :
    (retryOnDeadlock policy limit operation run).Obeys trusts asks ends log := by
  have rules : RetryRules trusts asks (fun _ ↦ between) (fun _ ↦ ends) ends policy operation (max limit 1) run :=
    { run := hrun
      other := fun _ _ _ _ hend ↦ hend
      paused := fun n log e hend he ↦ hpause log n (hfail log e hend he).1
      undrawn := fun _ log e _ hend he _ ↦ (hfail log e hend he).2.1
      exhausted := fun _ log e _ hend he ↦ (hfail log e hend he).2.2 }
  exact rules.obeys h

end Program

end IntentCorrection
