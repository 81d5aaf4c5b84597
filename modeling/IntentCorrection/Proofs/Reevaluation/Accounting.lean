import IntentCorrection.Proofs.Reevaluation.Admission
import IntentCorrection.Proofs.Reevaluation.Deadlocks
import Mathlib.Data.List.TakeWhile

namespace IntentCorrection

open Reevaluation Program

namespace Call

def isRead : Call → Bool
  | .get _ => true
  | _ => false

def isSwap : Call → Bool
  | .swap .. => true
  | _ => false

def isLock : Call → Bool
  | .lock .. => true
  | _ => false

def pause? : Call → Option (BackoffPolicy × Nat)
  | .pause policy n => some (policy, n)
  | _ => none

end Call

def Exchange.isLost : Exchange → Bool
  | ⟨.swap .., answer⟩ =>
    match answer with
    | Except.ok won => !won
    | Except.error _ => false
  | _ => false

namespace Log

def reads (log : Log) : Nat := log.countP (·.call.isRead)

def swaps (log : Log) : Nat := log.countP (·.call.isSwap)

def lostSwaps (log : Log) : Nat := log.countP Exchange.isLost

def locks (log : Log) : Nat := log.countP (·.call.isLock)

def pauses (log : Log) : List (BackoffPolicy × Nat) := log.filterMap (·.call.pause?)

/-- What comes before the first lock is asked for. -/
def optimistic (log : Log) : Log := log.takeWhile (!·.call.isLock)

def exclusive (log : Log) : Log := log.dropWhile (!·.call.isLock)

section

variable (log : Log) (c : Call) (a : c.Answer)

@[simp] theorem reads_concat : reads (log ++ [⟨c, a⟩]) = log.reads + if c.isRead then 1 else 0 := by
  simp [reads, List.countP_cons]

@[simp] theorem swaps_concat : swaps (log ++ [⟨c, a⟩]) = log.swaps + if c.isSwap then 1 else 0 := by
  simp [swaps, List.countP_cons]

@[simp] theorem lostSwaps_concat :
    lostSwaps (log ++ [⟨c, a⟩]) = log.lostSwaps + if Exchange.isLost ⟨c, a⟩ then 1 else 0 := by
  simp [lostSwaps, List.countP_cons]

@[simp] theorem locks_concat : locks (log ++ [⟨c, a⟩]) = log.locks + if c.isLock then 1 else 0 := by
  simp [locks, List.countP_cons]

@[simp] theorem pauses_concat : pauses (log ++ [⟨c, a⟩]) = log.pauses ++ c.pause?.toList := by
  cases h : c.pause? <;> simp [pauses, List.filterMap_append, h]

end

variable {log l : Log} {x : Exchange}

theorem not_isLock_of_locks (h : log.locks = 0) : ∀ x ∈ log, (!x.call.isLock) = true := by
  intro x hx
  simpa using List.countP_eq_zero.1 h x hx

theorem optimistic_eq (h : log.locks = 0) : log.optimistic = log :=
  List.takeWhile_eq_self_iff.2 (not_isLock_of_locks h)

theorem exclusive_eq (h : log.locks = 0) : log.exclusive = [] :=
  List.dropWhile_eq_nil_iff.2 (not_isLock_of_locks h)

theorem optimistic_append (h : log.locks = 0) (hl : l.optimistic = []) : (log ++ l).optimistic = log := by
  rw [optimistic, List.takeWhile_append_of_pos (not_isLock_of_locks h), ← optimistic, hl, List.append_nil]

theorem exclusive_append (h : log.locks = 0) (hl : l.optimistic = []) : (log ++ l).exclusive = l := by
  have hsplit : l.optimistic ++ l.exclusive = l := List.takeWhile_append_dropWhile
  rw [hl, List.nil_append] at hsplit
  rw [exclusive, List.dropWhile_append_of_pos (not_isLock_of_locks h), ← exclusive, hsplit]

/-- A log that begins with a lock goes on as one. -/
theorem optimistic_concat (h : l.optimistic = []) (hx : l = [] → x.call.isLock = true) :
    optimistic (l ++ [x]) = [] := by
  cases l with
  | nil => simp [optimistic, hx rfl]
  | cons y l =>
    cases hy : y.call.isLock with
    | false => simp [optimistic, hy] at h
    | true => simp [optimistic, hy]

end Log

def Config.delays (config : Config) (n : Nat) : List (BackoffPolicy × Nat) :=
  (List.range n).map fun k ↦ (config.backoff, k)

theorem Config.delays_succ (config : Config) (n : Nat) :
    config.delays (n + 1) = config.delays n ++ [(config.backoff, n)] := by
  simp [delays, List.range_succ]

namespace Reevaluation

variable {config : Config} {r : ReevaluationRequest} {log l : Log} {left made paused tried k reads swaps lost : Nat}
  {pauses : List (BackoffPolicy × Nat)} {correlationId : Option Uuid}
  {result : Except ReevaluationError ReevaluationResponse}

/-- The calls of a request and the attempts that its result tells of. -/
structure Accounting (config : Config) (log : Log) (result : Except ReevaluationError ReevaluationResponse) :
    Prop where
  reads : log.optimistic.reads ≤ config.maxRetries
  swaps : log.optimistic.swaps ≤ config.maxRetries
  /-- Every attempt begins with a read, and only the loss of its swap leads on. -/
  attempted : log.locks = 0 → result ≠ .error (.panicked .draw) →
    log.optimistic.reads = log.optimistic.lostSwaps + 1
  abandoned : log.locks ≠ 0 ∨ result = .error (.panicked .draw) → log.optimistic.reads = log.optimistic.lostSwaps
  /-- The locked path reads only if nothing was read before it, for the event of a conflict. -/
  laterReads : log.exclusive.reads = 0 ∨ log.exclusive.reads = 1 ∧ config.maxRetries = 0 ∧
    ∃ key attempts starved detail, result = .error (.concurrencyConflict key attempts starved detail)
  laterSwaps : log.exclusive.swaps = 0
  locks : log.locks ≤ max config.deadlockRetries 1
  settled : ∀ response, result = .ok response → log.locks = 0 →
    response.attempts = log.reads ∧ 1 ≤ log.reads ∧ log.reads ≤ config.maxRetries ∧
      response.starvationDetected = false ∧ log.pauses = config.delays (response.attempts - 1)
  fallback : log.locks ≠ 0 ↔ log.optimistic.lostSwaps = config.maxRetries
  waited : log.locks ≠ 0 → log.optimistic.pauses = config.delays (config.maxRetries - 1)
  starved : ∀ response, result = .ok response → log.locks ≠ 0 →
    response.attempts = config.maxRetries + 1 ∧ response.starvationDetected = true
  conflict : ∀ key attempts starved detail, result = .error (.concurrencyConflict key attempts starved detail) →
    log.locks ≠ 0 ∧ attempts = config.maxRetries + 1 ∧ starved = true

theorem ofStorage_ne_conflict (e : StorageError) (key : String) (attempts : Nat) (starved : Bool) (detail : String) :
    ReevaluationError.ofStorage e ≠ .concurrencyConflict key attempts starved detail := by
  intro h
  cases e <;> cases h

/-- What a panic of that kind is owed to. -/
def Excuse (config : Config) (log : Log) : Panic → Prop
  | .version => ∃ i, log.shown = some i ∧ ¬i.HasRoom
  | .attempts => Word.size32 ≤ config.maxRetries + 1
  | .draw => ¬config.backoff.Drawable

section

variable {α : Type}

def Excused (config : Config) (log : Log) (result : Except ReevaluationError α) : Prop :=
  ∀ p, result = .error (.panicked p) → Excuse config log p

theorem excused_ok (a : α) : Excused config log (.ok a) := by
  intro p hresult
  cases hresult

theorem excused_error {e : ReevaluationError} (he : e.isPanic = false) :
    Excused config log (.error e : Except ReevaluationError α) := by
  rintro p ⟨⟩
  cases he

theorem excused_panic {p : Panic} (h : Excuse config log p) :
    Excused config log (.error (.panicked p) : Except ReevaluationError α) := by
  rintro _ ⟨⟩
  exact h

theorem isPanic_ofStorage (e : StorageError) : (ReevaluationError.ofStorage e).isPanic = false := by
  cases e <;> rfl

/-- Of all that a correction may fail for, only the want of another version is a panic. -/
theorem correct_panicked {i : Intent} {now : Timestamp} {e : CorrectionError} {p : Panic}
    (hc : correct i r now = .error e) (he : ReevaluationError.ofCorrection e = .panicked p) :
    p = .version ∧ ¬i.HasRoom := by
  rcases Intent.correct_error hc with rfl | herror | ⟨changes, -, herror⟩ | ⟨rfl, hroom⟩
  · cases he
  · obtain ⟨fault, rfl⟩ := Diff.fault_of_payload herror
    cases he
  · rcases Diff.apply_error herror with hinvalid | ⟨key, segment, found, rfl⟩
    · obtain ⟨fault, rfl⟩ := Diff.fault_of_validateMap hinvalid
      cases he
    · cases he
  · cases he
    exact ⟨rfl, hroom⟩

theorem excused_refused {i : Intent} {now : Timestamp} {e : CorrectionError} (hc : correct i r now = .error e)
    (hshown : log.shown = some i) : Excused config log (.error (.ofCorrection e) : Except ReevaluationError α) := by
  intro p hp
  obtain ⟨rfl, hroom⟩ := correct_panicked hc (Except.error.inj hp)
  exact ⟨i, hshown, hroom⟩

end

theorem lockRules_excused :
    LockRules (fun _ ↦ True) (fun _ _ ↦ True) (fun _ ↦ True) (fun h log ↦ log.shown = some h.intent)
      (Excused config) r.intentKey config.lockTimeout (judgeRequest r) where
  lock _ _ := trivial
  missed _ e _ := excused_error (isPanic_ofStorage e)
  clock _ := trivial
  opened log _ now _ _ := Log.shown_of_clock log now rfl
  refused _ _ _ _ h hjudge := ⟨trivial, excused_refused (judgeRequest_error hjudge) (Log.shown_quiet h rfl)⟩
  kept _ _ _ settled _ _ := ⟨trivial, fun e ↦ excused_error (isPanic_ofStorage e), fun _ ↦ excused_ok settled⟩
  replaced _ _ _ _ a _ _ :=
    ⟨trivial, fun e ↦ excused_error (isPanic_ofStorage e), fun stored _ ↦ excused_ok (a stored)⟩

theorem retries_excused :
    (retryOnDeadlock config.backoff config.deadlockRetries "reevaluate" fun _ ↦ applyLocked config r).Ends
      (Excused config) log := by
  have rules : RetryRules (fun _ ↦ True) (fun _ _ ↦ True) (fun _ _ ↦ True) (fun _ ↦ Excused config) (Excused config)
      config.backoff "reevaluate" (max config.deadlockRetries 1) (fun _ ↦ applyLocked config r) :=
    { run := fun _ _ _ ↦ by
        rw [applyLocked_eq]
        exact lockRules_excused.obeys trivial
      other := fun _ _ _ _ h ↦ h
      paused := fun _ _ _ _ _ ↦ ⟨trivial, trivial⟩
      undrawn := fun _ _ _ _ _ _ hdraw ↦ excused_panic hdraw
      exhausted := fun _ _ _ _ _ _ ↦ excused_error rfl }
  exact rules.obeys trivial

theorem fallbackRules_excused {attempts : Nat} :
    FallbackRules (fun _ ↦ True) (fun _ _ ↦ True) (Excused config) (fun _ _ ↦ True) (Excused config) r attempts
      correlationId where
  permits := permits_all
  settled _ _ _ _ _ := excused_ok _
  passed _ _ h _ p hp := h p (congrArg Except.error (Except.error.inj hp))
  known _ _ _ _ := trivial
  read _ _ _ _ _ _ := ⟨trivial, trivial⟩
  failed _ _ _ _ _ _ := excused_error rfl

theorem attemptRules_excused :
    AttemptRules (fun _ ↦ True) (fun _ _ ↦ True) (fun left made _ _ ↦ made + left = config.maxRetries)
      (fun left made i log ↦ made + (left + 1) = config.maxRetries ∧ log.shown = some i)
      (fun left made _ _ ↦ made + (left + 1) = config.maxRetries) (Excused config) config r where
  permits := permits_all
  read _ _ _ _ _ := trivial
  missing _ _ _ _ e _ := excused_error (isPanic_ofStorage e)
  shown log _ _ _ _ now h _ := ⟨h, Log.shown_of_clock log now rfl⟩
  refused _ _ _ _ _ _ h hc := excused_refused hc h.2
  found _ _ _ _ _ _ _ _ := settle_obeys permits_all fun _ _ ↦ excused_ok _
  swap _ _ _ _ _ _ _ _ _ := trivial
  failed _ _ _ _ _ _ _ e _ _ := excused_error (isPanic_ofStorage e)
  won _ _ _ _ _ _ _ _ _ := settle_obeys permits_all fun _ _ ↦ excused_ok _
  lose _ _ _ _ _ _ _ h _ := h.1
  again _ _ _ h := h
  paused log left made i h := ⟨trivial, by omega⟩
  undrawn _ _ _ _ _ hdraw := excused_panic hdraw
  fallback _ _ _ _ _ := fallbackRules_excused.obeys retries_excused
  overflow log made id h hover := by
    obtain rfl : made = config.maxRetries := h
    exact excused_panic hover

/-- What the locked path has logged by itself, after so many attempts at the lock and so many reads. -/
structure Locking (k reads : Nat) (l : Log) : Prop where
  exclusive : l.optimistic = []
  locks : l.locks = k
  reads : l.reads = reads
  swaps : l.swaps = 0

namespace Locking

theorem ne_nil (h : Locking (k + 1) reads l) : l ≠ [] := by
  rintro rfl
  cases h.locks

theorem lock (h : Locking k reads l) (key : String) (timeout : Duration) (a : (Call.lock key timeout).Answer) :
    Locking (k + 1) reads (l ++ [⟨.lock key timeout, a⟩]) where
  exclusive := Log.optimistic_concat h.exclusive fun _ ↦ rfl
  locks := by simp [h.locks, Call.isLock]
  reads := by simp [h.reads, Call.isRead]
  swaps := by simp [h.swaps, Call.isSwap]

theorem read (h : Locking (k + 1) reads l) (key : String) (a : (Call.get key).Answer) :
    Locking (k + 1) (reads + 1) (l ++ [⟨.get key, a⟩]) where
  exclusive := Log.optimistic_concat h.exclusive fun hnil ↦ absurd hnil h.ne_nil
  locks := by simp [h.locks, Call.isLock]
  reads := by simp [h.reads, Call.isRead]
  swaps := by simp [h.swaps, Call.isSwap]

theorem concat (h : Locking (k + 1) reads l) {c : Call} (a : c.Answer) (hlock : c.isLock = false)
    (hread : c.isRead = false) (hswap : c.isSwap = false) : Locking (k + 1) reads (l ++ [⟨c, a⟩]) where
  exclusive := Log.optimistic_concat h.exclusive fun hnil ↦ absurd hnil h.ne_nil
  locks := by simp [h.locks, hlock]
  reads := by simp [h.reads, hread]
  swaps := by simp [h.swaps, hswap]

end Locking

theorem lockRules_locking :
    LockRules (fun _ ↦ True) (fun _ _ ↦ True) (Locking k 0) (fun _ ↦ Locking (k + 1) 0) (fun l _ ↦ Locking (k + 1) 0 l)
      r.intentKey config.lockTimeout (judgeRequest r) where
  lock _ _ := trivial
  missed _ _ h := h.lock _ _ _
  clock _ := trivial
  opened _ _ now h _ := (h.lock _ _ _).concat now rfl rfl rfl
  refused _ _ _ _ h _ := ⟨trivial, h.concat _ rfl rfl rfl⟩
  kept _ _ _ _ h _ := ⟨trivial, fun _ ↦ h.concat _ rfl rfl rfl, fun _ ↦ h.concat _ rfl rfl rfl⟩
  replaced _ _ _ _ _ h _ := ⟨trivial, fun _ ↦ h.concat _ rfl rfl rfl, fun _ _ ↦ h.concat _ rfl rfl rfl⟩

def Tried (config : Config) (l : Log) : Prop := ∃ k, k + 1 ≤ max config.deadlockRetries 1 ∧ Locking (k + 1) 0 l

theorem retries_tried :
    (retryOnDeadlock config.backoff config.deadlockRetries "reevaluate" fun _ ↦ applyLocked config r).Ends
      (fun l _ ↦ Tried config l) [] := by
  have rules : RetryRules (fun _ ↦ True) (fun _ _ ↦ True) (fun k ↦ Locking k 0) (fun k l _ ↦ Locking (k + 1) 0 l)
      (fun l _ ↦ Tried config l) config.backoff "reevaluate" (max config.deadlockRetries 1)
      (fun _ ↦ applyLocked config r) :=
    { run := fun k l h ↦ by
        rw [applyLocked_eq]
        exact lockRules_locking.obeys h
      other := fun k _ _ hk h ↦ ⟨k, by omega, h⟩
      paused := fun k _ _ h _ ↦ ⟨trivial, h.concat (c := .pause config.backoff k) () rfl rfl rfl⟩
      undrawn := fun k _ _ hk h _ _ ↦ ⟨k, by omega, h⟩
      exhausted := fun k _ _ hk h _ ↦ ⟨k, by omega, h⟩ }
  exact rules.obeys ⟨rfl, rfl, rfl, rfl⟩

/-- What the locked path comes to as the last of so many attempts. -/
structure Exclusive (config : Config) (correlationId : Option Uuid) (attempts : Nat) (l : Log)
    (result : Except ReevaluationError ReevaluationResponse) : Prop where
  locking : ∃ k reads, k + 1 ≤ max config.deadlockRetries 1 ∧ Locking (k + 1) reads l ∧
    (reads = 0 ∨ reads = 1 ∧ correlationId = none ∧
      ∃ key attempts starved detail, result = .error (.concurrencyConflict key attempts starved detail))
  starved : ∀ response, result = .ok response → response.attempts = attempts ∧ response.starvationDetected = true
  conflict : ∀ key n starved detail, result = .error (.concurrencyConflict key n starved detail) →
    n = attempts ∧ starved = true

theorem fallbackRules_exclusive {attempts : Nat} :
    FallbackRules (fun _ ↦ True) (fun _ _ ↦ True) (fun l _ ↦ Tried config l)
      (fun _ l ↦ ∃ k reads, k + 1 ≤ max config.deadlockRetries 1 ∧ Locking (k + 1) reads l ∧
        (reads = 0 ∨ reads = 1 ∧ correlationId = none))
      (Exclusive config correlationId attempts) r attempts correlationId where
  permits := permits_all
  settled l settled now answer h := by
    obtain ⟨k, hk, h⟩ := h
    refine ⟨⟨k, 0, hk, (h.concat now rfl rfl rfl).concat answer rfl rfl rfl, .inl rfl⟩, ?_, ?_⟩
    · intro response hresult
      cases hresult
      exact ⟨rfl, rfl⟩
    · intro key n starved detail hresult
      cases hresult
  passed l e h hpassed := by
    obtain ⟨k, hk, h⟩ := h
    refine ⟨⟨k, 0, hk, h, .inl rfl⟩, ?_, ?_⟩
    · intro response hresult
      cases hresult
    · intro key n starved detail hresult
      cases hresult
      cases hpassed
  known l e h _ := by
    obtain ⟨k, hk, h⟩ := h
    exact ⟨k, 0, hk, h, .inl rfl⟩
  read l e answer h _ hnone := by
    obtain ⟨k, hk, h⟩ := h
    exact ⟨trivial, k, 1, hk, h.read r.intentKey answer, .inr ⟨rfl, hnone⟩⟩
  failed l e id now answer h := by
    obtain ⟨k, reads, hk, h, hreads⟩ := h
    refine ⟨⟨k, reads, hk, (h.concat now rfl rfl rfl).concat answer rfl rfl rfl, ?_⟩, ?_, ?_⟩
    · exact hreads.imp_right fun hread ↦ ⟨hread.1, hread.2, _, _, _, _, rfl⟩
    · intro response hresult
      cases hresult
    · intro key n starved detail hresult
      cases hresult
      exact ⟨rfl, rfl⟩

structure Counts (reads swaps lost : Nat) (pauses : List (BackoffPolicy × Nat)) (log : Log) : Prop where
  reads : log.reads = reads
  swaps : log.swaps = swaps
  lost : log.lostSwaps = lost
  pauses : log.pauses = pauses
  locks : log.locks = 0

theorem Counts.concat (h : Counts reads swaps lost pauses log) (c : Call) (a : c.Answer) (hlock : c.isLock = false) :
    Counts (reads + if c.isRead then 1 else 0) (swaps + if c.isSwap then 1 else 0)
      (lost + if Exchange.isLost ⟨c, a⟩ then 1 else 0) (pauses ++ c.pause?.toList) (log ++ [⟨c, a⟩]) where
  reads := by rw [Log.reads_concat, h.reads]
  swaps := by rw [Log.swaps_concat, h.swaps]
  lost := by rw [Log.lostSwaps_concat, h.lost]
  pauses := by rw [Log.pauses_concat, h.pauses]
  locks := by simp [h.locks, hlock]

/-- So many attempts have lost their swaps, and so many pauses were made. -/
def Made (config : Config) (made paused : Nat) : Log → Prop := Counts made made made (config.delays paused)

/-- One more attempt has read, and has tried so many swaps without losing any. -/
def Underway (config : Config) (made tried : Nat) : Log → Prop :=
  Counts (made + 1) (made + tried) made (config.delays made)

theorem made_nil (config : Config) : Made config 0 0 [] := ⟨rfl, rfl, rfl, rfl, rfl⟩

theorem Made.read (h : Made config made made log) (key : String) (a : (Call.get key).Answer) :
    Underway config made 0 (log ++ [⟨.get key, a⟩]) := by
  simpa [Underway, Call.isRead, Call.isSwap, Exchange.isLost, Call.pause?] using h.concat _ a rfl

theorem Made.pause (h : Made config made paused log) (a : (Call.pause config.backoff paused).Answer) :
    Made config made (paused + 1) (log ++ [⟨.pause config.backoff paused, a⟩]) := by
  rw [Made, Config.delays_succ]
  simpa [Call.isRead, Call.isSwap, Exchange.isLost, Call.pause?] using h.concat _ a rfl

theorem Underway.look (h : Underway config made tried log) (now : Call.now.Answer) :
    Underway config made tried (log ++ [⟨.now, now⟩]) := by
  simpa [Underway, Call.isRead, Call.isSwap, Exchange.isLost, Call.pause?] using h.concat _ now rfl

theorem Underway.emit (h : Underway config made tried log) (e : AuditEvent) (a : (Call.emit e).Answer) :
    Underway config made tried (log ++ [⟨.emit e, a⟩]) := by
  simpa [Underway, Call.isRead, Call.isSwap, Exchange.isLost, Call.pause?] using h.concat _ a rfl

section

variable {key : String} {next : Intent} {record : CorrectionRecord} {expected : Nat}
  {a : (Call.swap key next record expected).Answer}

theorem Underway.swap (h : Underway config made 0 log)
    (ha : Exchange.isLost ⟨.swap key next record expected, a⟩ = false) :
    Underway config made 1 (log ++ [⟨.swap key next record expected, a⟩]) := by
  simpa [Underway, Call.isRead, Call.isSwap, ha, Call.pause?] using h.concat _ a rfl

theorem Underway.lose (h : Underway config made 0 log)
    (ha : Exchange.isLost ⟨.swap key next record expected, a⟩ = true) :
    Made config (made + 1) made (log ++ [⟨.swap key next record expected, a⟩]) := by
  simpa [Made, Call.isRead, Call.isSwap, ha, Call.pause?] using h.concat _ a rfl

end

/-- A request that is done with before all swaps are lost, and before any lock is asked for. -/
theorem Counts.accounting (h : Counts reads swaps lost pauses log) (hreads : reads ≤ config.maxRetries)
    (hswaps : swaps ≤ config.maxRetries) (hlost : lost < config.maxRetries)
    (hattempted : result ≠ .error (.panicked .draw) → reads = lost + 1)
    (habandoned : result = .error (.panicked .draw) → reads = lost)
    (hok : ∀ response, result = .ok response → response.attempts = lost + 1 ∧ response.starvationDetected = false ∧
      pauses = config.delays lost)
    (hconflict : ∀ key attempts starved detail, result ≠ .error (.concurrencyConflict key attempts starved detail)) :
    Accounting config log result := by
  have hoptimistic := Log.optimistic_eq h.locks
  have hexclusive := Log.exclusive_eq h.locks
  have hnone : ¬log.locks ≠ 0 := fun hlocks ↦ hlocks h.locks
  exact
    { reads := by rwa [hoptimistic, h.reads]
      swaps := by rwa [hoptimistic, h.swaps]
      attempted := by
        intro _ hresult
        rw [hoptimistic, h.reads, h.lost]
        exact hattempted hresult
      abandoned := by
        intro habandon
        rw [hoptimistic, h.reads, h.lost]
        exact habandoned (habandon.resolve_left hnone)
      laterReads := by
        rw [hexclusive]
        exact .inl rfl
      laterSwaps := by
        rw [hexclusive]
        rfl
      locks := by
        rw [h.locks]
        exact Nat.zero_le _
      settled := by
        intro response hresult _
        obtain ⟨hattempts, hstarved, hpauses⟩ := hok response hresult
        have hone : reads = lost + 1 := hattempted (by rw [hresult]; simp)
        rw [h.reads, h.pauses, hattempts, hone]
        exact ⟨rfl, by omega, by omega, hstarved, hpauses⟩
      fallback := by
        rw [hoptimistic, h.lost]
        exact iff_of_false hnone (by omega)
      waited := fun hlocks ↦ absurd hlocks hnone
      starved := fun _ _ hlocks ↦ absurd hlocks hnone
      conflict := fun _ _ _ _ hresult ↦ absurd hresult (hconflict _ _ _ _) }

theorem Underway.failed {e : ReevaluationError} (h : Underway config made tried log) (hmade : made < config.maxRetries)
    (htried : tried ≤ 1) (hdraw : e ≠ .panicked .draw)
    (he : ∀ key attempts starved detail, e ≠ .concurrencyConflict key attempts starved detail) :
    Accounting config log (.error e) := by
  apply Counts.accounting h (by omega) (by omega) hmade
  · intro _
    rfl
  · intro hresult
    exact absurd (Except.error.inj hresult) hdraw
  · intro response hresult
    cases hresult
  · intro key attempts starved detail hresult
    exact he key attempts starved detail (Except.error.inj hresult)

theorem settle_accounting (h : Underway config made tried log) (hmade : made < config.maxRetries) (htried : tried ≤ 1)
    (i : Intent) (record : CorrectionRecord) (alreadyApplied : Bool) (severity : Severity) :
    (settle i record r alreadyApplied (made + 1) severity).Ends (Accounting config) log := by
  apply settle_obeys permits_all
  intro now answer
  apply Counts.accounting ((h.look now).emit _ answer) (by omega) (by omega) hmade
  · intro _
    rfl
  · intro hresult
    cases hresult
  · intro response hresult
    cases hresult
    exact ⟨rfl, rfl, rfl⟩
  · intro key attempts starved detail hresult
    cases hresult

/-- All attempts were lost, and what the locked path logged is put after them. -/
theorem Made.accounting (h : Made config config.maxRetries (config.maxRetries - 1) log)
    (hl : Exclusive config correlationId (config.maxRetries + 1) l result)
    (hid : correlationId = none → config.maxRetries = 0) : Accounting config (log ++ l) result := by
  obtain ⟨k, reads, hk, hlocking, hreads⟩ := hl.locking
  have hoptimistic := Log.optimistic_append h.locks hlocking.exclusive
  have hexclusive := Log.exclusive_append h.locks hlocking.exclusive
  have hlocks : Log.locks (log ++ l) = k + 1 := by
    rw [Log.locks, List.countP_append, ← Log.locks, ← Log.locks, h.locks, hlocking.locks, Nat.zero_add]
  have hsome : Log.locks (log ++ l) ≠ 0 := by omega
  exact
    { reads := by rw [hoptimistic, h.reads]
      swaps := by rw [hoptimistic, h.swaps]
      attempted := fun hnone ↦ absurd hnone hsome
      abandoned := fun _ ↦ by rw [hoptimistic, h.reads, h.lost]
      laterReads := by
        rw [hexclusive, hlocking.reads]
        exact hreads.imp_right fun hread ↦ ⟨hread.1, hid hread.2.1, hread.2.2⟩
      laterSwaps := by rw [hexclusive, hlocking.swaps]
      locks := by rwa [hlocks]
      settled := fun _ _ hnone ↦ absurd hnone hsome
      fallback := by
        rw [hoptimistic, h.lost]
        exact iff_of_true hsome rfl
      waited := by
        intro _
        rw [hoptimistic, h.pauses]
      starved := fun response hresult _ ↦ hl.starved response hresult
      conflict := fun key n starved detail hresult ↦ ⟨hsome, hl.conflict key n starved detail hresult⟩ }

structure Ready (config : Config) (left made : Nat) (correlationId : Option Uuid) (log : Log) : Prop where
  total : made + left = config.maxRetries
  known : correlationId = none → made = 0
  counts : Made config made (if left = 0 then made - 1 else made) log

theorem Ready.counted {left : Nat} (h : Ready config (left + 1) made correlationId log) :
    Made config made made log := by
  have hcounts := h.counts
  rwa [if_neg left.succ_ne_zero] at hcounts

theorem ofCorrection_ne_draw {i : Intent} {now : Timestamp} {e : CorrectionError} (hc : correct i r now = .error e) :
    ReevaluationError.ofCorrection e ≠ .panicked .draw := by
  intro he
  cases (correct_panicked hc he).1

theorem passed_ne_conflict {e : ReevaluationError} (he : (e.isClientError || e.isPanic) = true) (key : String)
    (attempts : Nat) (starved : Bool) (detail : String) : e ≠ .concurrencyConflict key attempts starved detail := by
  rintro rfl
  cases he

/-- An attempt either ends it all or adds one to each of the counts. -/
theorem attemptRules_accounting :
    AttemptRules (fun _ ↦ True) (fun _ _ ↦ True) (Ready config)
      (fun left made _ log ↦ made + (left + 1) = config.maxRetries ∧ Underway config made 0 log)
      (fun left made _ log ↦ made + 1 + left = config.maxRetries ∧ Made config (made + 1) made log)
      (fun log result ↦ config.maxRetries + 1 < Word.size32 → Accounting config log result) config r where
  permits := permits_all
  read _ _ _ _ _ := trivial
  missing log left made id e h _ := by
    have htotal := h.total
    exact (h.counted.read _ _).failed (by omega) (Nat.zero_le 1) (by cases e <;> simp [ReevaluationError.ofStorage])
      (ofStorage_ne_conflict e)
  shown _ _ _ _ _ now h _ := ⟨h.total, (h.counted.read _ _).look now⟩
  refused log left made i now e h hc _ := by
    obtain ⟨htotal, h⟩ := h
    exact h.failed (by omega) (Nat.zero_le 1) (ofCorrection_ne_draw hc)
      (passed_ne_conflict (ReevaluationError.passed_ofCorrection e))
  found log left made i now record h _ := by
    obtain ⟨htotal, h⟩ := h
    exact (settle_accounting h (by omega) (Nat.zero_le 1) _ _ _ _).mono fun _ _ hend _ ↦ hend
  swap _ _ _ _ _ _ _ _ _ := trivial
  failed log left made i now next record e h _ _ := by
    obtain ⟨htotal, h⟩ := h
    exact (h.swap rfl).failed (by omega) (Nat.le_refl 1) (by cases e <;> simp [ReevaluationError.ofStorage])
      (ofStorage_ne_conflict e)
  won log left made i now next record h _ := by
    obtain ⟨htotal, h⟩ := h
    exact (settle_accounting (h.swap rfl) (by omega) (Nat.le_refl 1) _ _ _ _).mono fun _ _ hend _ ↦ hend
  lose log left made i now next record h _ := by
    obtain ⟨htotal, h⟩ := h
    exact ⟨by omega, h.lose rfl⟩
  again log made i h := ⟨h.1, by simp, h.2⟩
  paused log left made i h := ⟨trivial, h.1, by simp, by
    rw [if_neg left.succ_ne_zero]
    exact h.2.pause _⟩
  undrawn log left made i h _ _ := by
    obtain ⟨htotal, h⟩ := h
    apply Counts.accounting h (by omega) (by omega) (by omega)
    · intro hresult
      exact absurd rfl hresult
    · intro _
      rfl
    · intro response hresult
      cases hresult
    · intro key attempts starved detail hresult
      cases hresult
  fallback log made id h _ := by
    obtain ⟨htotal, hid, h⟩ := h
    obtain rfl : made = config.maxRetries := htotal
    have hends : (fallback config r (config.maxRetries + 1) id).Ends
        (fun l result ↦ Accounting config (log ++ l) result) [] :=
      (fallbackRules_exclusive.obeys retries_tried).mono fun l result hl ↦ Made.accounting h hl hid
    have hafter := hends.after
    rw [List.append_nil] at hafter
    exact hafter.mono fun _ _ hend _ ↦ hend
  overflow log made id h hover hroom := by
    have htotal := h.total
    omega

theorem ready_nil (config : Config) : Ready config config.maxRetries 0 none [] where
  total := Nat.zero_add _
  known _ := rfl
  counts := by
    rw [Nat.zero_sub, ite_self]
    exact made_nil config

/-- Whatever the answers are, a request that is let in comes to an end, and its calls add up. It comes to a regular end
unless an intent was shown to it that is at the last version there is, or its pauses cannot be drawn. -/
theorem reevaluate_accounting (hcheck : checkRequest config r = .ok ()) (hroom : config.maxRetries + 1 < Word.size32)
    (answers : Log → (c : Call) → c.Answer) :
    Accounting config ((reevaluate config r).answered answers []).1 ((reevaluate config r).answered answers []).2 ∧
      ∀ p, ((reevaluate config r).answered answers []).2 = .error (.panicked p) →
        Excuse config ((reevaluate config r).answered answers []).1 p := by
  rw [reevaluate_of_admitted hcheck]
  have haccounting : (attemptFrom config r config.maxRetries 0 none).Ends
      (fun log result ↦ config.maxRetries + 1 < Word.size32 → Accounting config log result) [] :=
    attemptRules_accounting.obeys (ready_nil config)
  have hexcused : (attemptFrom config r config.maxRetries 0 none).Ends (Excused config) [] :=
    attemptRules_excused.obeys (Nat.zero_add _)
  exact ⟨haccounting.answered answers hroom, hexcused.answered answers⟩

namespace Crowd

def answers (cycles : Nat) (log : Log) : (c : Call) → c.Answer
  | .swap .. => (.ok false : Except StorageError Bool)
  | .commit h =>
    if log.locks ≤ cycles then (.error (.deadlock "order-1" "lock cycle") : Except StorageError Intent)
    else (.ok h.intent : Except StorageError Intent)
  | c => LockCycle.answers log c

def course (config : Config) (cycles : Nat) : Log × Except ReevaluationError ReevaluationResponse :=
  (reevaluate config Race.request).answered (answers cycles) []

end Crowd

open Crowd

/-- Three attempts are lost and the lock is had at the second try; or no attempts are allowed, all tries at the lock
fail, and the payment is read for the event. -/
theorem reevaluate_accounting_crowd :
    (∃ response, (course .default 1).2 = .ok response ∧ response.attempts = 4 ∧ response.starvationDetected = true ∧
        (course .default 1).1.locks = 2 ∧
        (course .default 1).1.optimistic.pauses = [(Config.default.backoff, 0), (Config.default.backoff, 1)]) ∧
      ∃ detail, (course { Config.default with maxRetries := 0 } 3).2 =
          .error (.concurrencyConflict "order-1" 1 true detail) ∧
        (course { Config.default with maxRetries := 0 } 3).1.locks = 3 ∧
        (course { Config.default with maxRetries := 0 } 3).1.exclusive.reads = 1 := by
  constructor
  · have haccounting : Accounting .default (course .default 1).1 (course .default 1).2 :=
      (reevaluate_accounting rfl (by decide) (answers 1)).1
    obtain ⟨response, hresponse⟩ : ∃ response, (course .default 1).2 = .ok response := ⟨_, rfl⟩
    have hlocks : (course .default 1).1.locks = 2 := rfl
    have hsome : (course .default 1).1.locks ≠ 0 := by omega
    obtain ⟨hattempts, hstarved⟩ := haccounting.starved response hresponse hsome
    exact ⟨response, hresponse, hattempts, hstarved, hlocks, haccounting.waited hsome⟩
  · obtain ⟨key, attempts, starved, detail, hconflict, hkey⟩ : ∃ key attempts starved detail,
        (course { Config.default with maxRetries := 0 } 3).2 =
          .error (.concurrencyConflict key attempts starved detail) ∧ key = "order-1" := ⟨_, _, _, _, rfl, rfl⟩
    have haccounting : Accounting { Config.default with maxRetries := 0 }
        (course { Config.default with maxRetries := 0 } 3).1 (course { Config.default with maxRetries := 0 } 3).2 :=
      (reevaluate_accounting rfl (by decide) (answers 3)).1
    obtain ⟨-, rfl, rfl⟩ := haccounting.conflict key attempts starved detail hconflict
    subst hkey
    exact ⟨detail, hconflict, rfl, rfl⟩

/-- The first lost swap is the end if no pause can be drawn. -/
example : (course { Config.default with backoffJitterMs := 9223372036854776 } 0).2 = .error (.panicked .draw) := rfl

end Reevaluation

end IntentCorrection
