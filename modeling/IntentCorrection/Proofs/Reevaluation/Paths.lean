import IntentCorrection.Proofs.Reevaluation.Alone
import IntentCorrection.Proofs.Reevaluation.Auditing
import IntentCorrection.Proofs.Store.Operations

namespace IntentCorrection

namespace LockRegistry

variable {r r' : LockRegistry} {key : String}

theorem Valid.isLocked_congr (h : r.Valid) (h' : r'.Valid) (hclaims : ∀ t, r'.claims.get? t = r.claims.get? t)
    (key : String) : r'.isLocked key = r.isLocked key := by
  rw [Bool.eq_iff_iff, h.isLocked_iff, h'.isLocked_iff]
  simp only [hclaims]

theorem claims_prune (r : LockRegistry) (key : String) : (r.prune key).claims = r.claims := by
  unfold prune
  split
  · split <;> rfl
  · rfl

/-- Nobody came for the lock in between, so there is nobody to hand it to. -/
theorem Valid.claims_release_begin (h : r.Valid) (hfree : r.isLocked key = false) (t : Ticket) :
    ((r.begin key).2.release (r.begin key).1).claims.get? t = r.claims.get? t := by
  have hidle := holder_slotFor hfree
  have hfor := h.slotFor key
  unfold LockRegistry.begin
  generalize r.slotFor key = x at hfor hidle ⊢
  obtain ⟨id, r₁⟩ := x
  obtain ⟨hv, hkey, hclaims, -⟩ := hfor
  obtain ⟨slot, hslot, hacc⟩ := hv.slots key id hkey
  dsimp only at hv hkey hclaims hslot hidle ⊢
  rw [hslot, Option.getD_some] at hidle
  have hnew : r₁.claims.get? r₁.nextTicket = none := by
    cases hc : r₁.claims.get? r₁.nextTicket with
    | none => rfl
    | some c => exact absurd (hv.ticket_lt _ c hc) (Nat.lt_irrefl _)
  -- The slot has no holder, so nobody waits there, and the claim of the new ticket is put in and taken out again.
  simp only [hslot, Option.getD_some, hidle, Option.isNone_none, if_true, hacc.idle hidle]
  simp only [LockRegistry.release, LockRegistry.handOver, claims_prune, Entries.get?_insert, if_true,
    Entries.erase_insert, Entries.get?_erase, hclaims] at hnew ⊢
  split
  · rename_i heq
    rw [heq, hnew]
  · rfl

end LockRegistry

namespace Store

variable {s s' : Store}

def SameLocks (s s' : Store) : Prop :=
  (∀ t, s'.locks.claims.get? t = s.locks.claims.get? t) ∧ ∀ key, s'.locks.isLocked key = s.locks.isLocked key

theorem SameLocks.of_eq (h : s'.locks = s.locks) : s.SameLocks s' :=
  ⟨fun t ↦ by rw [h], fun key ↦ by rw [h]⟩

theorem sameLocks_of_release {key : String} (h : s.locks.Valid) (hfree : s.locks.isLocked key = false)
    (hlocks : s'.locks = (s.locks.begin key).2.release (s.locks.begin key).1) : s.SameLocks s' := by
  have hclaims := h.claims_release_begin hfree
  have hvalid := ((h.begin key).1.release (s.locks.begin key).1).1
  rw [← hlocks] at hclaims hvalid
  exact ⟨hclaims, h.isLocked_congr hvalid hclaims⟩

end Store

namespace Program

variable {α : Type} {p : Program α}

theorem Silent.eventsAlone (hp : p.Silent) (date : Timestamp) (s : Store) : p.eventsAlone date s = [] := by
  induction p generalizing s with
  | done a => rfl
  | call c next ih => rw [eventsAlone_call, hp.1, ih _ (hp.2 _)]; rfl

end Program

def ReevaluationResponse.starved (response : ReevaluationResponse) : ReevaluationResponse :=
  { response with starvationDetected := true }

def AuditEvent.starved (e : AuditEvent) : AuditEvent :=
  ({ e with severity := .warning }.withDetail "starvation_detected" (.bool true)).withDetail "fallback_strategy"
    (.string "pessimistic")

namespace Reevaluation

open Program

variable {r : ReevaluationRequest} {date : Timestamp} {s s' s'' : Store} {config : Config}
  {x x' : Except ReevaluationError Settled} {attempts : Nat}

theorem answer_starved : answer attempts true x = (answer attempts false x).map ReevaluationResponse.starved := by
  cases x <;> rfl

theorem settledEvents_starved (severity : Severity) :
    (settledEvents r date attempts true .warning x).map (·.withDetail "fallback_strategy" (.string "pessimistic")) =
      (settledEvents r date attempts false severity x).map AuditEvent.starved := by
  cases x with
  | error e => rfl
  | ok x =>
    simp [settledEvents, settledEvent, ReevaluationResponse.of, AuditEvent.starved, AuditEvent.withDetails,
      AuditEvent.withDetail, AuditEvent.of, Entries.insert_insert]

/-- What comes of a request, with a store of the contents that it leaves. -/
def decided (r : ReevaluationRequest) (date : Timestamp) (s : Store) : Except ReevaluationError Settled × Store :=
  match s.get r.intentKey with
  | .error e => (.error (.ofStorage e), s)
  | .ok i =>
    match correct i r date with
    | .error e => (.error (.ofCorrection e), s)
    | .ok (.alreadyApplied record) => (.ok ⟨i, record, true⟩, s)
    | .ok (.applied next record) => (.ok ⟨next, record, false⟩, s.write next (s.log r.intentKey ++ [record]))

theorem Decides.eq_decided (h : Decides r date s x s') :
    x = (decided r date s).1 ∧ (decided r date s).2.SameContents s' := by
  unfold decided
  cases h with
  | missing hget hs =>
    rw [hget]
    exact ⟨rfl, hs⟩
  | refused hget hc hs => simp [hget, hc, hs]
  | found hget hc hs => simp [hget, hc, hs]
  | applied hget hc hs => simp [hget, hc, hs]

theorem eventsAlone_fallback (hretries : (retryOnDeadlock config.backoff config.deadlockRetries "reevaluate"
      fun _ ↦ applyLocked config r).runAlone date s = (x, s')) (hx : Decides r date s x s')
    (correlationId : Option Uuid) :
    (fallback config r attempts correlationId).eventsAlone date s =
      (settledEvents r date attempts true .warning x).map
        (·.withDetail "fallback_strategy" (.string "pessimistic")) := by
  have hsilent : (retryOnDeadlock config.backoff config.deadlockRetries "reevaluate"
      fun _ ↦ applyLocked config r).eventsAlone date s = [] := silent_retries.eventsAlone date s
  rw [fallback, eventsAlone_bind, hsilent, hretries, List.nil_append]
  cases x with
  | error e =>
    dsimp only
    rw [hx.not_deadlock.1]
    rfl
  | ok settled => rfl

/-- For a request whose key is not locked it makes no difference which path it takes: the contents afterwards are the
same, locks are as they were, and the locked path adds to the answer and to the event that the request counts as
starved. -/
theorem reevaluate_paths (hs : s.Reachable) (hfree : s.locks.isLocked r.intentKey = false) (config : Config)
    (retries : Nat) (date : Timestamp) :
    let optimistic := reevaluate { config with maxRetries := retries + 1 } r
    let locked := reevaluate { config with maxRetries := 0 } r
    (optimistic.runAlone date s).2.SameContents (locked.runAlone date s).2 ∧
      s.SameLocks (optimistic.runAlone date s).2 ∧ s.SameLocks (locked.runAlone date s).2 ∧
      (locked.runAlone date s).1 = (optimistic.runAlone date s).1.map ReevaluationResponse.starved ∧
      locked.eventsAlone date s = (optimistic.eventsAlone date s).map AuditEvent.starved := by
  have hkeyed := hs.represented.keyed
  dsimp only
  -- The check does not look at the number of retries.
  cases hcheck : checkRequest config r with
  | error e =>
    have hrefused : ∀ n, reevaluate { config with maxRetries := n } r = .done (.error e) := fun _ ↦
      reevaluate_of_refused hcheck
    rw [hrefused, hrefused]
    exact ⟨.rfl, .of_eq rfl, .of_eq rfl, rfl, rfl⟩
  | ok _ =>
    have hadmitted : ∀ n, reevaluate { config with maxRetries := n } r =
        attemptFrom { config with maxRetries := n } r n 0 none := fun _ ↦ reevaluate_of_admitted hcheck
    let c : Config := { config with maxRetries := 0 }
    obtain ⟨x, s', hx, hlocks, hrun, severity, hevents⟩ : ∃ x s', Decides r date s x s' ∧ _ :=
      attempt_decides { config with maxRetries := retries + 1 } hkeyed hfree retries 0 none
    obtain ⟨x', s'', hretries, hx', hlocks'⟩ : ∃ x s', _ ∧ Decides r date s x s' ∧ _ := retries_decide c hkeyed hfree
    have hrun' := fallback_alone hretries hx' 1 none
    have hevents' : (fallback c r 1 none).eventsAlone date s = _ := eventsAlone_fallback hretries hx' none
    obtain ⟨rfl, hsame⟩ := hx.eq_decided
    obtain ⟨rfl, hsame'⟩ := hx'.eq_decided
    have hzero : attemptFrom c r 0 0 none = fallback c r 1 none := rfl
    rw [hadmitted, hadmitted, hzero, hrun, hrun', hevents, hevents']
    exact ⟨⟨hsame'.1.trans hsame.1.symm, hsame'.2.trans hsame.2.symm⟩, .of_eq hlocks,
      Store.sameLocks_of_release hs.valid_locks hfree hlocks', answer_starved, settledEvents_starved severity⟩

theorem reevaluate_paths_payment : ∃ response,
    ((reevaluate { Config.default with maxRetries := 1 } Race.request).runAlone Race.noon Race.store).1 = .ok response ∧
      response.starvationDetected = false ∧
      ((reevaluate { Config.default with maxRetries := 0 } Race.request).runAlone Race.noon Race.store).1 =
        .ok response.starved ∧
      Race.store.SameLocks ((reevaluate { Config.default with maxRetries := 0 } Race.request).runAlone Race.noon
        Race.store).2 := by
  obtain ⟨response, hok, hstarved⟩ : ∃ response,
      ((reevaluate { Config.default with maxRetries := 1 } Race.request).runAlone Race.noon Race.store).1 =
        .ok response ∧ response.starvationDetected = false := ⟨_, rfl, rfl⟩
  obtain ⟨-, -, hlocks, hanswer, -⟩ :=
    reevaluate_paths (r := Race.request) (.ofIntents Race.ofIntents_payment) rfl .default 0 Race.noon
  refine ⟨response, hok, hstarved, hanswer.trans ?_, hlocks⟩
  rw [hok]
  rfl

/-- At the last version there is, both paths panic. -/
example : ∀ retries < 2, ((reevaluate { Config.default with maxRetries := retries } Race.request).runAlone Race.noon
    ⟨[("order-1", { Race.payment with version := Word.size64 - 1 })], [("order-1", [])], .empty⟩).1 =
      .error (.panicked .version) := by
  intro retries hretries
  obtain rfl | rfl : retries = 0 ∨ retries = 1 := by omega
  · rfl
  · rfl

end Reevaluation

end IntentCorrection
