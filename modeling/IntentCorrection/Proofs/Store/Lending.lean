import IntentCorrection.Proofs.Store.Operations

namespace IntentCorrection

def LockStage.ticket? : LockStage → Option Ticket
  | .arrive _ | .prune _ => none
  | .ask t | .resume t | .leave t => some t

namespace LockRegistry

variable {r r' r'' : LockRegistry} {t : Ticket}

theorem Keeps.trans (h : r.Keeps r' t) (h' : r'.Keeps r'' t) : r.Keeps r'' t := fun c hc ↦ by
  obtain ⟨phase, hc', hphase⟩ := h c hc
  obtain ⟨phase', hc'', hphase'⟩ := h' _ hc'
  exact ⟨phase', hc'', fun hholding ↦ hphase' (hphase hholding)⟩

namespace Valid

theorem keeps_of_new (h : r.Valid) {new : Claim}
    (hclaims : ∀ t', r'.claims.get? t' = if t' = r.nextTicket then some new else r.claims.get? t') : r.Keeps r' t :=
  fun c hc ↦ Keeps.of_eq (by rw [hclaims, if_neg (Nat.ne_of_lt (h.ticket_lt t c hc))]) c hc

theorem keeps_begin (h : r.Valid) (key : String) : r.Keeps (r.begin key).2 t := by
  obtain ⟨-, -, -, slot, phase, hclaims⟩ := h.begin key
  exact h.keeps_of_new hclaims

theorem keeps_arrive (h : r.Valid) (key : String) : r.Keeps (r.arrive key).2 t := by
  obtain ⟨-, -, hclaims, hnext⟩ := h.slotFor key
  have hnew : ∀ t', (r.arrive key).2.claims.get? t' =
      if t' = r.nextTicket then some ⟨key, (r.slotFor key).1, .waiting⟩ else r.claims.get? t' := fun t' ↦ by
    rw [← hclaims, ← hnext]
    exact Entries.get?_insert _ _ _ _
  exact h.keeps_of_new hnew

theorem keeps_ask {t' : Ticket} (hne : t ≠ t') : r.Keeps (r.ask t') t := by
  unfold LockRegistry.ask
  split
  · dsimp only
    split
    · exact .of_eq rfl
    · split
      · exact .of_eq ((Entries.get?_insert _ _ _ _).trans (if_neg hne))
      · exact .of_eq rfl
  · exact .of_eq rfl

theorem keeps_leave (h : r.Valid) {t' : Ticket} (hne : t ≠ t') : r.Keeps (r.leave t') t := by
  unfold LockRegistry.leave
  split
  · exact .of_eq ((Entries.get?_erase _ _ _).trans (if_neg hne))
  · rename_i hphase hc
    exact (h.handOver hc hphase).2 t hne
  · exact .of_eq rfl

theorem keeps_act (h : r.Valid) {stage : LockStage} (hne : stage.ticket? ≠ some t) : r.Keeps (r.act stage) t := by
  cases stage with
  | arrive key => exact h.keeps_arrive key
  | ask t' => exact keeps_ask fun heq ↦ hne (by rw [heq]; rfl)
  | resume t' => exact (h.resume t').2 t
  | leave t' => exact h.keeps_leave fun heq ↦ hne (by rw [heq]; rfl)
  | prune key => exact .of_eq (by rw [LockRegistry.act, (h.prune key).2])

end Valid

end LockRegistry

def StoreOperation.ticket? : StoreOperation → Option Ticket
  | .stage st => st.ticket?
  | .openLocked t _ | .expireLock t _ _ => some t
  | .commit h | .abort h | .drop h => some h.ticket
  | _ => none

namespace Store

variable {s : Store} {t t' : Ticket} {key other : String} {handle handle' : LockedIntent} {o : StoreOperation}

theorem keeps_openLocked (h : s.locks.Valid) (hne : t ≠ t') (key : String) :
    s.locks.Keeps (s.openLocked t' key).2.locks t := by
  rcases s.openLocked_cases t' key with ⟨e, -, he⟩ | ⟨i, -, he⟩
  · rw [he]
    exact (h.release t').2 t hne
  · rw [he]
    exact .of_eq rfl

theorem keeps_perform (h : s.locks.Valid) (ho : o.ticket? ≠ some t) : s.locks.Keeps (s.perform o).2.locks t := by
  cases o with
  | insert i =>
    rw [locks_perform_insert]
    exact .of_eq rfl
  | swap key i r expected =>
    rw [locks_perform_swap]
    exact .of_eq rfl
  | lock key timeout =>
    intro c hc
    -- The lock is asked for with a ticket of its own.
    obtain ⟨hvalid, hticket, -⟩ := h.begin key
    have hne : t ≠ (s.locks.begin key).1 := hticket ▸ Nat.ne_of_lt (h.ticket_lt t c hc)
    have hbegin : s.locks.Keeps (s.beginLock key).2.locks t := h.keeps_begin key
    have hvalid' : (s.beginLock key).2.locks.Valid := hvalid
    simp only [perform, lockAlone]
    split
    · exact hbegin.trans (keeps_openLocked hvalid' hne key) c hc
    · exact hbegin.trans ((hvalid'.expire _).2 t hne) c hc
  | stage stage => exact h.keeps_act ho
  | openLocked t' key => exact keeps_openLocked h (fun heq ↦ ho (by rw [heq]; rfl)) key
  | expireLock t' key timeout => exact (h.expire t').2 t fun heq ↦ ho (by rw [heq]; rfl)
  | commit handle =>
    have hne : t ≠ handle.ticket := fun heq ↦ ho (by rw [heq]; rfl)
    rcases s.commit_cases handle with ⟨hsame, -⟩ | ⟨-, -, hcommit⟩
    · simp only [perform, hsame]
      exact (h.release _).2 t hne
    · simp only [perform, hcommit]
      exact (h.release _).2 t hne
  | abort handle | drop handle => exact (h.release handle.ticket).2 t fun heq ↦ ho (by rw [heq]; rfl)
  | get _ | list _ | snapshot | log _ | replace _ _ => exact .of_eq rfl

/-- The handle was opened for the key by a ticket with the lock, and is out still: since then it may have been
replaced with anything, and others may have done anything, but not with its ticket. -/
inductive Lent (key : String) : Store → LockedIntent → Prop
  | opened {s : Store} {t : Ticket} {slot : SlotId} {handle : LockedIntent} : s.Reachable →
      s.locks.claims.get? t = some ⟨key, slot, .holding⟩ → (s.openLocked t key).1 = .ok handle →
      Lent key (s.openLocked t key).2 handle
  | others {s : Store} {handle : LockedIntent} (o : StoreOperation) : Lent key s handle →
      o.ticket? ≠ some handle.ticket → Lent key (s.perform o).2 handle
  | replaced {s : Store} {handle : LockedIntent} (i : Intent) : Lent key s handle → Lent key s (handle.replace i)

theorem Lent.reachable (h : Lent key s handle) : s.Reachable := by
  induction h with
  | opened hs _ _ => exact hs.perform (.openLocked _ key)
  | others o _ _ ih => exact ih.perform o
  | replaced i _ ih => exact ih

theorem Lent.claim (h : Lent key s handle) :
    ∃ slot, s.locks.claims.get? handle.ticket = some ⟨key, slot, .holding⟩ := by
  induction h with
  | @opened s t slot handle _ hc hopen =>
    rcases s.openLocked_cases t key with ⟨e, -, he⟩ | ⟨i, -, he⟩
    · rw [he] at hopen
      cases hopen
    · rw [he] at hopen ⊢
      cases hopen
      exact ⟨slot, hc⟩
  | others o h ho ih =>
    obtain ⟨slot, hc⟩ := ih
    obtain ⟨phase, hc', hphase⟩ := keeps_perform h.reachable.valid_locks ho _ hc
    obtain rfl : phase = .holding := hphase rfl
    exact ⟨slot, hc'⟩
  | replaced i _ ih => exact ih

theorem Lent.apart (h : Lent key s handle) (h' : Lent other s handle') (hne : handle'.ticket ≠ handle.ticket) :
    other ≠ key := by
  rintro rfl
  obtain ⟨slot, hc⟩ := h.claim
  obtain ⟨slot', hc'⟩ := h'.claim
  exact hne (h.reachable.valid_locks.holder_unique hc hc')

/-- Whoever locks a key while nobody else runs is lent the handle. -/
theorem lent_lockAlone (hs : s.Reachable) {timeout : Duration} (h : (s.lockAlone key timeout).1 = .ok handle) :
    Lent key (s.lockAlone key timeout).2 handle := by
  have hvalid := hs.valid_locks
  obtain ⟨-, hticket, -, slot, phase, hclaims⟩ := hvalid.begin key
  have hbegun : (s.beginLock key).2.Reachable := by
    have hstages := (hs.perform (.stage (.arrive key))).perform (.stage (.ask (s.locks.arrive key).1))
    unfold beginLock
    rw [LockRegistry.begin_eq hvalid]
    exact hstages
  have hclaim : (s.beginLock key).2.locks.claims.get? (s.beginLock key).1 = some ⟨key, slot, phase⟩ :=
    (hclaims _).trans (if_pos hticket)
  unfold lockAlone at h ⊢
  dsimp only at h ⊢
  split at h
  · rename_i hphase
    rw [if_pos hphase]
    obtain rfl : phase = .holding := by simpa [LockRegistry.phase?, hclaim] using hphase
    exact .opened hbegun hclaim h
  · cases h

def SameAt (s s' : Store) (key : String) : Prop :=
  s'.intents.get? key = s.intents.get? key ∧ s'.log key = s.log key

/-- The handle was replaced with an intent of another key, and the version stored there is the one that the handle
has read. -/
def Strays (s : Store) (key : String) (handle : LockedIntent) : Prop :=
  handle.dirty = true ∧ handle.intent.key ≠ key ∧
    ∃ current, s.intents.get? handle.intent.key = some current ∧ current.version = handle.readVersion

theorem sameAt_commit (h : handle.intent.key ≠ other) : s.SameAt (s.commit handle).2 other := by
  rcases s.commit_cases handle with ⟨hsame, -⟩ | ⟨-, -, hcommit⟩
  · rw [hsame]
    exact ⟨rfl, rfl⟩
  · rw [hcommit]
    have hreleased := sameContents_release (s.write handle.intent
      (s.log handle.intent.key ++ handle.intent.history.drop handle.readHistoryLength)) handle.ticket
    exact ⟨by rw [hreleased.1, get?_write, if_neg h.symm], by rw [hreleased.log, log_write, if_neg h.symm]⟩

theorem sameAt_commit_of_not_strays (h : ¬s.Strays key handle) (hne : other ≠ key) :
    s.SameAt (s.commit handle).2 other := by
  by_cases hkey : handle.intent.key = other
  · rcases s.commit_cases handle with ⟨hsame, -⟩ | ⟨hdirty, hcurrent, -⟩
    · rw [hsame]
      exact ⟨rfl, rfl⟩
    · exact absurd ⟨hdirty, hkey ▸ hne, hcurrent⟩ h
  · exact sameAt_commit hkey

/-- The commit of a handle that is lent for a key leaves all other keys alone, those of the other handles that are out
among them, unless it strays: then it writes the staged intent and its corrections under the other key, and leaves all
but that one alone, also the key that it was lent for. -/
theorem commit_lent (h : Lent key s handle) :
    (¬s.Strays key handle → ∀ other ≠ key, s.SameAt (s.commit handle).2 other) ∧
      (s.Strays key handle →
        (s.commit handle).1 = .ok handle.intent ∧
        (s.commit handle).2.intents.get? handle.intent.key = some handle.intent ∧
        (s.commit handle).2.log handle.intent.key =
          s.log handle.intent.key ++ handle.intent.history.drop handle.readHistoryLength ∧
        ∀ other ≠ handle.intent.key, s.SameAt (s.commit handle).2 other) ∧
      ∀ handle' other, Lent other s handle' → handle'.ticket ≠ handle.ticket →
        other ≠ key ∧ (s.SameAt (s.commit handle).2 other ∨ s.Strays key handle ∧ handle.intent.key = other) := by
  refine ⟨fun hstays other hne ↦ sameAt_commit_of_not_strays hstays hne, fun hstrays ↦ ?_,
    fun handle' other h' hticket ↦ ⟨h.apart h' hticket, ?_⟩⟩
  · obtain ⟨hdirty, -, current, hcurrent, hversion⟩ := hstrays
    have hcommit : s.commit handle = (.ok handle.intent, (s.write handle.intent (s.log handle.intent.key ++
        handle.intent.history.drop handle.readHistoryLength)).release handle.ticket) := by
      simp [commit, hdirty, get_eq_ok.2 hcurrent, hversion]
    have hreleased := sameContents_release (s.write handle.intent
      (s.log handle.intent.key ++ handle.intent.history.drop handle.readHistoryLength)) handle.ticket
    refine ⟨by rw [hcommit], ?_, ?_, fun other hne ↦ sameAt_commit hne.symm⟩
    · rw [hcommit, hreleased.1, get?_write, if_pos rfl]
    · rw [hcommit, hreleased.log, log_write, if_pos rfl]
  · by_cases hstrays : s.Strays key handle
    · by_cases hkey : handle.intent.key = other
      · exact .inr ⟨hstrays, hkey⟩
      · exact .inl (sameAt_commit hkey)
    · exact .inl (sameAt_commit_of_not_strays hstrays (h.apart h' hticket))

end Store

namespace Race

def refund : Intent := { payment with key := "order-2" }

def pair : Store :=
  ⟨[("order-1", payment), ("order-2", refund)], [("order-1", []), ("order-2", [])], .empty⟩

theorem ofIntents_pair : Store.ofIntents [payment, refund] = .ok pair := rfl

end Race

namespace Store

/-- Two intents of one version are lent out. The first handle is staged with an intent of the second key, and its
commit takes the place of the intent that the second handle shows. -/
theorem commit_lent_strays :
    ∃ s handle handle', Lent "order-1" s handle ∧ Lent "order-2" s handle' ∧ handle'.intent = Race.refund ∧
      s.get "order-2" = .ok Race.refund ∧
      (s.commit handle).2.intents.get? "order-2" = some { Race.refund with payload := [] } := by
  let s₁ := (Race.pair.lockAlone "order-1" .zero).2
  let s₂ := (s₁.lockAlone "order-2" .zero).2
  let handle : LockedIntent := ⟨0, Race.payment, 0, 0, false⟩
  let handle' : LockedIntent := ⟨1, Race.refund, 0, 0, false⟩
  have hopen : (Race.pair.lockAlone "order-1" .zero).1 = .ok handle := rfl
  have hopen' : (s₁.lockAlone "order-2" .zero).1 = .ok handle' := rfl
  have hlent : Lent "order-1" s₁ handle := lent_lockAlone (.ofIntents Race.ofIntents_pair) hopen
  have hlent' : Lent "order-2" s₂ handle' := lent_lockAlone hlent.reachable hopen'
  have hstaged : Lent "order-1" s₂ (handle.replace { Race.refund with payload := [] }) :=
    .replaced _ (.others (.lock "order-2" .zero) hlent (by nofun))
  have hcurrent : s₂.get "order-2" = .ok Race.refund := rfl
  have hstrays : s₂.Strays "order-1" (handle.replace { Race.refund with payload := [] }) :=
    ⟨rfl, by decide, Race.refund, get_eq_ok.1 hcurrent, rfl⟩
  obtain ⟨-, hwritten, -⟩ := (commit_lent hstaged).2.1 hstrays
  exact ⟨s₂, _, handle', hstaged, hlent', rfl, hcurrent, hwritten⟩

end Store

end IntentCorrection
