import IntentCorrection.Proofs.Concurrency.Schedule
import IntentCorrection.Proofs.Lock.Stages

namespace IntentCorrection

inductive StoreOperation where
  | insert (i : Intent)
  | get (key : String)
  | list (status : Option Status)
  | snapshot
  | log (key : String)
  | swap (key : String) (i : Intent) (r : CorrectionRecord) (expected : Nat)
  /-- Locks a key while nobody else runs. -/
  | lock (key : String) (timeout : Duration)
  /-- Someone who wants a lock, or has it, comes a stage further. -/
  | stage (stage : LockStage)
  /-- The last stage of locking, with the lock at hand. -/
  | openLocked (t : Ticket) (key : String)
  | expireLock (t : Ticket) (key : String) (timeout : Duration)
  | replace (handle : LockedIntent) (i : Intent)
  | commit (handle : LockedIntent)
  | abort (handle : LockedIntent)
  | drop (handle : LockedIntent)

namespace StoreOperation

def Answer : StoreOperation → Type
  | .insert _ | .abort _ => Except StorageError Unit
  | .get _ | .commit _ => Except StorageError Intent
  | .list _ | .snapshot => List Intent
  | .log _ => List CorrectionRecord
  | .swap .. => Except StorageError Bool
  | .lock .. | .openLocked .. => Except StorageError LockedIntent
  | .expireLock .. => StorageError
  | .replace .. => LockedIntent
  | .stage _ | .drop _ => Unit

/-- The answer tells of a write: not an error, a swap that was lost, or anything that a mere look could give. -/
def Writes : (o : StoreOperation) → o.Answer → Prop
  | .insert _, answer => answer = Except.ok ()
  | .swap .., answer => answer = Except.ok true
  | .commit h, answer => h.dirty = true ∧ ∃ i, answer = Except.ok i
  | _, _ => False

end StoreOperation

namespace Store

def perform (s : Store) : (o : StoreOperation) → o.Answer × Store
  | .insert i =>
    match s.insert i with
    | .error e => (Except.error e, s)
    | .ok s' => (Except.ok (), s')
  | .get key => (s.get key, s)
  | .list status => (s.list status, s)
  | .snapshot => (s.snapshot, s)
  | .log key => (s.log key, s)
  | .swap key i r expected => s.compareAndSwap key i r expected
  | .lock key timeout => s.lockAlone key timeout
  | .stage stage => ((), { s with locks := s.locks.act stage })
  | .openLocked t key => s.openLocked t key
  | .expireLock t key timeout => s.expireLock t key timeout
  | .replace h i => (h.replace i, s)
  | .commit h => s.commit h
  | .abort h => (Except.ok (), s.abort h)
  | .drop h => ((), s.abort h)

def performAll (s : Store) (os : List StoreOperation) : Store := os.foldl (fun s o ↦ (s.perform o).2) s

/-- Each intent is stored under its own key, just the stored keys have a journal, and no map has a key twice. -/
structure Represented (s : Store) : Prop where
  keyed : s.Keyed
  journaled : ∀ key, s.journal.contains key = s.intents.contains key
  intents : s.intents.Sorted
  journal : s.journal.Sorted

structure Grows (s s' : Store) : Prop where
  kept : ∀ key, s.intents.contains key = true → s'.intents.contains key = true
  extended : ∀ key, s.log key <+: s'.log key

variable {s s' : Store} {i : Intent} {key : String} {more journal : List CorrectionRecord}

theorem Grows.rfl : s.Grows s := ⟨fun _ h ↦ h, fun _ ↦ List.prefix_rfl⟩

theorem Grows.trans {s'' : Store} (h : s.Grows s') (h' : s'.Grows s'') : s.Grows s'' :=
  ⟨fun key hkey ↦ h'.kept key (h.kept key hkey), fun key ↦ (h.extended key).trans (h'.extended key)⟩

theorem SameContents.grows (h : s.SameContents s') : s.Grows s' :=
  ⟨fun key hkey ↦ by rwa [h.1], fun key ↦ (h.log key).symm ▸ List.prefix_rfl⟩

theorem Represented.sameContents (hs : s.Represented) (h : s.SameContents s') : s'.Represented where
  keyed := hs.keyed.sameContents h
  journaled := by
    rw [h.1, h.2]
    exact hs.journaled
  intents := h.1 ▸ hs.intents
  journal := h.2 ▸ hs.journal

theorem contains_intents_write (s : Store) (i : Intent) (journal : List CorrectionRecord) (key : String) :
    (s.write i journal).intents.contains key = true ↔ key = i.key ∨ s.intents.contains key = true :=
  Entries.contains_insert

theorem contains_journal_write (s : Store) (i : Intent) (journal : List CorrectionRecord) (key : String) :
    (s.write i journal).journal.contains key = true ↔ key = i.key ∨ s.journal.contains key = true :=
  Entries.contains_insert

theorem Represented.write (hs : s.Represented) (i : Intent) (journal : List CorrectionRecord) :
    (s.write i journal).Represented where
  keyed := hs.keyed.write i journal
  journaled key := by
    rw [Bool.eq_iff_iff, contains_journal_write, contains_intents_write, hs.journaled]
  intents := hs.intents.insert _ _
  journal := hs.journal.insert _ _

theorem grows_write (h : s.log i.key <+: journal) : s.Grows (s.write i journal) where
  kept key hkey := (contains_intents_write s i journal key).2 (.inr hkey)
  extended key := by
    rw [log_write]
    split
    · rename_i hkey
      exact hkey ▸ h
    · exact List.prefix_rfl

theorem Represented.log_of_fresh (hs : s.Represented) (h : s.intents.get? key = none) : s.log key = [] := by
  have hnone : s.journal.get? key = none := by
    have hkey := hs.journaled key
    unfold Entries.contains at hkey
    rw [h, Option.isSome_none, Option.isSome_eq_false_iff, Option.isNone_iff_eq_none] at hkey
    exact hkey
  rw [log, hnone]
  rfl

theorem sameContents_lockAlone (s : Store) (key : String) (timeout : Duration) :
    s.SameContents (s.lockAlone key timeout).2 := by
  have hbegin := s.sameContents_beginLock key
  unfold lockAlone
  dsimp only
  split
  · have hopen := (s.beginLock key).2.sameContents_openLocked (s.beginLock key).1 key
    exact ⟨hopen.1.trans hbegin.1, hopen.2.trans hbegin.2⟩
  · exact hbegin

/-- An operation that tells of a write has put one intent under its own key, with a journal that is longer at its end;
any other leaves the contents as they are. -/
theorem Represented.perform_cases (hs : s.Represented) (o : StoreOperation) :
    s.SameContents (s.perform o).2 ∨
      o.Writes (s.perform o).1 ∧ ∃ i journal, s.log i.key <+: journal ∧
        (s.write i journal).SameContents (s.perform o).2 := by
  -- Of all operations, three write: an insertion, a swap that is won and the commit of a replacement.
  cases o with
  | insert i =>
    cases h : s.insert i with
    | error e =>
      simp only [perform, h]
      exact .inl .rfl
    | ok s' =>
      obtain ⟨hfresh, rfl⟩ := insert_ok h
      simp only [perform, h]
      refine .inr ⟨rfl, i, i.history, ?_, .rfl⟩
      rw [hs.log_of_fresh hfresh]
      exact List.nil_prefix
  | swap key i r expected =>
    rcases s.compareAndSwap_cases key i r expected with ⟨hsame, -⟩ | ⟨hkey, -, -, hwon⟩
    · simp only [perform, hsame]
      exact .inl .rfl
    · simp only [perform, hwon]
      exact .inr ⟨rfl, i, _, by rw [hkey]; exact List.prefix_append _ _, .rfl⟩
  | commit h =>
    rcases s.commit_cases h with ⟨hsame, -⟩ | ⟨hdirty, -, hcommit⟩
    · simp only [perform, hsame]
      exact .inl (s.sameContents_release h.ticket)
    · simp only [perform, hcommit]
      exact .inr ⟨⟨hdirty, h.intent, rfl⟩, h.intent, _, List.prefix_append _ _, sameContents_release _ _⟩
  | lock key timeout => exact .inl (s.sameContents_lockAlone key timeout)
  | openLocked t key => exact .inl (s.sameContents_openLocked t key)
  | abort h | drop h => exact .inl (s.sameContents_release h.ticket)
  | get _ | list _ | snapshot | log _ | stage _ | expireLock _ _ _ | replace _ _ => exact .inl .rfl

theorem Represented.perform (hs : s.Represented) (o : StoreOperation) :
    (s.perform o).2.Represented ∧ s.Grows (s.perform o).2 := by
  rcases hs.perform_cases o with hsame | ⟨-, i, journal, hlonger, hsame⟩
  · exact ⟨hs.sameContents hsame, hsame.grows⟩
  · exact ⟨(hs.write i journal).sameContents hsame, (grows_write hlonger).trans hsame.grows⟩

theorem Represented.sameContents_perform (hs : s.Represented) {o : StoreOperation}
    (h : ¬o.Writes (s.perform o).1) : s.SameContents (s.perform o).2 :=
  (hs.perform_cases o).resolve_right fun hwrite ↦ h hwrite.1

theorem valid_locks_openLocked (h : s.locks.Valid) (t : Ticket) (key : String) :
    (s.openLocked t key).2.locks.Valid := by
  rcases s.openLocked_cases t key with ⟨e, -, he⟩ | ⟨i, -, he⟩
  · rw [he]
    exact (h.release t).1
  · rw [he]
    exact h

theorem locks_perform_insert (s : Store) (i : Intent) : (s.perform (.insert i)).2.locks = s.locks := by
  cases h : s.insert i with
  | error e => simp only [Store.perform, h]
  | ok s' =>
    obtain ⟨-, rfl⟩ := insert_ok h
    simp only [Store.perform, h]
    rfl

theorem locks_perform_swap (s : Store) (key : String) (i : Intent) (r : CorrectionRecord) (expected : Nat) :
    (s.perform (.swap key i r expected)).2.locks = s.locks := by
  rcases s.compareAndSwap_cases key i r expected with ⟨hsame, -⟩ | ⟨-, -, -, hwon⟩
  · simp only [Store.perform, hsame]
  · simp only [Store.perform, hwon]
    rfl

theorem valid_locks_perform (h : s.locks.Valid) (o : StoreOperation) : (s.perform o).2.locks.Valid := by
  cases o with
  | insert i =>
    rw [locks_perform_insert]
    exact h
  | swap key i r expected =>
    rw [locks_perform_swap]
    exact h
  | commit handle =>
    rcases s.commit_cases handle with ⟨hsame, -⟩ | ⟨-, -, hcommit⟩
    · simp only [Store.perform, hsame]
      exact (h.release _).1
    · simp only [Store.perform, hcommit]
      exact (h.release _).1
  | lock key timeout =>
    have hbegin : (s.beginLock key).2.locks.Valid := (h.begin key).1
    simp only [Store.perform, lockAlone]
    split
    · exact valid_locks_openLocked hbegin _ _
    · exact (hbegin.expire _).1
  | stage stage => exact h.act stage
  | openLocked t key => exact valid_locks_openLocked h t key
  | expireLock t key timeout => exact (h.expire t).1
  | abort handle | drop handle => exact (h.release handle.ticket).1
  | get _ | list _ | snapshot | log _ | replace _ _ => exact h

inductive Reachable : Store → Prop
  | ofIntents {is : List Intent} {s : Store} : Store.ofIntents is = .ok s → Reachable s
  | perform {s : Store} (o : StoreOperation) : Reachable s → Reachable (s.perform o).2

theorem Represented.ofIntents {is : List Intent} (h : ofIntents is = .ok s) : s.Represented :=
  ofIntents_induction h ⟨nofun, fun _ ↦ rfl, Entries.sorted_nil, Entries.sorted_nil⟩ fun _ i _ _ hs ↦
    hs.write i i.history

theorem Reachable.represented (hs : s.Reachable) : s.Represented := by
  induction hs with
  | ofIntents h => exact .ofIntents h
  | perform o _ ih => exact (ih.perform o).1

theorem Reachable.valid_locks (hs : s.Reachable) : s.locks.Valid := by
  induction hs with
  | ofIntents h =>
    rw [ofIntents_locks h]
    exact LockRegistry.valid_empty
  | perform o _ ih => exact valid_locks_perform ih o

theorem Represented.performAll (hs : s.Represented) (os : List StoreOperation) : s.Grows (s.performAll os) := by
  induction os generalizing s with
  | nil => exact .rfl
  | cons o os ih =>
    obtain ⟨hs', hgrows⟩ := hs.perform o
    exact hgrows.trans (ih hs')

/-- However a store is used, its maps belong together, and what is done next only adds to them: keys stay, journals
grow at their ends, and an operation that does not tell of a write leaves all intents and journals as they are. -/
theorem reachable_represented (hs : s.Reachable) :
    s.Represented ∧ (∀ os, s.Grows (s.performAll os)) ∧
      ∀ o, ¬o.Writes (s.perform o).1 → s.SameContents (s.perform o).2 :=
  ⟨hs.represented, hs.represented.performAll, fun _ ho ↦ hs.represented.sameContents_perform ho⟩

/-- A handle that the store never gave out is committed. It has less history than it claims to have read, so the
journal stays as it was, while the intent is replaced. -/
theorem reachable_represented_payment :
    let h : LockedIntent := ⟨7, { Race.payment with version := 4 }, 0, 5, true⟩
    let s := (Race.store.perform (.commit h)).2
    s.get "order-1" = .ok h.intent ∧ s.log "order-1" = [] ∧ s.Represented ∧ (∀ os, s.Grows (s.performAll os)) ∧
      ∀ o, ¬o.Writes (s.perform o).1 → s.SameContents (s.perform o).2 :=
  ⟨rfl, rfl, reachable_represented (.perform _ (.ofIntents Race.ofIntents_payment))⟩

end Store

end IntentCorrection
