import IntentCorrection.Store.Basic

namespace IntentCorrection.Store

variable {s s' : Store} {i current : Intent} {key : String}

/-- The contents are the same; the locks may differ. -/
def SameContents (s s' : Store) : Prop := s'.intents = s.intents ∧ s'.journal = s.journal

theorem SameContents.rfl {s : Store} : s.SameContents s := ⟨.refl _, .refl _⟩

theorem SameContents.log (h : s.SameContents s') (key : String) : s'.log key = s.log key := by
  rw [Store.log, h.2, ← Store.log]

theorem sameContents_release (s : Store) (t : Ticket) : s.SameContents (s.release t) := .rfl

theorem sameContents_beginLock (s : Store) (key : String) : s.SameContents (s.beginLock key).2 :=
  ⟨rfl, rfl⟩

/-- A ticket that has the lock becomes a handle for the stored intent, or is given back. -/
theorem openLocked_cases (s : Store) (t : Ticket) (key : String) :
    (∃ e, s.get key = .error e ∧ s.openLocked t key = (.error e, s.release t)) ∨
      ∃ i, s.get key = .ok i ∧ s.openLocked t key = (.ok ⟨t, i, i.version, i.history.length, false⟩, s) := by
  unfold openLocked
  cases s.get key with
  | error e => exact .inl ⟨e, rfl, rfl⟩
  | ok i => exact .inr ⟨i, rfl, rfl⟩

theorem sameContents_openLocked (s : Store) (t : Ticket) (key : String) :
    s.SameContents (s.openLocked t key).2 := by
  rcases s.openLocked_cases t key with ⟨e, -, he⟩ | ⟨i, -, he⟩
  · rw [he]
    exact sameContents_release s t
  · rw [he]
    exact .rfl

theorem get_eq_ok : s.get key = .ok i ↔ s.intents.get? key = some i := by
  unfold Store.get
  split <;> simp_all

theorem error_of_get {e : StorageError} (h : s.get key = .error e) : e = .notFound key := by
  unfold Store.get at h
  split at h <;> cases h
  rfl

theorem get?_write (s : Store) (i : Intent) (journal : List CorrectionRecord) (key : String) :
    (s.write i journal).intents.get? key = if key = i.key then some i else s.intents.get? key :=
  Entries.get?_insert _ _ _ _

theorem log_write (s : Store) (i : Intent) (journal : List CorrectionRecord) (key : String) :
    (s.write i journal).log key = if key = i.key then journal else s.log key := by
  unfold log write
  rw [Entries.get?_insert]
  split <;> rfl

/-- A swap leaves the store as it is, or it is won by a write in place of the expected version. -/
theorem compareAndSwap_cases (s : Store) (key : String) (i : Intent) (r : CorrectionRecord)
    (expected : Nat) :
    ((s.compareAndSwap key i r expected).2 = s ∧ (s.compareAndSwap key i r expected).1 ≠ .ok true) ∨
      i.key = key ∧ s.locks.isLocked key = false ∧
        (∃ current, s.intents.get? key = some current ∧ current.version = expected) ∧
        s.compareAndSwap key i r expected = (.ok true, s.write i (s.log key ++ [r])) := by
  by_cases hk : i.key = key
  · cases hl : s.locks.isLocked key with
    | true => simp [compareAndSwap, hk, hl]
    | false =>
      cases hg : s.get key with
      | error e => simp [compareAndSwap, hk, hl, hg]
      | ok current =>
        by_cases hv : current.version = expected
        · refine .inr ⟨hk, rfl, ⟨current, get_eq_ok.1 hg, hv⟩, ?_⟩
          simp [compareAndSwap, hk, hl, hg, hv]
        · simp [compareAndSwap, hk, hl, hg, hv]
  · simp [compareAndSwap, hk]

/-- A commit lets the lock go; before, it may write the replacement in place of the version that was read. -/
theorem commit_cases (s : Store) (h : LockedIntent) :
    ((s.commit h).2 = s.release h.ticket ∧
        ((h.dirty = false ∧ (s.commit h).1 = .ok h.intent) ∨ ∃ e, (s.commit h).1 = .error e)) ∨
      h.dirty = true ∧
        (∃ current, s.intents.get? h.intent.key = some current ∧ current.version = h.readVersion) ∧
        s.commit h = (.ok h.intent, (s.write h.intent (s.log h.intent.key ++
          h.intent.history.drop h.readHistoryLength)).release h.ticket) := by
  cases hd : h.dirty with
  | false => simp [commit, hd]
  | true =>
    cases hg : s.get h.intent.key with
    | error e => simp [commit, hd, hg]
    | ok current =>
      by_cases hv : current.version = h.readVersion
      · refine .inr ⟨rfl, ⟨current, get_eq_ok.1 hg, hv⟩, ?_⟩
        simp [commit, hd, hg, hv]
      · simp [commit, hd, hg, hv]

def Keyed (s : Store) : Prop := ∀ key i, s.intents.get? key = some i → i.key = key

theorem Keyed.sameContents (h : s.Keyed) (hs : s.SameContents s') : s'.Keyed := by
  unfold Keyed
  rw [hs.1]
  exact h

theorem Keyed.write (h : s.Keyed) (i : Intent) (journal : List CorrectionRecord) :
    (s.write i journal).Keyed := by
  intro key j hj
  rw [get?_write] at hj
  split at hj
  · rename_i hk
    cases hj
    exact hk.symm
  · exact h key j hj

theorem insert_ok (h : s.insert i = .ok s') : s.intents.get? i.key = none ∧ s' = s.write i i.history := by
  unfold insert at h
  split at h
  · cases h
  · rename_i hfree
    cases h
    exact ⟨by simpa [Entries.contains] using hfree, rfl⟩

/-- What is true of the empty store, and stays true when an intent is put under a free key, is true of every store
that is made of intents. -/
theorem ofIntents_induction {P : Store → Prop} {is : List Intent} (h : ofIntents is = .ok s) (hempty : P empty)
    (hinsert : ∀ s, ∀ i ∈ is, s.intents.get? i.key = none → P s → P (s.write i i.history)) : P s := by
  unfold ofIntents at h
  generalize empty = start at h hempty
  induction is generalizing start with
  | nil =>
    cases h
    exact hempty
  | cons i is ih =>
    rw [List.foldlM_cons] at h
    cases hi : start.insert i with
    | error e =>
      rw [hi] at h
      cases h
    | ok next =>
      rw [hi] at h
      obtain ⟨hfree, rfl⟩ := insert_ok hi
      exact ih (fun s j hj ↦ hinsert s j (List.mem_cons_of_mem _ hj)) _ h
        (hinsert start i List.mem_cons_self hfree hempty)

def Journaled (s : Store) : Prop :=
  ∀ key, s.log key = ((s.intents.get? key).map Intent.history).getD []

theorem ofIntents_keyed {is : List Intent} (h : ofIntents is = .ok s) : s.Keyed ∧ s.Journaled := by
  have hempty : empty.Keyed ∧ empty.Journaled := ⟨by simp [Keyed, empty], by simp [Journaled, empty, log]⟩
  refine ofIntents_induction (P := fun s ↦ s.Keyed ∧ s.Journaled) h hempty fun s i _ _ hs ↦ ⟨hs.1.write i _, fun key ↦ ?_⟩
  rw [log_write, get?_write]
  split
  · rfl
  · exact hs.2 key

theorem ofIntents_locks {is : List Intent} (h : ofIntents is = .ok s) : s.locks = .empty :=
  ofIntents_induction (P := fun s ↦ s.locks = .empty) h rfl fun _ _ _ _ hs ↦ hs

theorem mem_of_ofIntents {is : List Intent} (h : ofIntents is = .ok s)
    (hi : s.intents.get? key = some i) : i ∈ is := by
  refine ofIntents_induction (P := fun s ↦ ∀ i, s.intents.get? key = some i → i ∈ is) h (by simp [empty])
    (fun s j hj _ hs i hi ↦ ?_) i hi
  rw [get?_write] at hi
  split at hi
  · cases hi
    exact hj
  · exact hs i hi

end IntentCorrection.Store
