import IntentCorrection.Proofs.Lock.Registry
import IntentCorrection.Proofs.Store.Contents

namespace IntentCorrection

structure Desk where
  store : Store
  /-- Who asked for a lock and was not served yet, with the key and how long they may wait. -/
  pending : Entries Ticket (String × Duration)
  handles : Entries Ticket LockedIntent

namespace Desk

def start (s : Store) : Desk := ⟨s, [], []⟩

def asked (d : Desk) (key : String) (timeout : Duration) : Desk where
  store := (d.store.beginLock key).2
  pending := d.pending.insert (d.store.beginLock key).1 (key, timeout)
  handles := d.handles

def served (d : Desk) (t : Ticket) (result : Except StorageError LockedIntent × Store) : Desk where
  store := result.2
  pending := d.pending.erase t
  handles :=
    match result.1 with
    | .ok h => d.handles.insert t h
    | .error _ => d.handles

def returned (d : Desk) (t : Ticket) (s : Store) : Desk := { d with store := s, handles := d.handles.erase t }

inductive Step (d : Desk) : Desk → Prop
  | insert {i : Intent} {s : Store} : d.store.insert i = .ok s → Step d { d with store := s }
  /-- Gets an intent, or lists them. -/
  | read : Step d d
  | swap (key : String) (i : Intent) (r : CorrectionRecord) (expected : Nat) :
      Step d { d with store := (d.store.compareAndSwap key i r expected).2 }
  /-- Looks a lock up without asking for it. -/
  | lookUp (key : String) : Step d { d with store := d.store.registerLock key }
  | ask (key : String) (timeout : Duration) : Step d (d.asked key timeout)
  /-- Runs again if the lock was handed over. -/
  | resume (t : Ticket) : Step d { d with store := { d.store with locks := d.store.locks.resume t } }
  | openLocked {t : Ticket} {key : String} {timeout : Duration} : d.pending.get? t = some (key, timeout) →
      d.store.locks.phase? t = some .holding → Step d (d.served t (d.store.openLocked t key))
  | expire {t : Ticket} {key : String} {timeout : Duration} : d.pending.get? t = some (key, timeout) →
      d.store.locks.phase? t = some .waiting →
      Step d (d.served t ((d.store.expireLock t key timeout).map .error id))
  | cancel {t : Ticket} {key : String} {timeout : Duration} : d.pending.get? t = some (key, timeout) →
      d.store.locks.phase? t ≠ some .holding →
      Step d { d with store := d.store.cancelLock t, pending := d.pending.erase t }
  | replace {t : Ticket} {h : LockedIntent} {i : Intent} : d.handles.get? t = some h →
      i.key = h.intent.key → Step d { d with handles := d.handles.insert t (h.replace i) }
  | commit {t : Ticket} {h : LockedIntent} : d.handles.get? t = some h →
      Step d (d.returned t (d.store.commit h).2)
  /-- Aborts or drops a handle. -/
  | abort {t : Ticket} {h : LockedIntent} : d.handles.get? t = some h →
      Step d (d.returned t (d.store.abort h))

inductive Run (d : Desk) : Desk → Prop
  | nil : Run d d
  | snoc {d₁ d₂ : Desk} : Run d d₁ → Step d₁ d₂ → Run d d₂

theorem Run.trans {d d₁ d₂ : Desk} (h : d.Run d₁) (h' : d₁.Run d₂) : d.Run d₂ := by
  induction h' with
  | nil => exact h
  | snoc _ hs ih => exact ih.snoc hs

/-- What a step can do. Contents change by one write at most: to a key that no handle is out for, or to the key of
the handle that goes with it. -/
inductive Effect (d : Desk) : Desk → Prop
  | relocked {locks : LockRegistry} : locks.Valid → (∀ t, d.store.locks.Keeps locks t) →
      locks.nextTicket = d.store.locks.nextTicket → Effect d { d with store := { d.store with locks := locks } }
  | written {i : Intent} {journal : List CorrectionRecord} :
      (∀ t h, d.handles.get? t = some h → h.intent.key ≠ i.key) →
      Effect d { d with store := d.store.write i journal }
  | asked (key : String) (timeout : Duration) : Effect d (d.asked key timeout)
  | opened {t : Ticket} {key : String} {timeout : Duration} {slot : SlotId} {i : Intent} :
      d.pending.get? t = some (key, timeout) → d.store.locks.claims.get? t = some ⟨key, slot, .holding⟩ →
      d.store.intents.get? key = some i →
      Effect d ⟨d.store, d.pending.erase t, d.handles.insert t ⟨t, i, i.version, i.history.length, false⟩⟩
  | replaced {t : Ticket} {h : LockedIntent} {i : Intent} : d.handles.get? t = some h → i.key = h.intent.key →
      Effect d { d with handles := d.handles.insert t (h.replace i) }
  | left {t : Ticket} {s : Store} {locks : LockRegistry} : t < d.store.locks.nextTicket →
      (s = d.store ∨ ∃ h i journal, d.handles.get? t = some h ∧ i.key = h.intent.key ∧ s = d.store.write i journal) →
      locks.Valid → (∀ t', t' ≠ t → d.store.locks.Keeps locks t') →
      locks.nextTicket = d.store.locks.nextTicket →
      Effect d ⟨{ s with locks := locks }, d.pending.erase t, d.handles.erase t⟩

end Desk

/-- A handle has the lock, and shows the version of the stored intent; without a replacement, all of it. -/
structure Store.Guards (s : Store) (t : Ticket) (h : LockedIntent) : Prop where
  ticket : h.ticket = t
  claim : ∃ slot, s.locks.claims.get? t = some ⟨h.intent.key, slot, .holding⟩
  current : ∃ i, s.intents.get? h.intent.key = some i ∧ i.version = h.readVersion ∧ (h.dirty = false → h.intent = i)

theorem Store.Guards.congr {s s' : Store} {t : Ticket} {h : LockedIntent} (hg : s.Guards t h)
    (hkeep : s.locks.Keeps s'.locks t) (hsame : s'.intents.get? h.intent.key = s.intents.get? h.intent.key) :
    s'.Guards t h := by
  obtain ⟨ht, ⟨slot, hc⟩, hcurrent⟩ := hg
  obtain ⟨phase, hc', hphase⟩ := hkeep _ hc
  obtain rfl : phase = .holding := hphase rfl
  exact ⟨ht, ⟨slot, hc'⟩, by rw [hsame]; exact hcurrent⟩

namespace Desk

structure Guarded (d : Desk) : Prop where
  keyed : d.store.Keyed
  locks : d.store.locks.Valid
  pending : ∀ t key timeout, d.pending.get? t = some (key, timeout) →
    ∃ slot phase, d.store.locks.claims.get? t = some ⟨key, slot, phase⟩
  handles : ∀ t h, d.handles.get? t = some h → d.store.Guards t h
  apart : ∀ t x, d.pending.get? t = some x → d.handles.get? t = none

variable {d d' : Desk} {t t' : Ticket} {h h' : LockedIntent} {s : Store} {i : Intent}

theorem guarded_start {is : List Intent} (hs : Store.ofIntents is = .ok s) : (start s).Guarded := by
  have hlocks : s.locks = .empty := Store.ofIntents_locks hs
  refine ⟨(Store.ofIntents_keyed hs).1, ?_, ?_, ?_, ?_⟩
  · exact hlocks ▸ LockRegistry.valid_empty
  all_goals simp [start]

namespace Guarded

theorem unique (hg : d.Guarded) (ht : d.handles.get? t = some h) (ht' : d.handles.get? t' = some h')
    (hkey : h'.intent.key = h.intent.key) : t' = t := by
  obtain ⟨slot, hc⟩ := (hg.handles t h ht).claim
  obtain ⟨slot', hc'⟩ := (hg.handles t' h' ht').claim
  rw [hkey] at hc'
  exact hg.locks.holder_unique hc hc'

theorem lt_of_handle (hg : d.Guarded) (ht : d.handles.get? t = some h) : t < d.store.locks.nextTicket := by
  obtain ⟨slot, hc⟩ := (hg.handles t h ht).claim
  exact hg.locks.ticket_lt t _ hc

theorem lt_of_pending (hg : d.Guarded) {x : String × Duration} (ht : d.pending.get? t = some x) :
    t < d.store.locks.nextTicket := by
  obtain ⟨slot, phase, hc⟩ := hg.pending t x.1 x.2 ht
  exact hg.locks.ticket_lt t _ hc

theorem commit_ok (hg : d.Guarded) (ht : d.handles.get? t = some h) : (d.store.commit h).1 = .ok h.intent := by
  obtain ⟨j, hj, hv, -⟩ := (hg.handles t h ht).current
  cases hd : h.dirty with
  | false => simp [Store.commit, hd]
  | true =>
    have hget : d.store.get h.intent.key = .ok j := Store.get_eq_ok.2 hj
    simp [Store.commit, hd, hget, hv]

theorem left_of_pending (hg : d.Guarded) {x : String × Duration} {locks : LockRegistry}
    (ht : d.pending.get? t = some x) (hv : locks.Valid) (hkeep : ∀ t', t' ≠ t → d.store.locks.Keeps locks t')
    (hnext : locks.nextTicket = d.store.locks.nextTicket) :
    d.Effect { d with store := { d.store with locks := locks }, pending := d.pending.erase t } := by
  have heffect : d.Effect ⟨{ d.store with locks := locks }, d.pending.erase t, d.handles.erase t⟩ :=
    .left (hg.lt_of_pending ht) (.inl rfl) hv hkeep hnext
  rw [Entries.erase_eq_self (hg.apart t x ht)] at heffect
  exact heffect

theorem left_of_handle (hg : d.Guarded) (ht : d.handles.get? t = some h)
    (hs : s = d.store ∨ ∃ i journal, i.key = h.intent.key ∧ s = d.store.write i journal) :
    d.Effect (d.returned t (s.release t)) := by
  have hlocks : s.locks = d.store.locks := by
    rcases hs with rfl | ⟨i, journal, -, rfl⟩
    all_goals rfl
  have hpending : d.pending.erase t = d.pending := by
    refine Entries.erase_eq_self (Option.eq_none_iff_forall_ne_some.2 fun x hx ↦ ?_)
    rw [hg.apart t x hx] at ht
    cases ht
  obtain ⟨hv, hkeep⟩ := hg.locks.release t
  have heffect : d.Effect ⟨{ s with locks := d.store.locks.release t }, d.pending.erase t, d.handles.erase t⟩ :=
    .left (hg.lt_of_handle ht) (hs.imp_right fun ⟨i, journal, hi, he⟩ ↦ ⟨h, i, journal, ht, hi, he⟩) hv hkeep (by simp)
  rw [hpending] at heffect
  rw [returned, Store.release, hlocks]
  exact heffect

theorem effect (hg : d.Guarded) (hs : d.Step d') : d.Effect d' := by
  cases hs with
  | @insert i s hi =>
    unfold Store.insert at hi
    split at hi
    · cases hi
    · rename_i hnew
      cases hi
      -- The intent of a handle is stored, so the key of the new one is another.
      refine .written fun t h ht hkey ↦ hnew ?_
      obtain ⟨j, hj, -⟩ := (hg.handles t h ht).current
      rw [← hkey, Entries.contains, hj]
      rfl
  | read => exact .relocked hg.locks (fun _ ↦ .of_eq rfl) rfl
  | swap key i r expected =>
    rcases d.store.compareAndSwap_cases key i r expected with ⟨hsame, -⟩ | ⟨rfl, hfree, -, he⟩
    · rw [hsame]
      exact .relocked hg.locks (fun _ ↦ .of_eq rfl) rfl
    · rw [he]
      refine .written fun t h ht hkey ↦ ?_
      obtain ⟨slot, hc⟩ := (hg.handles t h ht).claim
      have hlocked := hg.locks.isLocked hc
      rw [hkey, hfree] at hlocked
      cases hlocked
  | lookUp key =>
    obtain ⟨hv, -, hclaims, hnext⟩ := hg.locks.slotFor key
    exact .relocked hv (fun _ ↦ .of_eq (by rw [hclaims])) hnext
  | ask key timeout => exact .asked key timeout
  | resume t =>
    obtain ⟨hv, hkeep⟩ := hg.locks.resume t
    exact .relocked hv hkeep (by simp)
  | @openLocked t key timeout ht hphase =>
    rcases d.store.openLocked_cases t key with ⟨e, -, he⟩ | ⟨i, hget, he⟩
    · obtain ⟨hv, hkeep⟩ := hg.locks.release t
      rw [he]
      exact hg.left_of_pending ht hv hkeep (by simp)
    · obtain ⟨slot, phase, hc⟩ := hg.pending t key timeout ht
      obtain rfl : phase = .holding := by simpa [LockRegistry.phase?, hc] using hphase
      rw [he]
      exact .opened ht hc (Store.get_eq_ok.1 hget)
  | @expire t key timeout ht _ =>
    obtain ⟨hv, hkeep⟩ := hg.locks.expire t
    exact hg.left_of_pending ht hv hkeep (by simp)
  | @cancel t key timeout ht _ =>
    obtain ⟨hv, hkeep⟩ := hg.locks.cancel t
    exact hg.left_of_pending ht hv hkeep (by simp)
  | replace ht hkey => exact .replaced ht hkey
  | @commit t h ht =>
    have hticket := (hg.handles t h ht).ticket
    rcases d.store.commit_cases h with ⟨hs, -⟩ | ⟨-, -, he⟩
    · rw [hs, hticket]
      exact hg.left_of_handle ht (.inl rfl)
    · rw [he, hticket]
      exact hg.left_of_handle ht (.inr ⟨h.intent, _, rfl, rfl⟩)
  | @abort t h ht =>
    rw [Store.abort, (hg.handles t h ht).ticket]
    exact hg.left_of_handle ht (.inl rfl)

/-- Who goes leaves the keys of the other handles alone. -/
theorem get?_of_left (hg : d.Guarded)
    (hs : s = d.store ∨ ∃ h i journal, d.handles.get? t = some h ∧ i.key = h.intent.key ∧ s = d.store.write i journal)
    (hne : t' ≠ t) (ht' : d.handles.get? t' = some h') :
    s.intents.get? h'.intent.key = d.store.intents.get? h'.intent.key ∧
      s.log h'.intent.key = d.store.log h'.intent.key := by
  rcases hs with rfl | ⟨h, i, journal, ht, hkey, rfl⟩
  · exact ⟨rfl, rfl⟩
  · have hother : h'.intent.key ≠ i.key := fun he ↦ hne (hg.unique ht ht' (he.trans hkey))
    exact ⟨by rw [Store.get?_write, if_neg hother], by rw [Store.log_write, if_neg hother]⟩

theorem relocked (hg : d.Guarded) {locks : LockRegistry} (hv : locks.Valid)
    (hkeep : ∀ t, d.store.locks.Keeps locks t) : Guarded { d with store := { d.store with locks := locks } } := by
  refine ⟨hg.keyed, hv, fun t key timeout ht ↦ ?_, fun t h ht ↦ (hg.handles t h ht).congr (hkeep t) rfl, hg.apart⟩
  obtain ⟨slot, phase, hc⟩ := hg.pending t key timeout ht
  obtain ⟨phase', hc', -⟩ := hkeep t _ hc
  exact ⟨slot, phase', hc'⟩

theorem written (hg : d.Guarded) (journal : List CorrectionRecord)
    (hother : ∀ t h, d.handles.get? t = some h → h.intent.key ≠ i.key) :
    Guarded { d with store := d.store.write i journal } := by
  refine ⟨hg.keyed.write i journal, hg.locks, hg.pending, fun t h ht ↦ ?_, hg.apart⟩
  have hkey := hother t h ht
  exact (hg.handles t h ht).congr (.of_eq rfl) (by rw [Store.get?_write, if_neg hkey])

/-- The new ticket is not one of a handle, so it is pending under a claim of its own. -/
theorem asked (hg : d.Guarded) (key : String) (timeout : Duration) : (d.asked key timeout).Guarded := by
  obtain ⟨hv, hticket, -, slot, phase, hclaims⟩ := hg.locks.begin key
  have hfree : d.handles.get? d.store.locks.nextTicket = none := by
    refine Option.eq_none_iff_forall_ne_some.2 fun h ht ↦ ?_
    exact absurd (hg.lt_of_handle ht) (Nat.lt_irrefl _)
  have hpending := fun t ↦ Entries.get?_insert d.store.locks.nextTicket t (key, timeout) d.pending
  have hclaims' : ∀ t, (d.asked key timeout).store.locks.claims.get? t =
      if t = d.store.locks.nextTicket then some ⟨key, slot, phase⟩ else d.store.locks.claims.get? t := hclaims
  have hasked : ∀ t, (d.asked key timeout).pending.get? t =
      if t = d.store.locks.nextTicket then some (key, timeout) else d.pending.get? t := by
    intro t
    rw [← hpending, ← hticket]
    rfl
  refine ⟨hg.keyed, hv, fun t key' timeout' ht ↦ ?_, fun t h ht ↦ ?_, fun t x ht ↦ ?_⟩
  · rw [hasked] at ht
    rw [hclaims']
    split at ht
    · rename_i hnew
      cases ht
      exact ⟨slot, phase, if_pos hnew⟩
    · rename_i hold
      rw [if_neg hold]
      exact hg.pending t key' timeout' ht
  · have hold := Nat.ne_of_lt (hg.lt_of_handle ht)
    exact (hg.handles t h ht).congr (.of_eq (by rw [hclaims', if_neg hold])) rfl
  · rw [hasked] at ht
    split at ht
    · rename_i hnew
      rw [hnew]
      exact hfree
    · exact hg.apart t x ht

theorem opened (hg : d.Guarded) {key : String} {slot : SlotId}
    (hc : d.store.locks.claims.get? t = some ⟨key, slot, .holding⟩) (hi : d.store.intents.get? key = some i) :
    Guarded ⟨d.store, d.pending.erase t, d.handles.insert t ⟨t, i, i.version, i.history.length, false⟩⟩ := by
  have hpending := Entries.get?_erase d.pending t
  have hhandles := fun t' ↦
    Entries.get?_insert t t' (⟨t, i, i.version, i.history.length, false⟩ : LockedIntent) d.handles
  refine ⟨hg.keyed, hg.locks, fun t' key' timeout' ht' ↦ ?_, fun t' h ht' ↦ ?_, fun t' x ht' ↦ ?_⟩
  · rw [hpending] at ht'
    split at ht'
    · cases ht'
    · exact hg.pending t' key' timeout' ht'
  · rw [hhandles] at ht'
    split at ht'
    · rename_i he
      cases ht'
      obtain rfl : i.key = key := hg.keyed key i hi
      exact ⟨he.symm, ⟨slot, he ▸ hc⟩, i, hi, rfl, fun _ ↦ rfl⟩
    · exact hg.handles t' h ht'
  · rw [hpending] at ht'
    rw [hhandles]
    split at ht'
    · cases ht'
    · rename_i hne
      rw [if_neg hne]
      exact hg.apart t' x ht'

theorem replaced (hg : d.Guarded) (ht : d.handles.get? t = some h) (hkey : i.key = h.intent.key) :
    Guarded { d with handles := d.handles.insert t (h.replace i) } := by
  have hhandles := fun t' ↦ Entries.get?_insert t t' (h.replace i) d.handles
  refine ⟨hg.keyed, hg.locks, hg.pending, fun t' h' ht' ↦ ?_, fun t' x ht' ↦ ?_⟩
  · rw [hhandles] at ht'
    split at ht'
    · rename_i he
      cases ht'
      obtain ⟨hticket, hclaim, j, hj, hv, -⟩ := hg.handles t h ht
      have hi : (h.replace i).intent.key = h.intent.key := hkey
      rw [← hi] at hclaim hj
      rw [he]
      exact ⟨hticket, hclaim, j, hj, hv, (fun h ↦ by cases h)⟩
    · exact hg.handles t' h' ht'
  · rw [hhandles, if_neg]
    · exact hg.apart t' x ht'
    · rintro rfl
      rw [hg.apart t' x ht'] at ht
      cases ht

theorem left (hg : d.Guarded) {locks : LockRegistry}
    (hs : s = d.store ∨ ∃ h i journal, d.handles.get? t = some h ∧ i.key = h.intent.key ∧ s = d.store.write i journal)
    (hv : locks.Valid) (hkeep : ∀ t', t' ≠ t → d.store.locks.Keeps locks t') :
    Guarded ⟨{ s with locks := locks }, d.pending.erase t, d.handles.erase t⟩ := by
  have hpending := Entries.get?_erase d.pending t
  have hhandles := Entries.get?_erase d.handles t
  refine ⟨?_, hv, fun t' key timeout ht' ↦ ?_, fun t' h' ht' ↦ ?_, fun t' x ht' ↦ ?_⟩
  · rcases hs with rfl | ⟨h, i, journal, -, -, rfl⟩
    · exact hg.keyed
    · exact hg.keyed.write i journal
  · rw [hpending] at ht'
    split at ht'
    · cases ht'
    · rename_i hne
      obtain ⟨slot, phase, hc⟩ := hg.pending t' key timeout ht'
      obtain ⟨phase', hc', -⟩ := hkeep t' hne _ hc
      exact ⟨slot, phase', hc'⟩
  · rw [hhandles] at ht'
    split at ht'
    · cases ht'
    · rename_i hne
      exact (hg.handles t' h' ht').congr (hkeep t' hne) (hg.get?_of_left hs hne ht').1
  · rw [hpending] at ht'
    rw [hhandles]
    split at ht'
    · cases ht'
    · rename_i hne
      rw [if_neg hne]
      exact hg.apart t' x ht'

theorem of_effect (hg : d.Guarded) (he : d.Effect d') : d'.Guarded := by
  cases he with
  | relocked hv hkeep _ => exact hg.relocked hv hkeep
  | written hother => exact hg.written _ hother
  | asked key timeout => exact hg.asked key timeout
  | opened _ hc hi => exact hg.opened hc hi
  | replaced ht hkey => exact hg.replaced ht hkey
  | left _ hs hv hkeep _ => exact hg.left hs hv hkeep

theorem step (hg : d.Guarded) (hs : d.Step d') : d'.Guarded := hg.of_effect (hg.effect hs)

theorem run (hg : d.Guarded) (hr : d.Run d') : d'.Guarded := by
  induction hr with
  | nil => exact hg
  | snoc _ hs ih => exact ih.step hs

end Guarded

/-- A ticket that was used and is out no more. -/
structure Gone (d : Desk) (t : Ticket) : Prop where
  lt : t < d.store.locks.nextTicket
  pending : d.pending.get? t = none
  handles : d.handles.get? t = none

theorem Gone.step (hgone : d.Gone t) (hg : d.Guarded) (hs : d.Step d') : d'.Gone t := by
  obtain ⟨hlt, hpending, hhandles⟩ := hgone
  cases hg.effect hs with
  | relocked _ _ hnext => exact ⟨by rw [hnext]; exact hlt, hpending, hhandles⟩
  | written _ => exact ⟨hlt, hpending, hhandles⟩
  | asked key timeout =>
    obtain ⟨-, hticket, hnext, -⟩ := hg.locks.begin key
    refine ⟨?_, ?_, hhandles⟩
    · calc t < d.store.locks.nextTicket + 1 := Nat.lt_succ_of_lt hlt
        _ = _ := hnext.symm
    · have hne : t ≠ (d.store.beginLock key).1 := by
        rintro rfl
        exact absurd (hticket ▸ hlt) (Nat.lt_irrefl _)
      rw [Desk.asked, Entries.get?_insert, if_neg hne, hpending]
  | @opened t' key timeout slot i ht hc hi =>
    have hne : t ≠ t' := by
      rintro rfl
      rw [hpending] at ht
      cases ht
    exact ⟨hlt, by rw [Entries.get?_erase, hpending, ite_self], by rw [Entries.get?_insert, if_neg hne, hhandles]⟩
  | @replaced t' h i ht hkey =>
    have hne : t ≠ t' := by
      rintro rfl
      rw [hhandles] at ht
      cases ht
    exact ⟨hlt, hpending, by rw [Entries.get?_insert, if_neg hne, hhandles]⟩
  | left _ _ _ _ hnext =>
    exact ⟨by dsimp only; rw [hnext]; exact hlt, by rw [Entries.get?_erase, hpending, ite_self],
      by rw [Entries.get?_erase, hhandles, ite_self]⟩

structure Kept (d d' : Desk) (t : Ticket) (h : LockedIntent) : Prop where
  handle : ∃ h', d'.handles.get? t = some h' ∧ h'.intent.key = h.intent.key
  intent : d'.store.intents.get? h.intent.key = d.store.intents.get? h.intent.key
  journal : d'.store.log h.intent.key = d.store.log h.intent.key

/-- A handle goes, or its intent and its journal stay as they are. -/
theorem Guarded.step_kept (hg : d.Guarded) (hs : d.Step d') (ht : d.handles.get? t = some h) :
    d'.Gone t ∨ d.Kept d' t h := by
  cases hg.effect hs with
  | relocked _ _ _ => exact .inr ⟨⟨h, ht, rfl⟩, rfl, rfl⟩
  | written hother =>
    have hkey := hother t h ht
    exact .inr ⟨⟨h, ht, rfl⟩, by rw [Store.get?_write, if_neg hkey], by rw [Store.log_write, if_neg hkey]⟩
  | asked key timeout => exact .inr ⟨⟨h, ht, rfl⟩, rfl, rfl⟩
  | @opened t' key timeout slot i ht' _ _ =>
    have hne : t ≠ t' := by
      rintro rfl
      rw [hg.apart t _ ht'] at ht
      cases ht
    exact .inr ⟨⟨h, by rw [Entries.get?_insert, if_neg hne, ht], rfl⟩, rfl, rfl⟩
  | @replaced t' h' i ht' hkey =>
    by_cases he : t = t'
    · subst he
      obtain rfl := Option.some.inj (ht.symm.trans ht')
      exact .inr ⟨⟨h.replace i, by rw [Entries.get?_insert, if_pos rfl], hkey⟩, rfl, rfl⟩
    · exact .inr ⟨⟨h, by rw [Entries.get?_insert, if_neg he, ht], rfl⟩, rfl, rfl⟩
  | @left t' s locks hlt hs' hv hkeep hnext =>
    by_cases he : t = t'
    · subst he
      exact .inl ⟨by dsimp only; rw [hnext]; exact hlt, by rw [Entries.get?_erase, if_pos rfl],
        by rw [Entries.get?_erase, if_pos rfl]⟩
    · obtain ⟨hintent, hjournal⟩ := hg.get?_of_left hs' he ht
      exact .inr ⟨⟨h, by rw [Entries.get?_erase, if_neg he, ht], rfl⟩, hintent, hjournal⟩

theorem Guarded.run_kept (hg : d.Guarded) (hr : d.Run d') (ht : d.handles.get? t = some h) :
    d'.Gone t ∨ d.Kept d' t h := by
  induction hr with
  | nil => exact .inr ⟨⟨h, ht, rfl⟩, rfl, rfl⟩
  | snoc hr hs ih =>
    have hg₁ := hg.run hr
    rcases ih with hgone | ⟨⟨h₁, ht₁, hkey⟩, hintent, hjournal⟩
    · exact .inl (hgone.step hg₁ hs)
    · rcases hg₁.step_kept hs ht₁ with hgone | ⟨⟨h₂, ht₂, hkey₂⟩, hintent₂, hjournal₂⟩
      · exact .inl hgone
      · rw [hkey] at hintent₂ hjournal₂
        exact .inr ⟨⟨h₂, ht₂, hkey₂.trans hkey⟩, hintent₂.trans hintent, hjournal₂.trans hjournal⟩

end Desk

end IntentCorrection
