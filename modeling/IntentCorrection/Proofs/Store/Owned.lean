import IntentCorrection.Proofs.Lock.Stages
import IntentCorrection.Proofs.Store.Desk

namespace IntentCorrection

namespace LockRegistry

variable {r r' : LockRegistry} {key : String} {id : SlotId} {t : Ticket} {c : Claim}

/-- A ticket has gone, and no ticket has come. -/
def Without (r r' : LockRegistry) (t : Ticket) : Prop :=
  ∀ t', r'.claims.get? t' ≠ none → t' ≠ t ∧ r.claims.get? t' ≠ none

theorem without_leave (hc : r.claims.get? t = some c) : r.Without (r.leave t) t := by
  have hgone := Entries.get?_erase r.claims t
  have herased : ∀ t', (r.claims.erase t).get? t' ≠ none → t' ≠ t ∧ r.claims.get? t' ≠ none := by
    intro t' ht'
    rw [hgone] at ht'
    split at ht'
    · exact absurd rfl ht'
    · rename_i hne
      exact ⟨hne, ht'⟩
  intro t'
  unfold leave
  rw [hc]
  obtain ⟨key, id, phase⟩ := c
  cases phase with
  | waiting => exact herased t'
  | granted | holding =>
    simp only [handOver]
    split
    · exact herased t'
    · split
      · exact herased t'
      · -- To be handed the lock makes no claim of none.
        rename_i first queue _
        intro ht'
        refine herased t' fun hnone ↦ ht' ?_
        rw [Entries.get?_modify]
        split
        · rename_i heq
          rw [← heq, hnone]
          rfl
        · exact hnone

theorem without_cancel (hc : r.claims.get? t = some c) (hphase : c.phase ≠ .holding) : r.Without (r.cancel t) t := by
  rw [cancel_eq hc hphase]
  exact without_leave hc

namespace Valid

theorem without_release (h : r.Valid) (hc : r.claims.get? t = some ⟨key, id, .holding⟩) :
    r.Without (r.release t) t := by
  have hclaims := ((h.leave t).prune key).2
  unfold Without
  rw [release_eq hc, hclaims]
  exact without_leave hc

theorem without_expire (h : r.Valid) (hc : r.claims.get? t = some ⟨key, id, .waiting⟩) :
    r.Without (r.expire t) t := by
  have hclaims := ((h.leave t).prune key).2
  unfold Without
  rw [expire_eq hc, hclaims]
  exact without_leave hc

end Valid

end LockRegistry

namespace Desk

def Owned (d : Desk) : Prop :=
  ∀ t, d.store.locks.claims.get? t ≠ none → d.pending.get? t ≠ none ∨ d.handles.get? t ≠ none

variable {d d' : Desk} {t : Ticket} {h : LockedIntent} {s : Store} {is : List Intent}

theorem owned_start (hs : Store.ofIntents is = .ok s) : (start s).Owned := by
  intro t ht
  have hlocks : s.locks = .empty := Store.ofIntents_locks hs
  simp [start, hlocks, LockRegistry.empty] at ht

namespace Owned

theorem relocked (ho : d.Owned) (hs : ∀ t, s.locks.claims.get? t ≠ none → d.store.locks.claims.get? t ≠ none) :
    Owned { d with store := s } := fun t ht ↦ ho t (hs t ht)

theorem left (ho : d.Owned) (hs : d.store.locks.Without s.locks t) :
    Owned ⟨s, d.pending.erase t, d.handles⟩ ∧ Owned ⟨s, d.pending, d.handles.erase t⟩ := by
  have hpending := Entries.get?_erase d.pending t
  have hhandles := Entries.get?_erase d.handles t
  constructor
  all_goals
    intro t' ht'
    obtain ⟨hne, hold⟩ := hs t' ht'
  · dsimp only
    rw [hpending, if_neg hne]
    exact ho t' hold
  · dsimp only
    rw [hhandles, if_neg hne]
    exact ho t' hold

theorem returned (ho : d.Owned) (hg : d.Guarded) (ht : d.handles.get? t = some h)
    (hs : s.locks = d.store.locks.release t) : (d.returned t s).Owned := by
  obtain ⟨slot, hc⟩ := (hg.handles t h ht).claim
  refine (ho.left ?_).2
  rw [hs]
  exact hg.locks.without_release hc

theorem asked (ho : d.Owned) (hg : d.Guarded) (key : String) (timeout : Duration) : (d.asked key timeout).Owned := by
  obtain ⟨-, hticket, -, slot, phase, hclaims⟩ := hg.locks.begin key
  intro t ht
  have ht' : (d.store.locks.begin key).2.claims.get? t ≠ none := ht
  rw [hclaims] at ht'
  have hpending : (d.asked key timeout).pending.get? t =
      if t = (d.store.locks.begin key).1 then some (key, timeout) else d.pending.get? t :=
    Entries.get?_insert _ _ _ _
  rw [hpending, hticket]
  split
  · exact .inl (Option.some_ne_none _)
  · rename_i hne
    rw [if_neg hne] at ht'
    exact ho t ht'

theorem step (ho : d.Owned) (hg : d.Guarded) (hs : d.Step d') : d'.Owned := by
  cases hs with
  | insert hi =>
    unfold Store.insert at hi
    split at hi
    · cases hi
    · cases hi
      exact ho
  | read => exact ho
  | swap key i r expected =>
    refine ho.relocked fun t ht ↦ ?_
    rcases d.store.compareAndSwap_cases key i r expected with ⟨hsame, -⟩ | ⟨-, -, -, he⟩
    · rwa [hsame] at ht
    · rwa [he] at ht
  | lookUp key =>
    obtain ⟨-, -, hclaims, -⟩ := hg.locks.slotFor key
    refine ho.relocked fun t ht ↦ ?_
    rwa [Store.registerLock, hclaims] at ht
  | ask key timeout => exact ho.asked hg key timeout
  | resume t =>
    refine ho.relocked fun t' ht' ↦ ?_
    dsimp only at ht'
    unfold LockRegistry.resume at ht'
    split at ht'
    · rename_i key id hc
      rw [Entries.get?_insert] at ht'
      split at ht'
      · rename_i heq
        rw [heq, hc]
        exact Option.some_ne_none _
      · exact ht'
    · exact ht'
  | @openLocked t key timeout ht hphase =>
    obtain ⟨slot, phase, hc⟩ := hg.pending t key timeout ht
    obtain rfl : phase = .holding := by simpa [LockRegistry.phase?, hc] using hphase
    rcases d.store.openLocked_cases t key with ⟨e, -, he⟩ | ⟨i, -, he⟩
    · rw [he]
      exact (ho.left (hg.locks.without_release hc)).1
    · rw [he]
      intro t' ht'
      simp only [Desk.served, Entries.get?_erase, Entries.get?_insert]
      split
      · exact .inr (Option.some_ne_none _)
      · exact ho t' ht'
  | @expire t key timeout ht hphase =>
    obtain ⟨slot, phase, hc⟩ := hg.pending t key timeout ht
    obtain rfl : phase = .waiting := by simpa [LockRegistry.phase?, hc] using hphase
    exact (ho.left (hg.locks.without_expire hc)).1
  | @cancel t key timeout ht hphase =>
    obtain ⟨slot, phase, hc⟩ := hg.pending t key timeout ht
    have hne : phase ≠ .holding := by simpa [LockRegistry.phase?, hc] using hphase
    exact (ho.left (LockRegistry.without_cancel hc hne)).1
  | @replace t h i ht hkey =>
    intro t' ht'
    dsimp only
    rw [Entries.get?_insert]
    split
    · exact .inr (Option.some_ne_none _)
    · exact ho t' ht'
  | @commit t h ht =>
    refine ho.returned hg ht ?_
    have hticket := (hg.handles t h ht).ticket
    rcases d.store.commit_cases h with ⟨hs, -⟩ | ⟨-, -, he⟩
    · rw [hs, hticket]
      rfl
    · rw [he, hticket]
      rfl
  | @abort t h ht =>
    refine ho.returned hg ht ?_
    rw [Store.abort, (hg.handles t h ht).ticket]
    rfl

end Owned

theorem Guarded.owned_run (hg : d.Guarded) (ho : d.Owned) (hr : d.Run d') : d'.Owned := by
  induction hr with
  | nil => exact ho
  | snoc hr hs ih => exact ih.step (hg.run hr) hs

theorem Owned.claim_of_gone (ho : d.Owned) (hgone : d.Gone t) : d.store.locks.claims.get? t = none := by
  refine Classical.byContradiction fun hc ↦ ?_
  rcases ho t hc with hpending | hhandles
  · exact hpending hgone.pending
  · exact hhandles hgone.handles

end Desk

end IntentCorrection
