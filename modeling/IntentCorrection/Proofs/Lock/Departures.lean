import IntentCorrection.Proofs.Lock.Stages
import Mathlib.Data.Finset.Card

namespace IntentCorrection

inductive LockEvent where
  | arrive (key : String)
  | ask (t : Ticket)
  | resume (t : Ticket)
  | expire (t : Ticket)
  | cancel (t : Ticket)
  | release (t : Ticket)
  deriving DecidableEq

inductive Departure where
  | expired | cancelled | released
  deriving DecidableEq

namespace LockRegistry

def after (r : LockRegistry) : LockEvent → LockRegistry
  | .arrive key => (r.arrive key).2
  | .ask t => r.ask t
  | .resume t => r.resume t
  | .expire t => r.expire t
  | .cancel t => r.cancel t
  | .release t => r.release t

def departure? (r : LockRegistry) : LockEvent → Option (String × Departure)
  | .expire t =>
    match r.claims.get? t with
    | some ⟨key, _, .waiting⟩ => some (key, .expired)
    | _ => none
  | .cancel t =>
    match r.claims.get? t with
    | some ⟨key, _, .waiting⟩ | some ⟨key, _, .granted⟩ => some (key, .cancelled)
    | _ => none
  | .release t =>
    match r.claims.get? t with
    | some ⟨key, _, .holding⟩ => some (key, .released)
    | _ => none
  | _ => none

/-- Someone holds the key, or an acquire of it is pending. -/
def InUse (r : LockRegistry) (key : String) : Prop := ∃ t c, r.claims.get? t = some c ∧ c.key = key

/-- A ticket is cancelled that is not in line: it was handed the lock, or it has not asked for it. -/
def CancelsUnqueued (r : LockRegistry) (e : LockEvent) : Prop :=
  ∃ t c slot, e = .cancel t ∧ r.claims.get? t = some c ∧ c.phase ≠ .holding ∧ r.line c.key = some slot ∧ t ∉ slot.queue

end LockRegistry

structure LockTrace where
  registry : LockRegistry
  /-- Oldest first. -/
  departures : List (String × Departure)

namespace LockTrace

def start : LockTrace := ⟨.empty, []⟩

def reach (s : LockTrace) (r : LockRegistry) (d : Option (String × Departure)) : LockTrace :=
  ⟨r, s.departures ++ d.toList⟩

def next (s : LockTrace) (e : LockEvent) : LockTrace := s.reach (s.registry.after e) (s.registry.departure? e)

def run (es : List LockEvent) : LockTrace := es.foldl next start

def lastDeparture? (s : LockTrace) (key : String) : Option Departure :=
  (s.departures.filter (·.1 = key)).getLast?.map Prod.snd

/-- The last to leave the key was cancelled. -/
def Deserted (s : LockTrace) (key : String) : Prop := s.lastDeparture? key = some .cancelled

end LockTrace

namespace LockRegistry

inductive Happens (r : LockRegistry) (e : LockEvent) : LockRegistry → Option (String × Departure) → Prop
  | nothing : Happens r e r none
  | arrived (key : String) : Happens r e (r.arrive key).2 none
  | stayed {r' : LockRegistry} {t : Ticket} {c : Claim} :
      r.claims.get? t = some c → r' = r.ask t ∨ r' = r.resume t → Happens r e r' none
  | cancelled {t : Ticket} {c : Claim} :
      e = .cancel t → r.claims.get? t = some c → c.phase ≠ .holding → Happens r e (r.leave t) (some (c.key, .cancelled))
  | left {t : Ticket} {c : Claim} {d : Departure} :
      r.claims.get? t = some c → d ≠ .cancelled → Happens r e ((r.leave t).prune c.key) (some (c.key, d))

variable {r r' : LockRegistry} {key other : String} {id : SlotId} {t : Ticket} {slot : Slot} {c : Claim} {e : LockEvent}

theorem happens (r : LockRegistry) (e : LockEvent) : r.Happens e (r.after e) (r.departure? e) := by
  cases e with
  | arrive key => exact .arrived key
  | ask t =>
    cases hc : r.claims.get? t with
    | none =>
      simp only [after, ask, departure?, hc]
      exact .nothing
    | some c => exact .stayed hc (.inl rfl)
  | resume t =>
    cases hc : r.claims.get? t with
    | none =>
      simp only [after, LockRegistry.resume, departure?, hc]
      exact .nothing
    | some c => exact .stayed hc (.inr rfl)
  | expire t =>
    rcases hc : r.claims.get? t with - | ⟨key, id, - | - | -⟩
    case expire.some.waiting =>
      simp only [after, expire_eq hc, departure?, hc]
      exact .left hc (by decide)
    all_goals
      simp only [after, LockRegistry.expire, departure?, hc]
      exact .nothing
  | cancel t =>
    rcases hc : r.claims.get? t with - | ⟨key, id, - | - | -⟩
    case cancel.some.waiting | cancel.some.granted =>
      simp only [after, cancel_eq hc (by simp), departure?, hc]
      exact .cancelled rfl hc (by simp)
    all_goals
      simp only [after, LockRegistry.cancel, departure?, hc]
      exact .nothing
  | release t =>
    rcases hc : r.claims.get? t with - | ⟨key, id, - | - | -⟩
    case release.some.holding =>
      simp only [after, release_eq hc, departure?, hc]
      exact .left hc (by decide)
    all_goals
      simp only [after, LockRegistry.release, departure?, hc]
      exact .nothing

theorem Elsewhere.trans {r'' : LockRegistry} (h : r.Elsewhere r' key) (h' : r'.Elsewhere r'' key) :
    r.Elsewhere r'' key where
  registered other hne := (h'.registered other hne).trans (h.registered other hne)
  line other hne := (h'.line other hne).trans (h.line other hne)
  claims t c hne := (h'.claims t c hne).trans (h.claims t c hne)

theorem Elsewhere.inUse (h : r.Elsewhere r' key) (hne : other ≠ key) : r'.InUse other ↔ r.InUse other := by
  refine exists_congr fun t ↦ exists_congr fun c ↦ and_congr_left ?_
  rintro rfl
  exact h.claims t c hne

@[simp] theorem registered_ask (r : LockRegistry) (t : Ticket) : (r.ask t).registered = r.registered := by
  unfold ask
  split
  · dsimp only
    split
    · rfl
    · split <;> rfl
  · rfl

@[simp] theorem registered_resume (r : LockRegistry) (t : Ticket) : (r.resume t).registered = r.registered := by
  unfold LockRegistry.resume
  split <;> rfl

theorem registered_handOver (r : LockRegistry) (id : SlotId) : (r.handOver id).registered = r.registered := by
  unfold LockRegistry.handOver
  split
  · rfl
  · split <;> rfl

@[simp] theorem registered_leave (r : LockRegistry) (t : Ticket) : (r.leave t).registered = r.registered := by
  unfold leave
  split
  · rfl
  · exact registered_handOver _ _
  · rfl

theorem inUse_stayed (hc : r.claims.get? t = some c) (hr : r' = r.ask t ∨ r' = r.resume t) : r'.InUse c.key := by
  obtain ⟨key, id, phase⟩ := c
  have hold : ∀ phase, (r.claims.insert t ⟨key, id, phase⟩).get? t = some (⟨key, id, phase⟩ : Claim) := by
    intro phase
    rw [Entries.get?_insert, if_pos rfl]
  rcases hr with rfl | rfl
  · cases phase with
    | waiting =>
      simp only [LockRegistry.ask, hc]
      split
      · exact ⟨t, _, hc, rfl⟩
      · split
        · exact ⟨t, _, hold .holding, rfl⟩
        · exact ⟨t, _, hc, rfl⟩
    | granted | holding =>
      simp only [LockRegistry.ask, hc]
      exact ⟨t, _, hc, rfl⟩
  · cases phase with
    | granted =>
      simp only [LockRegistry.resume, hc]
      exact ⟨t, _, hold .holding, rfl⟩
    | waiting | holding =>
      simp only [LockRegistry.resume, hc]
      exact ⟨t, _, hc, rfl⟩

namespace Valid

theorem inUse_arrive (h : r.Valid) (key : String) : (r.arrive key).2.InUse key :=
  ⟨r.nextTicket, ⟨key, (r.slotFor key).1, .waiting⟩, by
    have hnext := (h.slotFor key).2.2.2
    rw [← hnext]
    exact ⟨(Entries.get?_insert _ _ _ _).trans (if_pos rfl), rfl⟩⟩

theorem registered_arrive (h : r.Valid) (key : String) : ((r.arrive key).2.registered.get? key).isSome = true := by
  obtain ⟨-, hkey, -⟩ := h.slotFor key
  have hsame : (r.arrive key).2.registered = (r.slotFor key).2.registered := rfl
  rw [hsame, hkey]
  rfl

theorem registered_of_inUse (h : r.Valid) (hkey : r.InUse key) : (r.registered.get? key).isSome = true := by
  obtain ⟨t, c, hc, rfl⟩ := hkey
  rw [h.claimed t c hc]
  rfl

theorem registered_prune (h : r.Valid) (hsorted : r.claims.Sorted) (key : String) :
    ((r.prune key).registered.get? key).isSome = true ↔ (r.prune key).InUse key := by
  refine ⟨fun hreg ↦ ?_, (h.prune key).1.registered_of_inUse⟩
  unfold LockRegistry.prune at hreg ⊢
  cases hkey : r.registered.get? key with
  | none => simp [hkey] at hreg
  | some id =>
    simp only [hkey] at hreg ⊢
    split at hreg
    · simp [Entries.get?_erase] at hreg
    · rename_i href
      -- Whoever refers to the slot has a claim on the key that it is registered for.
      rw [if_neg href]
      obtain ⟨⟨t, c⟩, hm, hslot⟩ := List.countP_pos_iff.1 (Nat.pos_of_ne_zero href)
      have hc : r.claims.get? t = some c := hsorted.mem_iff.1 hm
      have hreg : r.registered.get? c.key = some id := (h.claimed t c hc).trans (congrArg some (of_decide_eq_true hslot))
      exact ⟨t, c, hc, h.key_eq _ _ _ hreg hkey⟩

theorem inUse_leave (h : r.Valid) (hc : r.claims.get? t = some c) (hline : r.line c.key = some slot)
    (hqueue : t ∈ slot.queue) : (r.leave t).InUse c.key := by
  obtain ⟨id, hkey, hslot⟩ := Option.bind_eq_some_iff.1 hline
  obtain ⟨slot', hslot', hacc⟩ := h.slots c.key id hkey
  obtain rfl := Option.some.inj (hslot.symm.trans hslot')
  have hc' := hacc.queue t hqueue
  -- The holder is another ticket, so its claim does not go.
  obtain ⟨t', c', ht', hkey', hphase⟩ := (h.isLocked_iff c.key).1 (h.isLocked_of_mem_queue hline hqueue)
  have hne : t' ≠ t := by
    rintro rfl
    rw [hc'] at ht'
    exact hphase (congrArg Claim.phase (Option.some.inj ht')).symm
  refine ⟨t', c', ?_, hkey'⟩
  simp only [LockRegistry.leave, hc']
  exact (Entries.get?_erase r.claims t t').trans ((if_neg hne).trans ht')

end Valid

structure Listed (r : LockRegistry) : Prop where
  registered : r.registered.Sorted
  claims : r.claims.Sorted

theorem listed_empty : empty.Listed := ⟨.nil, .nil⟩

namespace Listed

theorem arrive (h : r.Listed) (key : String) : (r.arrive key).2.Listed := by
  unfold LockRegistry.arrive LockRegistry.slotFor
  cases r.registered.get? key with
  | some id => exact ⟨h.registered, h.claims.insert _ _⟩
  | none => exact ⟨h.registered.insert _ _, h.claims.insert _ _⟩

theorem ask (h : r.Listed) (t : Ticket) : (r.ask t).Listed := by
  refine ⟨by simpa using h.registered, ?_⟩
  unfold LockRegistry.ask
  split
  · dsimp only
    split
    · exact h.claims
    · split
      · exact h.claims.insert _ _
      · exact h.claims
  · exact h.claims

theorem resume (h : r.Listed) (t : Ticket) : (r.resume t).Listed := by
  refine ⟨by simpa using h.registered, ?_⟩
  unfold LockRegistry.resume
  split
  · exact h.claims.insert _ _
  · exact h.claims

theorem leave (h : r.Listed) (t : Ticket) : (r.leave t).Listed := by
  refine ⟨by simpa using h.registered, ?_⟩
  have hrest := h.claims.erase t
  unfold LockRegistry.leave
  split
  · exact hrest
  · unfold LockRegistry.handOver
    split
    · exact hrest
    · split
      · exact hrest
      · exact hrest.modify _ _
  · exact h.claims

theorem prune (h : r.Listed) (key : String) : (r.prune key).Listed := by
  unfold LockRegistry.prune
  split
  · split
    · exact ⟨h.registered.erase _, h.claims⟩
    · exact h
  · exact h

theorem activeKeys_eq (h : r.Listed) :
    ∃ keys : Finset String, (∀ key, key ∈ keys ↔ (r.registered.get? key).isSome = true) ∧
      r.activeKeys = keys.card := by
  have hnodup : (r.registered.map Prod.fst).Nodup := h.registered.nodup_keys
  refine ⟨(r.registered.map Prod.fst).toFinset, fun key ↦ ?_, ?_⟩
  · rw [List.mem_toFinset, List.mem_map]
    have hmem := Entries.contains_iff (m := r.registered) (k := key)
    rw [← Entries.contains, hmem]
    simp
  · rw [List.toFinset_card_of_nodup hnodup, List.length_map]
    rfl

end Listed

end LockRegistry

namespace LockTrace

variable {s : LockTrace} {r : LockRegistry} {e : LockEvent} {d : Option (String × Departure)} {key : String}
  {es : List LockEvent}

theorem lastDeparture?_reach (s : LockTrace) (r : LockRegistry) (d : Option (String × Departure)) (key : String) :
    (s.reach r d).lastDeparture? key =
      if d.map Prod.fst = some key then d.map Prod.snd else s.lastDeparture? key := by
  unfold lastDeparture? reach
  cases d with
  | none => simp
  | some x =>
    by_cases hkey : x.1 = key
    · simp [hkey]
    · simp [hkey]

theorem run_concat (es : List LockEvent) (e : LockEvent) : run (es ++ [e]) = (run es).next e := by
  rw [run, List.foldl_append]
  rfl

/-- Whoever is cancelled is in line for the lock. -/
def Queued (es : List LockEvent) : Prop :=
  ∀ before e after, es = before ++ e :: after → ¬(run before).registry.CancelsUnqueued e

theorem Queued.of_concat (h : Queued (es ++ [e])) : Queued es ∧ ¬(run es).registry.CancelsUnqueued e := by
  refine ⟨fun before e' after hes ↦ h before e' (after ++ [e]) ?_, h es e [] rfl⟩
  rw [hes]
  simp

theorem Queued.concat (h : Queued es) (he : ¬(run es).registry.CancelsUnqueued e) : Queued (es ++ [e]) := by
  intro before e' after hes
  rcases List.eq_nil_or_concat after with rfl | ⟨after, last, rfl⟩
  · obtain ⟨rfl, hlast⟩ := List.append_inj' hes rfl
    cases hlast
    exact he
  · have hsplit : es ++ [e] = (before ++ e' :: after) ++ [last] := by simpa using hes
    obtain ⟨rfl, -⟩ := List.append_inj' hsplit rfl
    exact h before e' after rfl

theorem Queued.other (h : Queued es) (he : ∀ t, e ≠ .cancel t) : Queued (es ++ [e]) := by
  apply h.concat
  rintro ⟨t, -, -, rfl, -⟩
  exact he t rfl

/-- A slot is there as long as its key is in use, and stays after that if the last to leave was cancelled. If only
tickets in line were cancelled, the key is in use even so. -/
structure Inv (queued : Prop) (s : LockTrace) : Prop where
  valid : s.registry.Valid
  listed : s.registry.Listed
  registered : ∀ key, (s.registry.registered.get? key).isSome = true ↔ s.registry.InUse key ∨ s.Deserted key
  inUse : queued → ∀ key, s.Deserted key → s.registry.InUse key

variable {queued : Prop}

theorem inv_start : start.Inv queued where
  valid := LockRegistry.valid_empty
  listed := LockRegistry.listed_empty
  registered key := by simp [start, LockRegistry.empty, LockRegistry.InUse, Deserted, lastDeparture?]
  inUse _ key hkey := by simp [start, Deserted, lastDeparture?] at hkey

namespace Inv

/-- It is enough to look at the key that an event is about. -/
theorem reach (h : s.Inv queued) (hvalid : r.Valid) (hlisted : r.Listed) (hother : s.registry.Elsewhere r key)
    (hleft : ∀ x ∈ d, x.1 = key)
    (hkey : (r.registered.get? key).isSome = true ↔ r.InUse key ∨ (s.reach r d).Deserted key)
    (huse : queued → (s.reach r d).Deserted key → r.InUse key) : (s.reach r d).Inv queued := by
  have hsame : ∀ other, other ≠ key → (r.InUse other ↔ s.registry.InUse other) ∧
      ((s.reach r d).Deserted other ↔ s.Deserted other) := by
    intro other hne
    refine ⟨hother.inUse hne, ?_⟩
    rw [Deserted, Deserted, lastDeparture?_reach, if_neg]
    intro hd
    obtain ⟨x, hx, rfl⟩ := Option.map_eq_some_iff.1 hd
    exact hne (hleft x hx)
  refine ⟨hvalid, hlisted, fun other ↦ ?_, fun hqueued other hdeserted ↦ ?_⟩
  · by_cases hne : other = key
    · rw [hne]
      exact hkey
    · obtain ⟨hinUse, hdeserted⟩ := hsame other hne
      change (r.registered.get? other).isSome = true ↔ r.InUse other ∨ _
      rw [hother.registered other hne, h.registered other, hinUse, hdeserted]
  · by_cases hne : other = key
    · rw [hne] at hdeserted ⊢
      exact huse hqueued hdeserted
    · obtain ⟨hinUse, hold⟩ := hsame other hne
      exact hinUse.2 (h.inUse hqueued other (hold.1 hdeserted))

theorem next (h : s.Inv queued) (hqueued : queued → ¬s.registry.CancelsUnqueued e) : (s.next e).Inv queued := by
  unfold LockTrace.next
  have hhappens := s.registry.happens e
  generalize s.registry.after e = r at hhappens ⊢
  generalize s.registry.departure? e = d at hhappens ⊢
  have hv := h.valid
  have hl := h.listed
  cases hhappens with
  | nothing => simpa [LockTrace.reach] using h
  | arrived key =>
    have huse := hv.inUse_arrive key
    exact h.reach (hv.arrive key).1 (hl.arrive key) (hv.elsewhere_arrive key) (by simp)
      (iff_of_true (hv.registered_arrive key) (.inl huse)) fun _ _ ↦ huse
  | @stayed _ t c hc hr =>
    have huse := LockRegistry.inUse_stayed hc hr
    rcases hr with rfl | rfl
    · have hvalid := hv.ask t
      exact h.reach hvalid (hl.ask t) (hv.elsewhere_ask hc) (by simp)
        (iff_of_true (hvalid.registered_of_inUse huse) (.inl huse)) fun _ _ ↦ huse
    · have hvalid := (hv.resume t).1
      exact h.reach hvalid (hl.resume t) (hv.elsewhere_resume hc) (by simp)
        (iff_of_true (hvalid.registered_of_inUse huse) (.inl huse)) fun _ _ ↦ huse
  | @cancelled t c he hc hphase =>
    refine h.reach (hv.leave t) (hl.leave t) (hv.elsewhere_leave hc) (by simp) (iff_of_true ?_ (.inr ?_))
      fun hq _ ↦ ?_
    · rw [LockRegistry.registered_leave]
      exact hv.registered_of_inUse ⟨t, c, hc, rfl⟩
    · simp [Deserted, lastDeparture?_reach]
    · -- A ticket in line leaves the holder behind.
      obtain ⟨slot, hslot, -⟩ := hv.slots c.key c.slot (hv.claimed t c hc)
      have hline : s.registry.line c.key = some slot := (LockRegistry.line_eq (hv.claimed t c hc)).trans hslot
      refine hv.inUse_leave hc hline (Classical.byContradiction fun hnot ↦ hqueued hq ?_)
      exact ⟨t, c, slot, he, hc, hphase, hline, hnot⟩
  | @left t c d hc hd =>
    have hleave := hv.leave t
    have hstayed : ¬(s.reach ((s.registry.leave t).prune c.key) (some (c.key, d))).Deserted c.key := by
      simp [Deserted, lastDeparture?_reach, hd]
    refine h.reach (hleave.prune c.key).1 ((hl.leave t).prune c.key)
      ((hv.elsewhere_leave hc).trans (hleave.elsewhere_prune c.key)) (by simp) ?_ fun _ hkey ↦ absurd hkey hstayed
    rw [hleave.registered_prune (hl.leave t).claims, or_iff_left hstayed]

theorem run (es : List LockEvent) : (run es).Inv (Queued es) := by
  induction es using List.reverseRecOn with
  | nil => exact inv_start
  | append_singleton es e ih =>
    have hweaker : (LockTrace.run es).Inv (Queued (es ++ [e])) :=
      ⟨ih.valid, ih.listed, ih.registered, fun h ↦ ih.inUse h.of_concat.1⟩
    rw [run_concat]
    exact hweaker.next fun h ↦ h.of_concat.2

end Inv

end LockTrace

/-- The keys with a slot are those of which `P` is true, and their number is right. -/
def LockRegistry.Counts (r : LockRegistry) (P : String → Prop) : Prop :=
  (∀ key, (r.registered.get? key).isSome = true ↔ P key) ∧
    ∃ keys : Finset String, (∀ key, key ∈ keys ↔ P key) ∧ r.activeKeys = keys.card

namespace LockTrace

/-- The keys with a slot are those in use, and those that a cancelled ticket was the last to leave. If only tickets
in line are cancelled, the latter are in use too. -/
theorem run_counts (es : List LockEvent) :
    (run es).registry.Counts (fun key ↦ (run es).registry.InUse key ∨ (run es).Deserted key) ∧
      (Queued es → (run es).registry.Counts (run es).registry.InUse ∧
        ((∀ t, (run es).registry.claims.get? t = none) → (run es).registry.activeKeys = 0)) := by
  have hrun := Inv.run es
  obtain ⟨keys, hkeys, hcard⟩ := hrun.listed.activeKeys_eq
  refine ⟨⟨hrun.registered, keys, fun key ↦ (hkeys key).trans (hrun.registered key), hcard⟩, fun hqueued ↦ ?_⟩
  have huse : ∀ key, ((run es).registry.registered.get? key).isSome = true ↔ (run es).registry.InUse key := by
    intro key
    rw [hrun.registered, or_iff_left_of_imp (hrun.inUse hqueued key)]
  refine ⟨⟨huse, keys, fun key ↦ (hkeys key).trans (huse key), hcard⟩, fun hnone ↦ ?_⟩
  rw [hcard, Finset.card_eq_zero, Finset.eq_empty_iff_forall_notMem]
  intro key hmem
  obtain ⟨t, c, hc, -⟩ := (huse key).1 ((hkeys key).1 hmem)
  rw [hnone t] at hc
  cases hc

/-- The second ticket is cancelled while it is in line, and the first is released: no slot is left. -/
theorem run_counts_patient :
    (run [.arrive "a", .ask 0, .arrive "a", .ask 1, .cancel 1, .release 0]).registry.activeKeys = 0 := by
  have hnil : Queued [] := fun before e after h ↦ by simp at h
  have hbefore : Queued [.arrive "a", .ask 0, .arrive "a", .ask 1] :=
    (((hnil.other (by simp)).other (by simp)).other (by simp)).other (by simp)
  have hcancel : Queued [.arrive "a", .ask 0, .arrive "a", .ask 1, .cancel 1] := by
    apply hbefore.concat
    rintro ⟨t, c, slot, hcancelled, hc, -, hline, hnot⟩
    cases hcancelled
    cases hc
    cases hline
    exact hnot (by decide)
  have hqueued : Queued [.arrive "a", .ask 0, .arrive "a", .ask 1, .cancel 1, .release 0] := hcancel.other (by simp)
  exact ((run_counts _).2 hqueued).2 fun t ↦ rfl

/-- The second ticket is handed the lock, and is cancelled before it runs again: nobody is left, and the slot stays. -/
example : (run [.arrive "a", .ask 0, .arrive "a", .ask 1, .release 0, .cancel 1]).registry.claims = [] ∧
    (run [.arrive "a", .ask 0, .arrive "a", .ask 1, .release 0, .cancel 1]).registry.activeKeys = 1 := by
  decide

end LockTrace

end IntentCorrection
