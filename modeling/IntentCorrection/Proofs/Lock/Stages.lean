import IntentCorrection.Proofs.Entries
import IntentCorrection.Proofs.Lock.Registry

namespace IntentCorrection

namespace LockRegistry

/-- A ticket for the slot of the key. It refers to the slot and is not in its queue yet. -/
def arrive (r : LockRegistry) (key : String) : Ticket × LockRegistry :=
  let (id, r) := r.slotFor key
  (r.nextTicket,
    { r with
      claims := r.claims.insert r.nextTicket ⟨key, id, .waiting⟩
      nextTicket := r.nextTicket + 1 })

def ask (r : LockRegistry) (t : Ticket) : LockRegistry :=
  match r.claims.get? t with
  | some ⟨key, id, .waiting⟩ =>
    let slot := (r.slots.get? id).getD ⟨none, []⟩
    if t ∈ slot.queue then r
    else if slot.holder.isNone then
      { r with
        slots := r.slots.insert id ⟨some t, slot.queue⟩
        claims := r.claims.insert t ⟨key, id, .holding⟩ }
    else { r with slots := r.slots.insert id ⟨slot.holder, slot.queue ++ [t]⟩ }
  | _ => r

def leave (r : LockRegistry) (t : Ticket) : LockRegistry :=
  match r.claims.get? t with
  | some ⟨_, id, .waiting⟩ => { r.leaveQueue id t with claims := r.claims.erase t }
  | some ⟨_, id, _⟩ => { r with claims := r.claims.erase t }.handOver id
  | none => r

/-- Who has the lock on a key and who waits in line for it, if the key has a slot. -/
def line (r : LockRegistry) (key : String) : Option Slot := (r.registered.get? key).bind r.slots.get?

variable {r r' : LockRegistry} {key : String} {id : SlotId} {t : Ticket} {slot : Slot} {c : Claim}

theorem line_eq (h : r.registered.get? key = some id) : r.line key = r.slots.get? id := by
  simp [line, h]

theorem line_congr (hreg : r'.registered.get? key = r.registered.get? key)
    (hslots : ∀ id, r.registered.get? key = some id → r'.slots.get? id = r.slots.get? id) : r'.line key = r.line key := by
  unfold line
  rw [hreg]
  cases hkey : r.registered.get? key with
  | none => rfl
  | some id => exact hslots id hkey

theorem begin_eq (h : r.Valid) (key : String) :
    r.begin key = ((r.arrive key).1, (r.arrive key).2.ask (r.arrive key).1) := by
  obtain ⟨hv, hkey, -, -⟩ := h.slotFor key
  unfold LockRegistry.begin LockRegistry.arrive
  generalize r.slotFor key = x at hv hkey
  obtain ⟨id, r₁⟩ := x
  obtain ⟨slot, hslot, hacc⟩ := hv.slots key id hkey
  have hnew : r₁.nextTicket ∉ slot.queue := by
    intro hm
    exact absurd (hv.ticket_lt _ _ (hacc.queue _ hm)) (Nat.lt_irrefl _)
  dsimp only at hslot ⊢
  cases hh : slot.holder with
  | none => simp [ask, Entries.get?_insert, Entries.insert_insert, hslot, hnew, hh]
  | some holder => simp [ask, Entries.get?_insert, hslot, hnew, hh]

theorem expire_eq (hc : r.claims.get? t = some ⟨key, id, .waiting⟩) : r.expire t = (r.leave t).prune key := by
  simp only [LockRegistry.expire, leave, hc]
  rfl

theorem cancel_eq (hc : r.claims.get? t = some c) (hphase : c.phase ≠ .holding) : r.cancel t = r.leave t := by
  obtain ⟨key, id, phase⟩ := c
  cases phase with
  | waiting =>
    simp only [LockRegistry.cancel, leave, hc]
    rfl
  | granted => simp only [LockRegistry.cancel, leave, hc]
  | holding => exact absurd rfl hphase

theorem release_eq (hc : r.claims.get? t = some ⟨key, id, .holding⟩) : r.release t = (r.leave t).prune key := by
  simp only [LockRegistry.release, leave, hc]

namespace Valid

theorem arrive (h : r.Valid) (key : String) :
    (r.arrive key).2.Valid ∧ (r.arrive key).1 = r.nextTicket := by
  have hfor := h.slotFor key
  unfold LockRegistry.arrive
  generalize r.slotFor key = x at hfor ⊢
  obtain ⟨id, r₁⟩ := x
  obtain ⟨hv, hkey, hclaims, hnext⟩ := hfor
  obtain ⟨slot, hslot, hacc⟩ := hv.slots key id hkey
  dsimp only at hv hkey hclaims hnext hslot hacc ⊢
  have hfresh : ∀ c, r₁.claims.get? r₁.nextTicket ≠ some c := fun c hc ↦ Nat.lt_irrefl _ (hv.ticket_lt _ c hc)
  have hsame : ∀ id', r₁.slots.get? id' = if id' = id then some slot else r₁.slots.get? id' := by
    intro id'
    split
    · rename_i heq
      rw [heq, hslot]
    · rfl
  refine ⟨hv.join hkey hsame (fun _ ↦ Entries.get?_insert _ _ _ _) rfl rfl rfl ?_, hnext⟩
  have hholder := hacc.holder
  have hqueue := hacc.queue
  refine ⟨fun t ↦ ?_, fun t ↦ ?_, hacc.nodup, hacc.idle⟩
  · simp only [Entries.get?_insert]
    grind
  · simp only [Entries.get?_insert]
    grind

theorem ask (h : r.Valid) (t : Ticket) : (r.ask t).Valid := by
  unfold LockRegistry.ask
  split
  · rename_i key id hc
    have hkey : r.registered.get? key = some id := h.claimed t _ hc
    obtain ⟨slot, hslot, hacc⟩ := h.slots key id hkey
    have hholder := hacc.holder
    have hqueue := hacc.queue
    simp only [hslot, Option.getD_some]
    split
    · exact h
    · rename_i hnew
      split
      · rename_i hfree
        rw [Option.isNone_iff_eq_none] at hfree
        rw [hacc.idle hfree]
        refine h.of_claims hkey rfl rfl rfl (fun _ ↦ Entries.get?_insert _ _ _ _) (fun t' ↦ ?_)
          ⟨fun t' ↦ ?_, fun t' ht' ↦ ?_, List.nodup_nil, (fun h ↦ by cases h)⟩
        · simp only [Entries.get?_insert]
          grind
        · simp only [Entries.get?_insert]
          grind
        · cases ht'
      · refine h.of_claims hkey rfl rfl rfl (fun _ ↦ Entries.get?_insert _ _ _ _) (fun _ ↦ .inl rfl)
          ⟨hholder, fun t' ht' ↦ ?_, ?_, fun hfree ↦ ?_⟩
        · rcases List.mem_append.1 ht' with ht' | ht'
          · exact hqueue t' ht'
          · rw [List.mem_singleton.1 ht']
            exact hc
        · exact List.nodup_append.2 ⟨hacc.nodup, by simp, by grind⟩
        · simp_all
  · exact h

theorem leave (h : r.Valid) (t : Ticket) : (r.leave t).Valid := by
  unfold LockRegistry.leave
  split
  · rename_i key id hc
    exact h.giveUp hc
  · rename_i key id phase hphase hc
    exact (h.handOver hc hphase).1
  · exact h

end Valid

/-- The other keys have the slots that they had, with the same line, and the same claims. -/
structure Elsewhere (r r' : LockRegistry) (key : String) : Prop where
  registered : ∀ other, other ≠ key → r'.registered.get? other = r.registered.get? other
  line : ∀ other, other ≠ key → r'.line other = r.line other
  claims : ∀ t c, c.key ≠ key → (r'.claims.get? t = some c ↔ r.claims.get? t = some c)

theorem Elsewhere.rfl : r.Elsewhere r key := ⟨fun _ _ ↦ .refl _, fun _ _ ↦ .refl _, fun _ _ _ ↦ .rfl⟩

namespace Valid

theorem elsewhere (h : r.Valid) (hkey : r.registered.get? key = some id) (hreg : r'.registered = r.registered)
    (hslots : ∀ id', id' ≠ id → r'.slots.get? id' = r.slots.get? id')
    (hclaims : ∀ t c, c.key ≠ key → (r'.claims.get? t = some c ↔ r.claims.get? t = some c)) :
    r.Elsewhere r' key := by
  refine ⟨fun other _ ↦ by rw [hreg], fun other hne ↦ line_congr (by rw [hreg]) fun id' hother ↦ hslots id' ?_, hclaims⟩
  rintro rfl
  exact hne (h.key_eq _ _ _ hother hkey)

theorem elsewhere_ask (h : r.Valid) (hc : r.claims.get? t = some c) : r.Elsewhere (r.ask t) c.key := by
  unfold LockRegistry.ask
  split
  · rename_i key id hc'
    obtain rfl := Option.some.inj (hc.symm.trans hc')
    have hkey : r.registered.get? key = some id := h.claimed t _ hc
    dsimp only
    split
    · exact .rfl
    · split
      · refine h.elsewhere hkey rfl (fun id' hne ↦ ?_) fun t' c hne ↦ ?_
        · simp [Entries.get?_insert, hne]
        · simp only [Entries.get?_insert]
          grind
      · refine h.elsewhere hkey rfl (fun id' hne ↦ ?_) fun _ _ _ ↦ .rfl
        simp [Entries.get?_insert, hne]
  · exact .rfl

theorem elsewhere_resume (h : r.Valid) (hc : r.claims.get? t = some c) : r.Elsewhere (r.resume t) c.key := by
  unfold LockRegistry.resume
  split
  · rename_i key id hc'
    obtain rfl := Option.some.inj (hc.symm.trans hc')
    refine h.elsewhere (h.claimed t _ hc) rfl (fun _ _ ↦ rfl) fun t' c hne ↦ ?_
    simp only [Entries.get?_insert]
    grind
  · exact .rfl

theorem elsewhere_handOver (h : r.Valid) {phase : Phase} (hc : r.claims.get? t = some ⟨key, id, phase⟩) :
    r.Elsewhere (LockRegistry.handOver { r with claims := r.claims.erase t } id) key := by
  have hkey : r.registered.get? key = some id := h.claimed t _ hc
  obtain ⟨slot, hslot, hacc⟩ := h.slots key id hkey
  have hgone := Entries.get?_erase r.claims t
  unfold LockRegistry.handOver
  cases hq : slot.queue with
  | nil =>
    simp only [hslot, hq]
    refine h.elsewhere hkey rfl (fun id' hne ↦ ?_) fun t' c hne ↦ ?_
    · simp [Entries.get?_insert, hne]
    · dsimp only
      rw [hgone]
      grind
  | cons first queue =>
    -- The first of the queue is handed the lock, and waits for the same key.
    have hfirst : r.claims.get? first = some ⟨key, id, .waiting⟩ := hacc.queue first (by simp [hq])
    simp only [hslot, hq]
    refine h.elsewhere hkey rfl (fun id' hne ↦ ?_) fun t' c hne ↦ ?_
    · simp [Entries.get?_insert, hne]
    · simp only [Entries.get?_modify, hgone]
      grind

theorem elsewhere_leave (h : r.Valid) (hc : r.claims.get? t = some c) : r.Elsewhere (r.leave t) c.key := by
  obtain ⟨key, id, phase⟩ := c
  have hgone := Entries.get?_erase r.claims t
  cases phase with
  | waiting =>
    simp only [LockRegistry.leave, hc]
    refine h.elsewhere (h.claimed t _ hc) rfl (fun id' hne ↦ ?_) fun t' c hne ↦ ?_
    · simp [LockRegistry.leaveQueue, Entries.get?_modify, hne]
    · dsimp only
      rw [hgone]
      grind
  | granted =>
    simp only [LockRegistry.leave, hc]
    exact h.elsewhere_handOver hc
  | holding =>
    simp only [LockRegistry.leave, hc]
    exact h.elsewhere_handOver hc

theorem elsewhere_prune (h : r.Valid) (key : String) : r.Elsewhere (r.prune key) key := by
  unfold LockRegistry.prune
  split
  · rename_i id hkey
    split
    · have hreg : ∀ other, other ≠ key → (r.registered.erase key).get? other = r.registered.get? other :=
        fun other hne ↦ (Entries.get?_erase r.registered key other).trans (if_neg hne)
      refine ⟨hreg, fun other hne ↦ line_congr (hreg other hne) fun id' hother ↦ ?_, fun _ _ _ ↦ .rfl⟩
      refine (Entries.get?_erase r.slots id id').trans (if_neg ?_)
      rintro rfl
      exact hne (h.key_eq _ _ _ hother hkey)
    · exact .rfl
  · exact .rfl

theorem elsewhere_arrive (h : r.Valid) (key : String) : r.Elsewhere (r.arrive key).2 key := by
  have hclaim : ∀ id t c, c.key ≠ key →
      ((r.claims.insert r.nextTicket ⟨key, id, .waiting⟩).get? t = some c ↔ r.claims.get? t = some c) := by
    intro id t c hne
    rw [Entries.get?_insert]
    split
    · rename_i heq
      have hold := h.ticket_lt t c
      grind
    · rfl
  unfold LockRegistry.arrive LockRegistry.slotFor
  cases hkey : r.registered.get? key with
  | some id => exact h.elsewhere hkey rfl (fun _ _ ↦ rfl) (hclaim id)
  | none =>
    have hreg : ∀ other, other ≠ key → (r.registered.insert key r.nextSlot).get? other = r.registered.get? other :=
      fun other hne ↦ (Entries.get?_insert key other r.nextSlot r.registered).trans (if_neg hne)
    refine ⟨hreg, fun other hne ↦ line_congr (hreg other hne) fun id' hother ↦ ?_, hclaim r.nextSlot⟩
    have hlt := h.slot_lt other id' hother
    exact (Entries.get?_insert r.nextSlot id' _ r.slots).trans (if_neg (Nat.ne_of_lt hlt))

end Valid

end LockRegistry

inductive LockStage where
  /-- Finds the slot of a key. -/
  | arrive (key : String)
  | ask (t : Ticket)
  /-- Runs again with the lock that was handed over. -/
  | resume (t : Ticket)
  /-- Leaves, because of an end of patience, a cancellation or a release, whatever led to it. -/
  | leave (t : Ticket)
  /-- Looks whether the slot of a key can go. -/
  | prune (key : String)

namespace LockRegistry

variable {r r' : LockRegistry} {key : String} {id : SlotId} {t t' : Ticket} {slot : Slot} {c c' : Claim}

def act (r : LockRegistry) : LockStage → LockRegistry
  | .arrive key => (r.arrive key).2
  | .ask t => r.ask t
  | .resume t => r.resume t
  | .leave t => r.leave t
  | .prune key => r.prune key

def acts (r : LockRegistry) (stages : List LockStage) : LockRegistry := stages.foldl act r

def keyOf (r : LockRegistry) : LockStage → Option String
  | .arrive key | .prune key => some key
  | .ask t | .resume t | .leave t => (r.claims.get? t).map Claim.key

namespace Valid

theorem act (h : r.Valid) (stage : LockStage) : (r.act stage).Valid := by
  cases stage with
  | arrive key => exact (h.arrive key).1
  | ask t => exact h.ask t
  | resume t => exact (h.resume t).1
  | leave t => exact h.leave t
  | prune key => exact (h.prune key).1

theorem acts (h : r.Valid) (stages : List LockStage) : (r.acts stages).Valid := by
  induction stages generalizing r with
  | nil => exact h
  | cons stage stages ih => exact ih (h.act stage)

theorem elsewhere_act (h : r.Valid) {stage : LockStage} (hkey : r.keyOf stage = some key) :
    r.Elsewhere (r.act stage) key := by
  cases stage with
  | arrive key' =>
    obtain rfl := Option.some.inj hkey
    exact h.elsewhere_arrive key'
  | prune key' =>
    obtain rfl := Option.some.inj hkey
    exact h.elsewhere_prune key'
  | ask t =>
    obtain ⟨c, hc, rfl⟩ := Option.map_eq_some_iff.1 hkey
    exact h.elsewhere_ask hc
  | resume t =>
    obtain ⟨c, hc, rfl⟩ := Option.map_eq_some_iff.1 hkey
    exact h.elsewhere_resume hc
  | leave t =>
    obtain ⟨c, hc, rfl⟩ := Option.map_eq_some_iff.1 hkey
    exact h.elsewhere_leave hc

/-- The slot of a key has a ticket for its holder just if that ticket has or was handed the lock. -/
theorem holder_iff (h : r.Valid) (hkey : r.registered.get? key = some id) (hslot : r.slots.get? id = some slot) :
    slot.holder = some t ↔ ∃ c, r.claims.get? t = some c ∧ c.key = key ∧ c.phase ≠ .waiting := by
  obtain ⟨slot', hslot', hacc⟩ := h.slots key id hkey
  obtain rfl := Option.some.inj (hslot.symm.trans hslot')
  rw [hacc.holder]
  constructor
  · rintro (hc | hc)
    all_goals exact ⟨_, hc, rfl, by simp⟩
  · rintro ⟨⟨key', id', phase⟩, hc, rfl, hphase⟩
    obtain rfl : id' = id := h.slot_eq hkey hc rfl
    cases phase with
    | waiting => exact absurd rfl hphase
    | granted => exact .inl hc
    | holding => exact .inr hc

theorem isLocked_iff (h : r.Valid) (key : String) :
    r.isLocked key = true ↔ ∃ t c, r.claims.get? t = some c ∧ c.key = key ∧ c.phase ≠ .waiting := by
  cases hkey : r.registered.get? key with
  | none =>
    have hfree : ¬∃ t c, r.claims.get? t = some c ∧ c.key = key ∧ c.phase ≠ .waiting := by
      rintro ⟨t, c, hc, rfl, -⟩
      rw [h.claimed t c hc] at hkey
      cases hkey
    simp [LockRegistry.isLocked, hkey, hfree]
  | some id =>
    obtain ⟨slot, hslot, -⟩ := h.slots key id hkey
    simp only [LockRegistry.isLocked, hkey, Option.bind_some, hslot, Option.any_some, Option.isSome_iff_exists]
    exact exists_congr fun t ↦ h.holder_iff hkey hslot

theorem holder_eq (h : r.Valid) (hc : r.claims.get? t = some c) (hc' : r.claims.get? t' = some c')
    (hphase : c.phase ≠ .waiting) (hphase' : c'.phase ≠ .waiting) (hkey : c.key = c'.key) : t = t' := by
  have hreg := h.claimed t c hc
  obtain ⟨slot, hslot, -⟩ := h.slots c.key c.slot hreg
  have hheld := (h.holder_iff hreg hslot).2 ⟨c, hc, rfl, hphase⟩
  have hheld' := (h.holder_iff hreg hslot).2 ⟨c', hc', hkey.symm, hphase'⟩
  exact Option.some.inj (hheld.symm.trans hheld')

/-- Whoever is in line waits for someone who has or was handed the lock on the same key. -/
theorem isLocked_of_mem_queue (h : r.Valid) (hline : r.line key = some slot) (ht : t ∈ slot.queue) :
    r.isLocked key = true := by
  obtain ⟨id, hkey, hslot⟩ := Option.bind_eq_some_iff.1 hline
  obtain ⟨slot', hslot', hacc⟩ := h.slots key id hkey
  obtain rfl := Option.some.inj (hslot.symm.trans hslot')
  cases hh : slot.holder with
  | none =>
    rw [hacc.idle hh] at ht
    cases ht
  | some holder => simp [LockRegistry.isLocked, hkey, hslot, hh]

theorem phase?_ask (h : r.Valid) (hc : r.claims.get? t = some ⟨key, id, .waiting⟩) (hline : r.line key = some slot)
    (hnew : t ∉ slot.queue) : (r.ask t).phase? t = some (if r.isLocked key then .waiting else .holding) := by
  have hkey : r.registered.get? key = some id := h.claimed t _ hc
  have hslot : r.slots.get? id = some slot := (line_eq hkey).symm.trans hline
  have hlocked : r.isLocked key = slot.holder.isSome := by simp [LockRegistry.isLocked, hkey, hslot]
  cases hh : slot.holder with
  | none => simp [LockRegistry.ask, phase?, hc, hslot, hnew, hh, hlocked, Entries.get?_insert]
  | some holder => simp [LockRegistry.ask, phase?, hc, hslot, hnew, hh, hlocked]

end Valid

/-- Keys are locked for one ticket at most, and independently of each other. -/
structure Exclusive (r : LockRegistry) : Prop where
  /-- Nobody else has or was handed the lock. -/
  unique : ∀ t t' c c', r.claims.get? t = some c → r.claims.get? t' = some c' → c.phase ≠ .waiting →
    c'.phase ≠ .waiting → c.key = c'.key → t = t'
  /-- All who hold or await a key refer to the one slot that is registered for it. -/
  registered : ∀ t c, r.claims.get? t = some c → r.registered.get? c.key = some c.slot
  isLocked : ∀ key, r.isLocked key = true ↔
    ∃ t c, r.claims.get? t = some c ∧ c.key = key ∧ c.phase ≠ .waiting
  /-- Whoever asks for a lock, or is in line for it, waits just if the key itself is locked. -/
  waits : ∀ t key id, r.claims.get? t = some ⟨key, id, .waiting⟩ → ∃ slot, r.line key = some slot ∧
    (t ∈ slot.queue → r.isLocked key = true) ∧
    (t ∉ slot.queue → (r.ask t).phase? t = some (if r.isLocked key then .waiting else .holding))
  elsewhere : ∀ stage key, r.keyOf stage = some key → r.Elsewhere (r.act stage) key
  idle : ∀ stage, r.keyOf stage = none → r.act stage = r

def Staged (r : LockRegistry) : Prop :=
  (∀ key, ∃ stages, (r.begin key).2 = r.acts stages) ∧
    ∀ t, ∀ r' ∈ [r.resume t, r.expire t, r.cancel t, r.release t], ∃ stages, r' = r.acts stages

theorem Valid.exclusive (h : r.Valid) : r.Exclusive where
  unique t t' c c' hc hc' hphase hphase' hkey := h.holder_eq hc hc' hphase hphase' hkey
  registered := h.claimed
  isLocked := h.isLocked_iff
  waits t key id hc := by
    have hkey : r.registered.get? key = some id := h.claimed t _ hc
    obtain ⟨slot, hslot, -⟩ := h.slots key id hkey
    have hline : r.line key = some slot := (line_eq hkey).trans hslot
    exact ⟨slot, hline, h.isLocked_of_mem_queue hline, h.phase?_ask hc hline⟩
  elsewhere stage key hkey := h.elsewhere_act hkey
  idle stage hkey := by
    cases stage with
    | arrive key => cases hkey
    | prune key => cases hkey
    | ask t => simp [LockRegistry.act, LockRegistry.ask, Option.map_eq_none_iff.1 hkey]
    | resume t => simp [LockRegistry.act, LockRegistry.resume, Option.map_eq_none_iff.1 hkey]
    | leave t => simp [LockRegistry.act, LockRegistry.leave, Option.map_eq_none_iff.1 hkey]

theorem Valid.staged (h : r.Valid) : r.Staged := by
  refine ⟨fun key ↦ ⟨[.arrive key, .ask (r.arrive key).1], by rw [begin_eq h]; rfl⟩, fun t r' hr' ↦ ?_⟩
  have hidle : ∀ {r'}, r' = r → ∃ stages, r' = r.acts stages := fun he ↦ ⟨[], he⟩
  simp only [List.mem_cons, List.not_mem_nil, or_false] at hr'
  cases hc : r.claims.get? t with
  | none =>
    refine hidle ?_
    rcases hr' with rfl | rfl | rfl | rfl
    · simp [LockRegistry.resume, hc]
    · simp [LockRegistry.expire, hc]
    · simp [LockRegistry.cancel, hc]
    · simp [LockRegistry.release, hc]
  | some c =>
    obtain ⟨key, id, phase⟩ := c
    rcases hr' with rfl | rfl | rfl | rfl
    · exact ⟨[.resume t], rfl⟩
    · cases phase with
      | waiting => exact ⟨[.leave t, .prune key], expire_eq hc⟩
      | granted | holding => exact hidle (by simp [LockRegistry.expire, hc])
    · cases phase with
      | waiting | granted => exact ⟨[.leave t], cancel_eq hc (by simp)⟩
      | holding => exact hidle (by simp [LockRegistry.cancel, hc])
    · cases phase with
      | waiting | granted => exact hidle (by simp [LockRegistry.release, hc])
      | holding => exact ⟨[.leave t, .prune key], release_eq hc⟩

/-- In whatever order tasks come to the stages of their locking, the locks are exclusive, and the operations lead to
registries of which that is true again. -/
theorem acts_exclusive (stages : List LockStage) : (empty.acts stages).Exclusive ∧ (empty.acts stages).Staged :=
  ⟨(valid_empty.acts stages).exclusive, (valid_empty.acts stages).staged⟩

end LockRegistry

end IntentCorrection
