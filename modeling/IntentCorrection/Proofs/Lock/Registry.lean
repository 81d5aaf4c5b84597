import IntentCorrection.Lock.Registry

namespace IntentCorrection.LockRegistry

structure Accounts (r : LockRegistry) (key : String) (id : SlotId) (slot : Slot) : Prop where
  holder : ∀ t, slot.holder = some t ↔
    r.claims.get? t = some ⟨key, id, .granted⟩ ∨ r.claims.get? t = some ⟨key, id, .holding⟩
  queue : ∀ t ∈ slot.queue, r.claims.get? t = some ⟨key, id, .waiting⟩
  nodup : slot.queue.Nodup
  idle : slot.holder = none → slot.queue = []

structure Valid (r : LockRegistry) : Prop where
  ticket_lt : ∀ t c, r.claims.get? t = some c → t < r.nextTicket
  slot_lt : ∀ key id, r.registered.get? key = some id → id < r.nextSlot
  key_eq : ∀ key key' id, r.registered.get? key = some id → r.registered.get? key' = some id → key = key'
  claimed : ∀ t c, r.claims.get? t = some c → r.registered.get? c.key = some c.slot
  slots : ∀ key id, r.registered.get? key = some id → ∃ slot, r.slots.get? id = some slot ∧ r.Accounts key id slot

theorem valid_empty : empty.Valid where
  ticket_lt := by simp [empty]
  slot_lt := by simp [empty]
  key_eq := by simp [empty]
  claimed := by simp [empty]
  slots := by simp [empty]

variable {r r' : LockRegistry} {key : String} {id : SlotId} {t t' : Ticket} {slot : Slot} {c : Claim}

theorem nextTicket_handOver (r : LockRegistry) (id : SlotId) : (r.handOver id).nextTicket = r.nextTicket := by
  unfold handOver
  split
  · rfl
  · split <;> rfl

theorem nextTicket_prune (r : LockRegistry) (key : String) : (r.prune key).nextTicket = r.nextTicket := by
  unfold prune
  split
  · split <;> rfl
  · rfl

@[simp] theorem nextTicket_resume (r : LockRegistry) (t : Ticket) : (r.resume t).nextTicket = r.nextTicket := by
  unfold resume
  split <;> rfl

@[simp] theorem nextTicket_expire (r : LockRegistry) (t : Ticket) : (r.expire t).nextTicket = r.nextTicket := by
  unfold expire
  split
  · exact nextTicket_prune _ _
  · rfl

@[simp] theorem nextTicket_cancel (r : LockRegistry) (t : Ticket) : (r.cancel t).nextTicket = r.nextTicket := by
  unfold cancel
  split
  · rfl
  · exact nextTicket_handOver _ _
  · rfl

@[simp] theorem nextTicket_release (r : LockRegistry) (t : Ticket) :
    (r.release t).nextTicket = r.nextTicket := by
  unfold release
  split
  · exact (nextTicket_prune _ _).trans (nextTicket_handOver _ _)
  · rfl

/-- The claim of a ticket stays. It may be handed the lock or run again with it, and does not lose it. -/
def Keeps (r r' : LockRegistry) (t : Ticket) : Prop :=
  ∀ c, r.claims.get? t = some c → ∃ phase, r'.claims.get? t = some { c with phase := phase } ∧
    (c.phase = .holding → phase = .holding)

theorem Keeps.of_eq (h : r'.claims.get? t = r.claims.get? t) : r.Keeps r' t := fun c hc ↦
  ⟨c.phase, h.trans hc, fun h ↦ h⟩

namespace Valid

theorem of_slot (h : r.Valid) (hkey : r.registered.get? key = some id)
    (hreg : r'.registered = r.registered) (hnext : r'.nextSlot = r.nextSlot)
    (hslots : ∀ id', r'.slots.get? id' = if id' = id then some slot else r.slots.get? id')
    (hother : ∀ t c, c.key ≠ key → (r'.claims.get? t = some c ↔ r.claims.get? t = some c))
    (hown : ∀ t c, r'.claims.get? t = some c → c.key = key → c.slot = id)
    (hticket : ∀ t c, r'.claims.get? t = some c → t < r'.nextTicket)
    (hslot : r'.Accounts key id slot) : r'.Valid where
  ticket_lt := hticket
  slot_lt := by rw [hreg, hnext]; exact h.slot_lt
  key_eq := by rw [hreg]; exact h.key_eq
  claimed t c hc := by
    rw [hreg]
    by_cases hk : c.key = key
    · rw [hk, hown t c hc hk, hkey]
    · exact h.claimed t c ((hother t c hk).1 hc)
  slots key' id' hk' := by
    rw [hreg] at hk'
    rw [hslots]
    by_cases hid : id' = id
    · obtain rfl := h.key_eq key key' id hkey (hid ▸ hk')
      subst hid
      exact ⟨slot, by simp, hslot⟩
    · have hne : key' ≠ key := by
        rintro rfl
        exact hid (Option.some.inj (hk'.symm.trans hkey))
      obtain ⟨slot', hs', hacc⟩ := h.slots key' id' hk'
      refine ⟨slot', by simp [hid, hs'], fun t ↦ ?_, fun t ht ↦ ?_, hacc.nodup, hacc.idle⟩
      · rw [hacc.holder, hother t _ hne, hother t _ hne]
      · exact (hother t _ hne).2 (hacc.queue t ht)

theorem slotFor (h : r.Valid) (key : String) :
    (r.slotFor key).2.Valid ∧ (r.slotFor key).2.registered.get? key = some (r.slotFor key).1 ∧
      (r.slotFor key).2.claims = r.claims ∧ (r.slotFor key).2.nextTicket = r.nextTicket := by
  cases hk : r.registered.get? key with
  | some id =>
    have he : r.slotFor key = (id, r) := by simp [LockRegistry.slotFor, hk]
    rw [he]
    exact ⟨h, hk, rfl, rfl⟩
  | none =>
    -- Every claim is on a registered key, so the new slot has none.
    have hnew : ∀ t c, r.claims.get? t = some c → c.key ≠ key := by
      rintro t c hc rfl
      rw [h.claimed t c hc] at hk
      cases hk
    have he : r.slotFor key = (r.nextSlot, { r with
        registered := r.registered.insert key r.nextSlot
        slots := r.slots.insert r.nextSlot ⟨none, []⟩
        nextSlot := r.nextSlot + 1 }) := by simp [LockRegistry.slotFor, hk]
    rw [he]
    refine ⟨⟨h.ticket_lt, ?_, ?_, ?_, ?_⟩, by simp [Entries.get?_insert], rfl, rfl⟩
    · intro key' id' hk'
      rw [Entries.get?_insert] at hk'
      split at hk'
      · obtain rfl := Option.some.inj hk'
        exact Nat.lt_succ_self _
      · exact Nat.lt_succ_of_lt (h.slot_lt key' id' hk')
    · intro key₁ key₂ id' h₁ h₂
      have hlt := h.slot_lt
      simp only [Entries.get?_insert] at h₁ h₂
      grind [h.key_eq key₁ key₂ id']
    · intro t c hc
      dsimp only
      rw [Entries.get?_insert, if_neg (hnew t c hc)]
      exact h.claimed t c hc
    · intro key' id' hk'
      dsimp only at hk' ⊢
      rw [Entries.get?_insert] at hk' ⊢
      split at hk'
      · rename_i heq
        obtain rfl := Option.some.inj hk'
        refine ⟨⟨none, []⟩, if_pos rfl, ?_, ?_, List.nodup_nil, fun _ ↦ rfl⟩
        · intro t
          refine ⟨(fun h ↦ by cases h), ?_⟩
          rintro (hc | hc)
          all_goals exact absurd heq (hnew t _ hc)
        · intro t ht
          cases ht
      · obtain ⟨slot, hs, hacc⟩ := h.slots key' id' hk'
        have hlt := h.slot_lt key' id' hk'
        refine ⟨slot, ?_, hacc.holder, hacc.queue, hacc.nodup, hacc.idle⟩
        rw [if_neg (Nat.ne_of_lt hlt)]
        exact hs

theorem slot_eq (h : r.Valid) (hkey : r.registered.get? key = some id) (hc : r.claims.get? t = some c)
    (hk : c.key = key) : c.slot = id := by
  have hs := h.claimed t c hc
  rw [hk, hkey] at hs
  exact (Option.some.inj hs).symm

theorem join (h : r.Valid) (hkey : r.registered.get? key = some id) {phase : Phase}
    (hslots : ∀ id', r'.slots.get? id' = if id' = id then some slot else r.slots.get? id')
    (hclaims : ∀ t, r'.claims.get? t = if t = r.nextTicket then some ⟨key, id, phase⟩ else r.claims.get? t)
    (hreg : r'.registered = r.registered) (hslot : r'.nextSlot = r.nextSlot)
    (hticket : r'.nextTicket = r.nextTicket + 1) (hacc : r'.Accounts key id slot) : r'.Valid := by
  refine h.of_slot hkey hreg hslot hslots (fun t c hk ↦ ?_) (fun t c hc hk ↦ ?_) (fun t c hc ↦ ?_) hacc
  · rw [hclaims]
    split
    · rename_i ht
      constructor
      · intro hc
        obtain rfl := Option.some.inj hc
        exact absurd rfl hk
      · intro hc
        exact absurd (ht ▸ h.ticket_lt t c hc) (Nat.lt_irrefl _)
    · rfl
  · rw [hclaims] at hc
    split at hc
    · obtain rfl := Option.some.inj hc
      rfl
    · exact h.slot_eq hkey hc hk
  · rw [hticket]
    rw [hclaims] at hc
    split at hc
    · rename_i ht
      exact ht ▸ Nat.lt_succ_self _
    · exact Nat.lt_succ_of_lt (h.ticket_lt t c hc)

/-- A free slot is taken at once, else the ticket joins the queue. -/
theorem begin (h : r.Valid) (key : String) :
    (r.begin key).2.Valid ∧ (r.begin key).1 = r.nextTicket ∧ (r.begin key).2.nextTicket = r.nextTicket + 1 ∧
      ∃ id phase, ∀ t, (r.begin key).2.claims.get? t =
        if t = r.nextTicket then some ⟨key, id, phase⟩ else r.claims.get? t := by
  have hfor := h.slotFor key
  unfold LockRegistry.begin
  generalize r.slotFor key = x at hfor ⊢
  obtain ⟨id, r₁⟩ := x
  obtain ⟨hv, hkey, hclaims, hnext⟩ := hfor
  dsimp only at hv hkey hclaims hnext ⊢
  rw [← hclaims, ← hnext]
  obtain ⟨slot, hslot, hacc⟩ := hv.slots key id hkey
  have hfresh : ∀ c, r₁.claims.get? r₁.nextTicket ≠ some c := fun c hc ↦ Nat.lt_irrefl _ (hv.ticket_lt _ c hc)
  cases hh : slot.holder with
  | none =>
    simp only [hslot, Option.getD_some, hh, Option.isNone_none, if_true, hacc.idle hh]
    refine ⟨hv.join hkey (fun _ ↦ Entries.get?_insert _ _ _ _) (fun _ ↦ Entries.get?_insert _ _ _ _) rfl rfl rfl ?_,
      trivial, trivial, _, _, fun _ ↦ Entries.get?_insert _ _ _ _⟩
    have hnone := hacc.holder
    have hq := hacc.queue
    rw [hacc.idle hh] at hq
    rw [hh] at hnone
    refine ⟨fun t ↦ ?_, fun t ↦ ?_, List.nodup_nil, (fun h ↦ by cases h)⟩
    · simp only [Entries.get?_insert]
      grind
    · simp only [Entries.get?_insert]
      grind
  | some holder =>
    simp only [hslot, Option.getD_some, hh, Option.isNone_some, Bool.false_eq_true, if_false]
    refine ⟨hv.join hkey (fun _ ↦ Entries.get?_insert _ _ _ _) (fun _ ↦ Entries.get?_insert _ _ _ _) rfl rfl rfl ?_,
      trivial, trivial, _, _, fun _ ↦ Entries.get?_insert _ _ _ _⟩
    have hholder := hacc.holder
    have hq := hacc.queue
    refine ⟨fun t ↦ ?_, fun t ↦ ?_, ?_, (fun h ↦ by cases h)⟩
    · simp only [Entries.get?_insert]
      grind
    · simp only [Entries.get?_insert]
      grind
    · have hnot : r₁.nextTicket ∉ slot.queue := fun hm ↦ hfresh _ (hq _ hm)
      grind [hacc.nodup]

theorem of_claims (h : r.Valid) (hkey : r.registered.get? key = some id) (hreg : r'.registered = r.registered)
    (hslot : r'.nextSlot = r.nextSlot) (hticket : r'.nextTicket = r.nextTicket)
    (hslots : ∀ id', r'.slots.get? id' = if id' = id then some slot else r.slots.get? id')
    (hclaims : ∀ t, r'.claims.get? t = r.claims.get? t ∨ (∃ phase, r.claims.get? t = some ⟨key, id, phase⟩) ∧
      ∀ c, r'.claims.get? t = some c → ∃ phase, c = ⟨key, id, phase⟩)
    (hacc : r'.Accounts key id slot) : r'.Valid := by
  refine h.of_slot hkey hreg hslot hslots (fun t c hk ↦ ?_) (fun t c hc hk ↦ ?_) (fun t c hc ↦ ?_) hacc
  · rcases hclaims t with he | ⟨⟨phase, hold⟩, hnew⟩
    · rw [he]
    · constructor
      · intro hc
        obtain ⟨phase', rfl⟩ := hnew c hc
        exact absurd rfl hk
      · intro hc
        obtain rfl := Option.some.inj (hold.symm.trans hc)
        exact absurd rfl hk
  · rcases hclaims t with he | ⟨-, hnew⟩
    · exact h.slot_eq hkey (he ▸ hc) hk
    · obtain ⟨phase, rfl⟩ := hnew c hc
      rfl
  · rw [hticket]
    rcases hclaims t with he | ⟨⟨phase, hold⟩, -⟩
    · exact h.ticket_lt t c (he ▸ hc)
    · exact h.ticket_lt t _ hold

theorem giveUp (h : r.Valid) (hc : r.claims.get? t = some ⟨key, id, .waiting⟩) :
    ({ r.leaveQueue id t with claims := r.claims.erase t } : LockRegistry).Valid := by
  have hkey : r.registered.get? key = some id := h.claimed t _ hc
  obtain ⟨slot, hslot, hacc⟩ := h.slots key id hkey
  have hgone := Entries.get?_erase r.claims t
  have hslots : ∀ id', (r.leaveQueue id t).slots.get? id' =
      if id' = id then some ⟨slot.holder, slot.queue.erase t⟩ else r.slots.get? id' := by
    intro id'
    rw [LockRegistry.leaveQueue, Entries.get?_modify, hslot]
    rfl
  refine h.of_claims hkey rfl rfl rfl hslots (fun t' ↦ ?_) ?_
  · dsimp only
    rw [hgone]
    grind
  · refine ⟨fun t' ↦ ?_, fun t' ↦ ?_, hacc.nodup.erase t, fun hh ↦ ?_⟩
    · have hholder := hacc.holder t'
      dsimp only
      rw [hgone]
      grind
    · have hqueue := hacc.queue t'
      dsimp only
      rw [hgone, hacc.nodup.mem_erase_iff]
      grind
    · have hidle := hacc.idle hh
      simp [hidle]

/-- Whoever has a slot leaves it, to the first of its queue if anyone waits. -/
theorem handOver (h : r.Valid) {phase : Phase} (hc : r.claims.get? t = some ⟨key, id, phase⟩)
    (hphase : phase ≠ .waiting) :
    (LockRegistry.handOver { r with claims := r.claims.erase t } id).Valid ∧
      ∀ t', t' ≠ t → r.Keeps (LockRegistry.handOver { r with claims := r.claims.erase t } id) t' := by
  have hkey : r.registered.get? key = some id := h.claimed t _ hc
  obtain ⟨slot, hslot, hacc⟩ := h.slots key id hkey
  have hheld : slot.holder = some t := by
    rw [hacc.holder]
    cases phase with
    | waiting => exact absurd rfl hphase
    | granted => exact .inl hc
    | holding => exact .inr hc
  have hholder := hacc.holder
  have hqueue := hacc.queue
  have hnodup := hacc.nodup
  unfold LockRegistry.handOver
  cases hq : slot.queue with
  | nil =>
    simp only [hslot, hq]
    have hgone := Entries.get?_erase r.claims t
    refine ⟨h.of_claims hkey rfl rfl rfl (fun _ ↦ Entries.get?_insert _ _ _ _) (fun t' ↦ ?_)
      ⟨fun t' ↦ ?_, fun t' ↦ ?_, List.nodup_nil, fun _ ↦ rfl⟩, fun t' ht ↦ .of_eq ?_⟩
    all_goals
      dsimp only
      rw [hgone]
      grind
  | cons first queue =>
    -- The first of the queue turns from a waiter into the holder; all others stay where they are.
    have hfirst : r.claims.get? first = some ⟨key, id, .waiting⟩ := hqueue first (by simp [hq])
    have hne : first ≠ t := by
      rintro rfl
      rw [hc] at hfirst
      exact hphase (congrArg Claim.phase (Option.some.inj hfirst))
    simp only [hslot, hq]
    have hclaims : ∀ t', Entries.get? ((r.claims.erase t).modify first fun c ↦ { c with phase := .granted }) t' =
        if t' = first then some ⟨key, id, .granted⟩ else if t' = t then none else r.claims.get? t' := by
      intro t'
      rw [Entries.get?_modify, Entries.get?_erase, Entries.get?_erase, if_neg hne, hfirst]
      rfl
    rw [hq] at hqueue hnodup
    refine ⟨h.of_claims hkey rfl rfl rfl (fun _ ↦ Entries.get?_insert _ _ _ _) (fun t' ↦ ?_)
      ⟨fun t' ↦ ?_, fun t' ↦ ?_, (List.nodup_cons.1 hnodup).2, (fun h ↦ by cases h)⟩, fun t' ht ↦ ?_⟩
    · dsimp only
      rw [hclaims]
      grind
    · dsimp only
      rw [hclaims]
      grind
    · dsimp only
      rw [hclaims]
      grind
    · by_cases hf : t' = first
      · intro c' hc'
        rw [hf, hfirst] at hc'
        obtain rfl := Option.some.inj hc'
        exact ⟨.granted, by rw [hclaims, if_pos hf], (fun h ↦ by cases h)⟩
      · exact .of_eq (by rw [hclaims, if_neg hf, if_neg ht])

theorem prune (h : r.Valid) (key : String) : (r.prune key).Valid ∧ (r.prune key).claims = r.claims := by
  cases hk : r.registered.get? key with
  | none =>
    have he : r.prune key = r := by simp [LockRegistry.prune, hk]
    rw [he]
    exact ⟨h, rfl⟩
  | some id =>
    by_cases href : r.references id = 0
    · have he : r.prune key = { r with registered := r.registered.erase key, slots := r.slots.erase id } := by
        simp [LockRegistry.prune, hk, href]
      -- Nobody refers to the slot, so no claim goes with it.
      have hfree : ∀ t c, r.claims.get? t = some c → c.slot ≠ id := by
        intro t c hc hs
        have hm := Entries.mem_of_get? hc
        have hz := List.countP_eq_zero.1 href _ hm
        exact hz (by simp [hs])
      have hreg := Entries.get?_erase r.registered key
      rw [he]
      refine ⟨⟨h.ticket_lt, ?_, ?_, ?_, ?_⟩, rfl⟩
      · intro key' id' hk'
        dsimp only at hk' ⊢
        rw [hreg] at hk'
        split at hk'
        · cases hk'
        · exact h.slot_lt key' id' hk'
      · intro key₁ key₂ id' h₁ h₂
        dsimp only at h₁ h₂
        rw [hreg] at h₁ h₂
        grind [h.key_eq key₁ key₂ id']
      · intro t c hc
        have hs := h.claimed t c hc
        dsimp only
        rw [hreg, if_neg, hs]
        rintro rfl
        exact hfree t c hc (Option.some.inj (hs.symm.trans hk))
      · intro key' id' hk'
        dsimp only at hk' ⊢
        rw [hreg] at hk'
        split at hk'
        · cases hk'
        · rename_i hne
          obtain ⟨slot, hs, hacc⟩ := h.slots key' id' hk'
          refine ⟨slot, ?_, hacc.holder, hacc.queue, hacc.nodup, hacc.idle⟩
          rw [Entries.get?_erase, if_neg, hs]
          rintro rfl
          exact hne (h.key_eq _ _ _ hk' hk)
    · have he : r.prune key = r := by simp [LockRegistry.prune, hk, href]
      rw [he]
      exact ⟨h, rfl⟩

theorem resume (h : r.Valid) (t : Ticket) : (r.resume t).Valid ∧ ∀ t', r.Keeps (r.resume t) t' := by
  unfold LockRegistry.resume
  split
  · rename_i key id hc
    have hkey : r.registered.get? key = some id := h.claimed t _ hc
    obtain ⟨slot, hslot, hacc⟩ := h.slots key id hkey
    have hslots : ∀ id', r.slots.get? id' = if id' = id then some slot else r.slots.get? id' := by
      intro id'
      split
      · rename_i hid
        rw [hid, hslot]
      · rfl
    have hclaims := fun t' ↦ Entries.get?_insert t t' (⟨key, id, .holding⟩ : Claim) r.claims
    refine ⟨h.of_claims hkey rfl rfl rfl hslots (fun t' ↦ ?_)
      ⟨fun t' ↦ ?_, fun t' ↦ ?_, hacc.nodup, hacc.idle⟩, fun t' ↦ ?_⟩
    · dsimp only
      rw [hclaims]
      grind
    · have hholder := hacc.holder t'
      dsimp only
      rw [hclaims]
      grind
    · have hqueue := hacc.queue t'
      dsimp only
      rw [hclaims]
      grind
    · by_cases ht : t' = t
      · intro c' hc'
        rw [ht, hc] at hc'
        obtain rfl := Option.some.inj hc'
        exact ⟨.holding, by rw [hclaims, if_pos ht], fun _ ↦ rfl⟩
      · exact .of_eq (by rw [hclaims, if_neg ht])
  · exact ⟨h, fun t' ↦ .of_eq rfl⟩

theorem expire (h : r.Valid) (t : Ticket) : (r.expire t).Valid ∧ ∀ t', t' ≠ t → r.Keeps (r.expire t) t' := by
  unfold LockRegistry.expire
  split
  · rename_i key id hc
    obtain ⟨hv, hclaims⟩ := (h.giveUp hc).prune key
    refine ⟨hv, fun t' ht ↦ .of_eq ((congrArg (Entries.get? · t') hclaims).trans ?_)⟩
    exact (Entries.get?_erase r.claims t t').trans (if_neg ht)
  · exact ⟨h, fun t' _ ↦ .of_eq rfl⟩

theorem cancel (h : r.Valid) (t : Ticket) : (r.cancel t).Valid ∧ ∀ t', t' ≠ t → r.Keeps (r.cancel t) t' := by
  unfold LockRegistry.cancel
  split
  · rename_i key id hc
    refine ⟨h.giveUp hc, fun t' ht ↦ .of_eq ?_⟩
    exact (Entries.get?_erase r.claims t t').trans (if_neg ht)
  · rename_i key id hc
    exact h.handOver hc (fun h ↦ by cases h)
  · exact ⟨h, fun t' _ ↦ .of_eq rfl⟩

theorem release (h : r.Valid) (t : Ticket) : (r.release t).Valid ∧ ∀ t', t' ≠ t → r.Keeps (r.release t) t' := by
  unfold LockRegistry.release
  split
  · rename_i key id hc
    obtain ⟨hv, hkeep⟩ := h.handOver hc (fun h ↦ by cases h)
    obtain ⟨hv', hclaims⟩ := hv.prune key
    refine ⟨hv', fun t' ht c hc ↦ ?_⟩
    rw [hclaims]
    exact hkeep t' ht c hc
  · exact ⟨h, fun t' _ ↦ .of_eq rfl⟩

theorem isLocked (h : r.Valid) (hc : r.claims.get? t = some ⟨key, id, .holding⟩) : r.isLocked key = true := by
  have hkey : r.registered.get? key = some id := h.claimed t _ hc
  obtain ⟨slot, hslot, hacc⟩ := h.slots key id hkey
  have hholder : slot.holder = some t := (hacc.holder t).2 (.inr hc)
  simp [LockRegistry.isLocked, hkey, hslot, hholder]

theorem holder_unique (h : r.Valid) {id' : SlotId} (hc : r.claims.get? t = some ⟨key, id, .holding⟩)
    (hc' : r.claims.get? t' = some ⟨key, id', .holding⟩) : t' = t := by
  have hkey : r.registered.get? key = some id := h.claimed t _ hc
  obtain rfl : id' = id := h.slot_eq hkey hc' rfl
  obtain ⟨slot, hslot, hacc⟩ := h.slots key id' hkey
  have hholder : slot.holder = some t := (hacc.holder t).2 (.inr hc)
  have hholder' : slot.holder = some t' := (hacc.holder t').2 (.inr hc')
  exact Option.some.inj (hholder'.symm.trans hholder)

end Valid

end IntentCorrection.LockRegistry
