import IntentCorrection.Proofs.Concurrency.Schedule
import IntentCorrection.Proofs.Diff.Commutation
import IntentCorrection.Proofs.Intent.Chronicle

namespace IntentCorrection

namespace Intent

variable {i i₁ next last : Intent} {c c₁ c₂ : Revision} {record r₁ r₂ : CorrectionRecord} {d₁ d₂ : ValueMap}

theorem revise_eq_corrected_iff : i.revise c = (.corrected record, next) ↔
    i.status.isTerminal = false ∧ i.HasRoom ∧
      c = .correction record.diff record.source record.reason record.metadata record.appliedAt ∧
      record.id = correctionId i.key record.diff ∧ History.find? i.history record.id = none ∧
      ∃ changes payload, record.diff.payload = .ok changes ∧ Diff.apply i.payload changes = .ok payload ∧
        next = i.corrected payload record := by
  constructor
  · intro h
    rcases revise_cases h with ⟨-, hnone, -⟩ | ⟨record', payload, hrecord, -, rfl, -⟩ | ⟨_, _, hmoved, -⟩
    · cases hnone
    · cases hrecord
      unfold revise at h
      dsimp only at h
      split at h
      · cases h
      · cases h
      · rename_i hc
        cases h
        have hroom := hasRoom_of_applied hc
        obtain ⟨hs, hrecord, hf, changes, payload, hchanges, hpayload, rfl⟩ := correct_applied hc
        exact ⟨hs, hroom, rfl, congrArg CorrectionRecord.id hrecord, hf, changes, payload, hchanges, hpayload, rfl⟩
    · cases hmoved
  · rintro ⟨hs, hroom, rfl, hid, hf, changes, payload, hchanges, hpayload, rfl⟩
    rw [hid] at hf
    simp only [revise, correct_of_fresh hs hchanges hf hpayload hroom]
    rw [← hid]

theorem reviseAll_pair {a₁ a₂ : Revised} :
    i.reviseAll [c₁, c₂] = ([a₁, a₂], last) ↔ ∃ i₁, i.revise c₁ = (a₁, i₁) ∧ i₁.revise c₂ = (a₂, last) := by
  simp only [reviseAll, Prod.mk.injEq, List.cons.injEq, and_true]
  constructor
  · rintro ⟨⟨h₁, h₂⟩, hlast⟩
    exact ⟨_, Prod.ext h₁ rfl, Prod.ext h₂ hlast⟩
  · rintro ⟨i₁, h₁, h₂⟩
    rw [h₁, h₂]
    exact ⟨⟨rfl, rfl⟩, rfl⟩

theorem revise_swap (hind : Diff.Independent d₁ d₂) (h₁ : r₁.diff.payload = .ok d₁) (h₂ : r₂.diff.payload = .ok d₂)
    (hfirst : i.revise c₁ = (.corrected r₁, i₁)) (hsecond : i₁.revise c₂ = (.corrected r₂, last)) :
    ∃ i₂ last', i.revise c₂ = (.corrected r₂, i₂) ∧ i₂.revise c₁ = (.corrected r₁, last') ∧
      last'.payload = last.payload := by
  obtain ⟨hs, hroom, hc₁, hid₁, hf₁, changes₁, payload₁, hchanges₁, hpayload₁, rfl⟩ := revise_eq_corrected_iff.1 hfirst
  obtain ⟨-, hroom', hc₂, hid₂, hf₂, changes₂, payload₂, hchanges₂, hpayload₂, rfl⟩ := revise_eq_corrected_iff.1 hsecond
  obtain rfl : changes₁ = d₁ := Except.ok.inj (hchanges₁.symm.trans h₁)
  obtain rfl : changes₂ = d₂ := Except.ok.inj (hchanges₂.symm.trans h₂)
  have hboth : (do Diff.apply (← Diff.apply i.payload changes₁) changes₂) = .ok payload₂ := by
    rw [hpayload₁]
    exact hpayload₂
  obtain ⟨payload, hpayload, hlast⟩ := ok_of_bind (Diff.apply_swap hind hboth)
  -- The second is not in the history with the first, nor has it the same id, so neither is there for the other.
  obtain ⟨hold₂, hne⟩ : History.find? i.history r₂.id = none ∧ r₁.id ≠ r₂.id := by
    simpa [History.find?, corrected, List.find?_append] using hf₂
  have hnew₁ : History.find? (i.corrected payload r₂).history r₁.id = none := by
    simpa [History.find?, corrected, List.find?_append, hne.symm] using hf₁
  refine ⟨i.corrected payload r₂, (i.corrected payload r₂).corrected payload₂ r₁, ?_, ?_, rfl⟩
  · exact revise_eq_corrected_iff.2 ⟨hs, hroom, hc₂, hid₂, hold₂, _, _, h₂, hpayload, rfl⟩
  · exact revise_eq_corrected_iff.2 ⟨rfl, hroom', hc₁, hid₁, hnew₁, _, _, h₁, hlast, rfl⟩

/-- Two independent diffs can be applied in the one order just if they can in the other, and they give the same map.
So an intent that takes two corrections of such payloads takes them in the other order too, and has the same payload
then. -/
theorem corrections_commute (hind : Diff.Independent d₁ d₂) :
    (∀ t r, (do Diff.apply (← Diff.apply t d₁) d₂) = .ok r ↔ (do Diff.apply (← Diff.apply t d₂) d₁) = .ok r) ∧
      ∀ (i last : Intent) (c₁ c₂ : Revision) (r₁ r₂ : CorrectionRecord), r₁.diff.payload = .ok d₁ →
        r₂.diff.payload = .ok d₂ → i.reviseAll [c₁, c₂] = ([.corrected r₁, .corrected r₂], last) →
        ∃ last', i.reviseAll [c₂, c₁] = ([.corrected r₂, .corrected r₁], last') ∧ last'.payload = last.payload := by
  refine ⟨fun t r ↦ ⟨Diff.apply_swap hind, Diff.apply_swap hind.symm⟩, fun i last c₁ c₂ r₁ r₂ h₁ h₂ h ↦ ?_⟩
  obtain ⟨i₁, hfirst, hsecond⟩ := reviseAll_pair.1 h
  obtain ⟨i₂, last', hfirst', hsecond', hpayload⟩ := revise_swap hind h₁ h₂ hfirst hsecond
  exact ⟨last', reviseAll_pair.2 ⟨i₂, hfirst', hsecond'⟩, hpayload⟩

end Intent

namespace Dating

def due : ValueMap := [("dates.due", .string "May")]

def paid : ValueMap := [("dates.paid", .string "June")]

def record (changes : ValueMap) : CorrectionRecord :=
  ⟨correctionId "order-1" (.ofPayload changes), .yuno, "wrong date", .ofPayload changes, Race.noon, none⟩

def call (changes : ValueMap) : Revision := .correction (.ofPayload changes) .yuno "wrong date" none Race.noon

end Dating

namespace Intent

open Dating

theorem corrections_commute_dates : ∃ last last',
    Race.payment.reviseAll [call due, call paid] = ([.corrected (record due), .corrected (record paid)], last) ∧
      Race.payment.reviseAll [call paid, call due] = ([.corrected (record paid), .corrected (record due)], last') ∧
        last'.payload = last.payload := by
  have hind : Diff.Independent due paid := by
    unfold Diff.Independent
    decide +kernel
  have hne : (record due).id ≠ (record paid).id := by decide +kernel
  obtain ⟨i, hfirst⟩ : ∃ i, Race.payment.revise (call due) = (.corrected (record due), i) := ⟨_, rfl⟩
  obtain ⟨last, h⟩ : ∃ last, Race.payment.reviseAll [call due, call paid] =
      ([.corrected (record due), .corrected (record paid)], last) := by
    obtain ⟨-, -, -, -, -, changes, payload, hchanges, hpayload, rfl⟩ := revise_eq_corrected_iff.1 hfirst
    cases hchanges
    cases hpayload
    refine ⟨_, reviseAll_pair.2 ⟨_, hfirst, revise_eq_corrected_iff.2 ⟨rfl, by decide, rfl, rfl, ?_, _, _, rfl, rfl, rfl⟩⟩⟩
    simpa [History.find?, corrected, Race.payment, received] using hne
  obtain ⟨last', h', hpayload⟩ := (corrections_commute hind).2 _ _ _ _ _ _ rfl rfl h
  exact ⟨last, last', h, h', hpayload⟩

end Intent

end IntentCorrection
