import IntentCorrection.Intent.Correction

namespace IntentCorrection.Intent

variable {i next : Intent} {diff : Diff} {source : Actor} {reason : String}
  {metadata : Option ValueMap} {now : Timestamp} {record : CorrectionRecord}

/-- A correction is applied to an intent that is not terminal and does not have it in its history. -/
theorem correct_applied (h : i.correct diff source reason metadata now = .ok (.applied next record)) :
    i.status.isTerminal = false ∧
      record = ⟨correctionId i.key diff, source, reason, diff, now, metadata⟩ ∧
      History.find? i.history record.id = none ∧
      ∃ changes payload, diff.payload = .ok changes ∧ Diff.apply i.payload changes = .ok payload ∧
        next = i.corrected payload record := by
  unfold correct at h
  split at h
  · cases h
  · rename_i hs
    split at h
    · cases h
    · rename_i changes hc
      dsimp only at h
      split at h
      · cases h
      · rename_i hf
        split at h
        · cases h
        · rename_i payload hp
          split at h
          · cases h
            exact ⟨by simpa using hs, rfl, hf, changes, payload, hc, hp, rfl⟩
          · cases h

theorem hasRoom_of_applied (h : i.correct diff source reason metadata now = .ok (.applied next record)) : i.HasRoom := by
  unfold correct at h
  split at h
  · cases h
  · split at h
    · cases h
    · dsimp only at h
      split at h
      · cases h
      · split at h
        · cases h
        · split at h
          · assumption
          · cases h

theorem correct_of_fresh {changes payload : ValueMap} (hs : i.status.isTerminal = false)
    (hchanges : diff.payload = .ok changes) (hf : History.find? i.history (correctionId i.key diff) = none)
    (hpayload : Diff.apply i.payload changes = .ok payload) (hroom : i.HasRoom) :
    i.correct diff source reason metadata now =
      .ok (.applied (i.corrected payload ⟨correctionId i.key diff, source, reason, diff, now, metadata⟩)
        ⟨correctionId i.key diff, source, reason, diff, now, metadata⟩) := by
  unfold correct
  simp only [hs, hchanges, hf, hpayload, hroom, Bool.false_eq_true, if_false, if_true]

theorem correct_alreadyApplied
    (h : i.correct diff source reason metadata now = .ok (.alreadyApplied record)) :
    i.status.isTerminal = false ∧ History.find? i.history (correctionId i.key diff) = some record := by
  unfold correct at h
  split at h
  · cases h
  · rename_i hs
    split at h
    · cases h
    · dsimp only at h
      split at h
      · rename_i hf
        cases h
        exact ⟨by simpa using hs, hf⟩
      · split at h
        · cases h
        · split at h <;> cases h

theorem transition_ok {requested : Status} (h : i.transition requested now = .ok next) :
    i.status.canBecome requested = true ∧
      (i.status = requested ∧ next = i ∨
        i.status ≠ requested ∧
          next = { i with status := requested, version := i.version + 1, updatedAt := now }) := by
  unfold transition validateTransition at h
  by_cases hc : i.status.canBecome requested = true
  · simp only [hc, if_true] at h
    split at h
    · rename_i he
      cases h
      exact ⟨hc, .inl ⟨he, rfl⟩⟩
    · rename_i he
      split at h
      · cases h
        exact ⟨hc, .inr ⟨he, rfl⟩⟩
      · cases h
  · simp only [hc, Bool.false_eq_true, if_false] at h
    cases h

theorem hasRoom_of_moved {requested : Status} (h : i.transition requested now = .ok next)
    (hne : i.status ≠ requested) : i.HasRoom := by
  unfold transition at h
  split at h
  · cases h
  · rw [if_neg hne] at h
    split at h
    · assumption
    · cases h

end IntentCorrection.Intent

namespace IntentCorrection.History

variable {history : List CorrectionRecord} {id : Uuid} {record : CorrectionRecord}

theorem mem_of_find? (h : find? history id = some record) : record ∈ history ∧ record.id = id := by
  obtain ⟨hid, _⟩ := List.find?_eq_some_iff_append.1 h
  exact ⟨List.mem_of_find?_eq_some h, by simpa using hid⟩

theorem notMem_of_find? (h : find? history id = none) : id ∉ history.map (·.id) := by
  intro hm
  obtain ⟨r, hr, he⟩ := List.mem_map.1 hm
  simpa [he] using List.find?_eq_none.1 h r hr

end IntentCorrection.History
