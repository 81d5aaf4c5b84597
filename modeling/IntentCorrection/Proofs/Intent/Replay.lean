import IntentCorrection.Proofs.Concurrency.Once
import IntentCorrection.Proofs.Intent.Chronicle
import IntentCorrection.Proofs.Value.Norm

namespace IntentCorrection

namespace Diff

def Alike (d d' : Diff) : Prop := Value.Alike (Value.map d.entries).norm (Value.map d'.entries).norm

theorem alike_iff_canonical {d d' : Diff} : d.Alike d' ↔ d.canonical = d'.canonical := by
  constructor
  · intro h
    have htext := h.canonical_eq
    rwa [Value.canonical_norm, Value.canonical_norm] at htext
  · intro h
    have hends : Ends [] := fun c t h ↦ nomatch h
    have htext : (Value.map d.entries).norm.canonical ++ [] = (Value.map d'.entries).norm.canonical ++ [] := by
      rw [Value.canonical_norm, Value.canonical_norm]
      exact congrArg (· ++ []) h
    exact ((Value.setFree_norm _).canonical_append_inj (Value.setFree_norm _) hends hends htext).1

theorem alike_iff_correctionText {d d' : Diff} (key : String) :
    d.Alike d' ↔ correctionText key d = correctionText key d' := by
  rw [alike_iff_canonical, correctionText, correctionText, List.append_cancel_left_eq, List.cons.injEq]
  simp

theorem payload_eq_ok {d : Diff} (h : ∀ v, d.entries.get? payloadKey = some v → v.kind = .null ∨ v.kind = .map) :
    ∃ changes, d.payload = .ok changes := by
  unfold payload
  split
  · exact ⟨_, rfl⟩
  · exact ⟨_, rfl⟩
  · exact ⟨_, rfl⟩
  · rename_i v hnull hmap hv
    rcases h v hv with hkind | hkind
    · cases v <;> cases hkind
      exact absurd rfl hnull
    · cases v <;> cases hkind
      exact absurd rfl (hmap _)

end Diff

def Revision.diff? : Revision → Option Diff
  | .correction diff .. => some diff
  | .transition .. => none

namespace Intent

variable {i : Intent} {r : Revision} {rs : List Revision} {d : Diff} {record : CorrectionRecord}

/-- A call on the diff was accepted, and added the record. -/
def Accepted (i : Intent) (rs : List Revision) (d : Diff) (record : CorrectionRecord) : Prop :=
  ∃ before r after, rs = before ++ r :: after ∧ r.diff? = some d ∧
    ((i.reviseAll before).2.revise r).1 = .corrected record

theorem Accepted.mem (h : i.Accepted rs d record) : d ∈ rs.filterMap Revision.diff? := by
  obtain ⟨before, r, after, rfl, hd, -⟩ := h
  exact List.mem_filterMap.2 ⟨r, by simp, hd⟩

theorem accepted_cons : i.Accepted (r :: rs) d record ↔
    r.diff? = some d ∧ (i.revise r).1 = .corrected record ∨ (i.revise r).2.Accepted rs d record := by
  constructor
  · rintro ⟨before, r', after, hsplit, hd, ha⟩
    cases before with
    | nil =>
      cases hsplit
      exact .inl ⟨hd, ha⟩
    | cons first before =>
      cases hsplit
      exact .inr ⟨before, r', after, rfl, hd, ha⟩
  · rintro (⟨hd, ha⟩ | ⟨before, r', after, rfl, hd, ha⟩)
    · exact ⟨[], r, rs, rfl, hd, ha⟩
    · exact ⟨r :: before, r', after, rfl, hd, ha⟩

/-- A call keeps the key. It adds the record of its own diff, whose id is new, or leaves the history as it is. -/
theorem revise_history (i : Intent) (r : Revision) : (i.revise r).2.key = i.key ∧
    ((∀ record, (i.revise r).1 ≠ .corrected record) ∧ (i.revise r).2.history = i.history ∨
      ∃ d record, (i.revise r).1 = .corrected record ∧ r.diff? = some d ∧
        (i.revise r).2.history = i.history ++ [record] ∧
        record.id = correctionId i.key d ∧ record.id ∉ i.history.map (·.id)) := by
  rcases hr : i.revise r with ⟨a, next⟩
  rcases revise_cases hr with ⟨rfl, ha, -⟩ | ⟨record, payload, rfl, rfl, rfl, hid, hnew, -⟩ |
    ⟨requested, now, rfl, rfl, -, rfl⟩
  · refine ⟨rfl, .inl ⟨?_, rfl⟩⟩
    rintro record rfl
    cases ha
  · exact ⟨rfl, .inr ⟨record.diff, record, rfl, rfl, rfl, hid, hnew⟩⟩
  · exact ⟨rfl, .inl ⟨nofun, rfl⟩⟩

theorem reviseAll_key (i : Intent) (rs : List Revision) : (i.reviseAll rs).2.key = i.key := by
  induction rs generalizing i with
  | nil => rfl
  | cons r rs ih => exact (ih _).trans (revise_history i r).1

theorem distinct_reviseAll (h : History.Distinct i.history) (rs : List Revision) :
    History.Distinct (i.reviseAll rs).2.history := by
  induction rs generalizing i with
  | nil => exact h
  | cons r rs ih =>
    refine ih (i := (i.revise r).2) ?_
    rcases (i.revise_history r).2 with ⟨-, hsame⟩ | ⟨d, record, -, -, hadd, -, hnew⟩
    · rwa [hsame]
    · rw [hadd]
      refine h.append (by simp [History.Distinct]) fun r' hr' ↦ ?_
      rwa [List.mem_singleton.1 hr']

theorem Accepted.id (h : i.Accepted rs d record) : record.id = correctionId i.key d := by
  obtain ⟨before, r, after, -, hd, ha⟩ := h
  rcases ((i.reviseAll before).2.revise_history r).2 with ⟨hnone, -⟩ |
    ⟨d', record', ha', hd', -, hid, -⟩
  · exact absurd ha (hnone record)
  · obtain rfl : record' = record := by
      rw [ha'] at ha
      exact Revised.corrected.inj ha
    obtain rfl : d' = d := Option.some.inj (hd'.symm.trans hd)
    rwa [reviseAll_key] at hid

/-- What the history has beyond the one at the start are the records of the accepted calls. -/
theorem mem_history_reviseAll :
    record ∈ (i.reviseAll rs).2.history ↔ record ∈ i.history ∨ ∃ d, i.Accepted rs d record := by
  induction rs generalizing i with
  | nil =>
    have hnone : ∀ d, ¬ i.Accepted [] d record := by
      rintro d ⟨before, r, after, hsplit, -⟩
      simp at hsplit
    simp [reviseAll, hnone]
  | cons r rs ih =>
    have hrest := ih (i := (i.revise r).2)
    simp only [accepted_cons, exists_or, ← or_assoc]
    refine hrest.trans (or_congr_left ?_)
    rcases (i.revise_history r).2 with ⟨hnone, hsame⟩ | ⟨d, added, ha, hd, hadd, -, -⟩
    · simp [hsame, hnone]
    · simp [hadd, ha, hd, eq_comm]

/-- Provided that the text for the diff collides with no text for a diff of an earlier call: at a point where the
intent can be corrected, a diff for its payload is taken for an earlier correction just if one with the same norm
was accepted before. The answer is the record that was added then, whatever else is asked for with the diff. -/
theorem correct_alreadyApplied_iff (hempty : i.history = [])
    (hpayload : ∀ v, d.entries.get? Diff.payloadKey = some v → v.kind = .null ∨ v.kind = .map)
    (hlive : (i.reviseAll rs).2.status.isTerminal = false)
    (hinj : ∀ d' ∈ rs.filterMap Revision.diff?, correctionId i.key d' = correctionId i.key d →
      correctionText i.key d' = correctionText i.key d)
    (source : Actor) (reason : String) (metadata : Option ValueMap) (now : Timestamp) (record : CorrectionRecord) :
    (i.reviseAll rs).2.correct d source reason metadata now = .ok (.alreadyApplied record) ↔
      ∃ d', i.Accepted rs d' record ∧ d'.Alike d := by
  have hmem : ∀ r, r ∈ (i.reviseAll rs).2.history ↔ ∃ d', i.Accepted rs d' r := by
    intro r
    rw [mem_history_reviseAll, hempty]
    simp
  constructor
  · intro h
    obtain ⟨-, hfind⟩ := correct_alreadyApplied h
    obtain ⟨hm, hid⟩ := History.mem_of_find? hfind
    obtain ⟨d', hacc⟩ := (hmem record).1 hm
    rw [reviseAll_key, hacc.id] at hid
    exact ⟨d', hacc, (Diff.alike_iff_correctionText i.key).2 (hinj d' hacc.mem hid)⟩
  · rintro ⟨d', hacc, hd⟩
    obtain ⟨changes, hchanges⟩ := Diff.payload_eq_ok hpayload
    have hid : record.id = correctionId i.key d := by
      rw [hacc.id, correctionId, (Diff.alike_iff_correctionText i.key).1 hd, ← correctionId]
    -- No other record has the id, so the search ends at this one.
    have hdistinct : History.Distinct (i.reviseAll rs).2.history :=
      distinct_reviseAll (by simp [History.Distinct, hempty]) rs
    have hfind : History.find? (i.reviseAll rs).2.history (correctionId i.key d) = some record := by
      cases hf : History.find? (i.reviseAll rs).2.history (correctionId i.key d) with
      | none => exact absurd (List.mem_map.2 ⟨record, (hmem record).2 ⟨d', hacc⟩, hid⟩) (History.notMem_of_find? hf)
      | some other =>
        obtain ⟨hm, hid'⟩ := History.mem_of_find? hf
        rw [hdistinct.eq_of_id hm ((hmem record).2 ⟨d', hacc⟩) (hid'.trans hid.symm)]
    rw [correct, hlive, hchanges]
    simp only [Bool.false_eq_true, if_false, reviseAll_key, hfind]

end Intent

namespace Tagging

def first : Diff := .ofPayload [("tags", .set [.string "b", .string "a", .string "b"])]

def again : Diff := .ofPayload [("tags", .set [.string "a", .string "b"])]

def calls : List Revision := [.correction first .yuno "tagged" none Race.noon, .transition .corrected Race.noon]

def record : CorrectionRecord := ⟨correctionId "order-1" first, .yuno, "tagged", first, Race.noon, none⟩

theorem alike : first.Alike again := by
  have hset : Value.Rearranged (.set [.string "b", .string "a", .string "b"]) (.set [.string "a", .string "b"]) :=
    .set fun v ↦ by grind
  have hpayload := Value.Rearranged.inMap [] [] "tags" hset
  exact Diff.alike_iff_canonical.2 (Value.Rearranged.inMap [] [] Diff.payloadKey hpayload).canonical_eq

end Tagging

namespace Intent

open Tagging

theorem correct_alreadyApplied_tags :
    (Race.payment.reviseAll calls).2.correct again .kana "tagged as well" none Race.noon =
      .ok (.alreadyApplied record) := by
  have hpayload : ∀ v, again.entries.get? Diff.payloadKey = some v → v.kind = .null ∨ v.kind = .map := by
    rintro v ⟨⟩
    exact .inr rfl
  have hinj : ∀ d' ∈ calls.filterMap Revision.diff?, correctionId "order-1" d' = correctionId "order-1" again →
      correctionText "order-1" d' = correctionText "order-1" again := by
    intro d' hd' _
    rw [List.mem_singleton.1 hd', ← Diff.alike_iff_correctionText]
    exact alike
  have haccepted : Race.payment.Accepted calls first record := ⟨[], _, _, rfl, rfl, rfl⟩
  exact (correct_alreadyApplied_iff (i := Race.payment) rfl hpayload rfl hinj _ _ _ _ _).2 ⟨first, haccepted, alike⟩

end Intent

end IntentCorrection
