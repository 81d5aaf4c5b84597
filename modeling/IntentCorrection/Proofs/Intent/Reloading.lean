import IntentCorrection.Proofs.Intent.Codec
import IntentCorrection.Proofs.Intent.Steps
import IntentCorrection.Proofs.Json.Tree

namespace IntentCorrection

open Json (ofMap tree)

theorem Json.tree_ofMap {m : ValueMap} (h : (Value.map m).Ordered) : (ofMap m).tree = ofMap m := tree_ofValue h

namespace CorrectionRecord

variable {r : CorrectionRecord} {P Q : Value → Prop}

theorem Every.and (h : r.Every P) (h' : r.Every Q) : r.Every fun v ↦ P v ∧ Q v :=
  ⟨⟨h.1, h'.1⟩, fun m hm ↦ ⟨h.2 m hm, h'.2 m hm⟩⟩

theorem ofJson?_tree (h : r.Every Value.Ordered) : ofJson? r.toJson.tree = some r.listed := by
  rw [← ofJson?_toJson h]
  have hrecord : r.toJson.tree.record? .skip fieldNames = r.toJson.record? .skip fieldNames := by
    cases hmetadata : r.metadata with
    | none =>
      simp only [toJson, hmetadata]
      rw [Json.record?_tree (by simp)]
      simp [Uuid.toJson, Actor.toJson, Timestamp.toJson, Diff.toJson, Json.tree_ofMap h.1, tree]
    | some m =>
      simp only [toJson, hmetadata]
      rw [Json.record?_tree (by simp)]
      simp [Uuid.toJson, Actor.toJson, Timestamp.toJson, Diff.toJson, Json.tree_ofMap h.1,
        Json.tree_ofMap (h.2 m hmetadata), tree]
  simp only [ofJson?, hrecord]

end CorrectionRecord

namespace Intent

variable {i : Intent} {P Q : Value → Prop}

theorem Every.and (h : i.Every P) (h' : i.Every Q) : i.Every fun v ↦ P v ∧ Q v :=
  ⟨⟨h.1, h'.1⟩, fun r hr ↦ (h.2 r hr).and (h'.2 r hr)⟩

theorem tree_toJson (h : i.Every Value.Ordered) :
    i.toJson.tree.record? .skip fieldNames =
      some [some (.string i.key), some (.string i.kind), some i.correlationId.toJson, some i.status.toJson,
        some (.ofNat i.version), some (ofMap i.payload), some (.array (i.history.map fun r ↦ r.toJson.tree)),
        some i.createdAt.toJson, some i.updatedAt.toJson] := by
  rw [toJson, Json.record?_tree (by simp)]
  simp [Json.record?, Json.onlyField?, fieldNames, Uuid.toJson, Status.toJson, Timestamp.toJson,
    Json.ofNat, Json.tree_ofMap h.1, tree, Json.treeItems_eq_map]

theorem ofJson?_tree (h : i.Every Value.Ordered) (hversion : i.version < Word.size64) :
    ofJson? i.toJson.tree = some i.listed := by
  have hversion : (Json.ofNat i.version).below? Word.size64 = some i.version := by
    simp [Json.below?, Json.ofNat, Json.natural?, Number.natural?, hversion]
  have hhistory : Json.listOf? CorrectionRecord.ofJson? (.array (i.history.map fun r ↦ r.toJson.tree)) =
      some (i.history.map CorrectionRecord.listed) :=
    Json.listOf?_map fun r hr ↦ CorrectionRecord.ofJson?_tree (h.2 r hr)
  simp [ofJson?, tree_toJson h, Json.string?, Uuid.ofJson?_toJson, Status.ofJson?_toJson, hversion,
    Json.map?_ofMap h.1, hhistory, Timestamp.ofJson?_toJson, listed]

theorem find?_listed (i : Intent) (id : Uuid) :
    History.find? i.listed.history id = (History.find? i.history id).map CorrectionRecord.listed := by
  unfold History.find? listed
  rw [List.find?_map]
  rfl

variable {d : Diff} {source : Actor} {reason : String} {metadata : Option ValueMap} {now : Timestamp}
  {r : CorrectionRecord}

theorem correct_alreadyApplied_iff_find? :
    i.correct d source reason metadata now = .ok (.alreadyApplied r) ↔
      i.status.isTerminal = false ∧ (∃ changes, d.payload = .ok changes) ∧
        History.find? i.history (correctionId i.key d) = some r := by
  constructor
  · intro h
    obtain ⟨hlive, hfind⟩ := correct_alreadyApplied h
    refine ⟨hlive, ?_, hfind⟩
    cases hpayload : d.payload with
    | ok changes => exact ⟨changes, rfl⟩
    | error e => simp [correct, hlive, hpayload] at h
  · rintro ⟨hlive, ⟨changes, hpayload⟩, hfind⟩
    simp [correct, hlive, hpayload, hfind]

theorem correct_listed_iff :
    i.listed.correct d source reason metadata now = .ok (.alreadyApplied r) ↔
      ∃ r', i.correct d source reason metadata now = .ok (.alreadyApplied r') ∧ r'.listed = r := by
  simp only [correct_alreadyApplied_iff_find?, find?_listed, Option.map_eq_some_iff]
  constructor
  · rintro ⟨hlive, hpayload, r', hfind, heq⟩
    exact ⟨r', ⟨hlive, hpayload, hfind⟩, heq⟩
  · rintro ⟨r', ⟨hlive, hpayload, hfind⟩, heq⟩
    exact ⟨hlive, hpayload, r', hfind, heq⟩

/-- An intent comes back from its tree of maps, with a list for each set, so as it was if there are none. What counts
as applied does not change, and the ids in the history are the same. -/
theorem reloaded (h : i.Every Value.Ordered) (hversion : i.version < Word.size64) :
    ofJson? i.toJson.tree = some i.listed ∧ (i.Every Value.SetFree → ofJson? i.toJson.tree = some i) ∧
      i.listed.history.map (·.id) = i.history.map (·.id) ∧
      ∀ d source reason metadata now r,
        i.listed.correct d source reason metadata now = .ok (.alreadyApplied r) ↔
          ∃ r', i.correct d source reason metadata now = .ok (.alreadyApplied r') ∧ r'.listed = r := by
  refine ⟨ofJson?_tree h hversion, fun hfree ↦ ?_, ?_, fun _ _ _ _ _ _ ↦ correct_listed_iff⟩
  · rw [ofJson?_tree h hversion, listed_eq (h.and hfree)]
  · rw [listed, List.map_map]
    rfl

end Intent

namespace Reloading

def labels : ValueMap := [("tags", .set [.string "b", .set [.null], .string "a"])]

def tagging : Diff := .ofPayload labels

def evening : Timestamp := ⟨⟨2024, 2, 29, by decide⟩, ⟨23, 59, 59, 120000000, by decide⟩, -330, by decide⟩

def record : CorrectionRecord := ⟨correctionId "order-1" tagging, .yuno, "tagged", tagging, evening, some []⟩

def payment : Intent := (Intent.received "order-1" "payment" [] (.ofRandom 0) evening).corrected labels record

theorem ordered_labels : (Value.map labels).Ordered := by
  have hinner : (Value.set [.null]).Ordered := .set (by simp [Value.Ordered.null])
  refine .map (by simp [labels, Entries.Sorted]) ?_
  simp only [labels, List.mem_singleton, forall_eq]
  exact .set (by simp [Value.Ordered.string, hinner])

theorem ordered_payment : payment.Every Value.Ordered := by
  have hdiff : (Value.map tagging.entries).Ordered :=
    .map (by simp [tagging, Diff.ofPayload, Entries.Sorted]) (by simpa [tagging, Diff.ofPayload] using ordered_labels)
  refine ⟨ordered_labels, ?_⟩
  simp only [payment, Intent.corrected, Intent.received, List.nil_append, List.mem_singleton, forall_eq]
  refine ⟨hdiff, ?_⟩
  rintro m ⟨⟩
  exact .map Entries.sorted_nil (by simp)

end Reloading

namespace Intent

open Reloading

theorem reloaded_tags :
    ofJson? payment.toJson.tree = some payment.listed ∧
      payment.listed.payload = [("tags", .list [.string "b", .list [.null], .string "a"])] ∧
      payment.listed.correct tagging .kana "tagged as well" none evening = .ok (.alreadyApplied record.listed) := by
  obtain ⟨hread, -, -, hreplay⟩ := reloaded ordered_payment (by decide)
  have hfind : History.find? payment.history (correctionId payment.key tagging) = some record := by
    simp [payment, corrected, received, History.find?, record]
  exact ⟨hread, rfl, (hreplay _ _ _ _ _ _).2
    ⟨record, correct_alreadyApplied_iff_find?.2 ⟨rfl, ⟨labels, rfl⟩, hfind⟩, rfl⟩⟩

end Intent

end IntentCorrection
