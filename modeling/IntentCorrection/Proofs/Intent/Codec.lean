import IntentCorrection.Intent.Codec
import IntentCorrection.Proofs.Json.Values
import IntentCorrection.Proofs.Time.Timestamp
import IntentCorrection.Proofs.Uuid.Text

namespace IntentCorrection

theorem Uuid.ofJson?_toJson (u : Uuid) : ofJson? u.toJson = some u := by
  simp [ofJson?, toJson, Json.string?, parse?_text]

theorem Timestamp.ofJson?_toJson (t : Timestamp) : ofJson? t.toJson = some t := by
  simp [ofJson?, toJson, Json.string?, parse?_text]

theorem Status.ofJson?_toJson (s : Status) : ofJson? s.toJson = some s := ofName?_name s

theorem Actor.ofJson?_toJson (a : Actor) : ofJson? a.toJson = some a := ofName?_name a

namespace Json

theorem map?_ofMap {m : ValueMap} (h : (Value.map m).Ordered) : (ofMap m).map? = some (Value.listedEntries m) := by
  rw [map?, ofMap, value?_ofValue h]
  rfl

theorem plain_of_map? {j : Json} {m : ValueMap} (h : j.map? = some m) : (Value.map m).Plain := by
  obtain ⟨v, hv, hmap⟩ := Option.bind_eq_some_iff.1 h
  cases v with
  | map m' =>
    cases hmap
    exact plain_of_value? hv
  | _ => cases hmap

theorem optionalMap?_eq {j : Json} (h : j ≠ .null) : j.optionalMap? = j.map?.map some := by
  unfold optionalMap?
  split
  · exact absurd rfl h
  · rfl

theorem plain_of_optionalMap? {j : Json} {m : ValueMap} (h : j.optionalMap? = some (some m)) :
    (Value.map m).Plain := by
  unfold optionalMap? at h
  split at h
  · cases h
  · obtain ⟨m', hmap, he⟩ := Option.map_eq_some_iff.1 h
    cases he
    exact plain_of_map? hmap

theorem map?_clipped {outer : Nat} (houter : outer ≤ maxDepth) {m : ValueMap}
    (h : maxDepth < outer + (ofMap m).depth) : (clipped outer (ofMap m)).map? = none := by
  rw [map?, value?_clipped houter h]
  rfl

variable {α β : Type} {read : Json → Option α} {items : List Json} {xs : List α}

theorem listOf?_map {write : β → Json} {f : β → α} {ys : List β} (h : ∀ y ∈ ys, read (write y) = some (f y)) :
    listOf? read (.array (ys.map write)) = some (ys.map f) := by
  change (ys.map write).mapM read = _
  induction ys with
  | nil => rfl
  | cons y ys ih =>
    obtain ⟨hy, hys⟩ := List.forall_mem_cons.1 h
    simp [List.mapM_cons, hy, ih hys]

theorem listOf?_of_mem {j : Json} (hj : j ∈ items) (h : read j = none) : listOf? read (.array items) = none := by
  change items.mapM read = _
  induction items with
  | nil => cases hj
  | cons k r ih =>
    rcases List.mem_cons.1 hj with rfl | hj
    · simp [List.mapM_cons, h]
    · simp [List.mapM_cons, ih hj]

theorem listOf?_clipped {write : β → Json} {ys : List β} {outer : Nat}
    (hread : ∀ y ∈ ys, maxDepth < outer + 1 + (write y).depth → read ((write y).clipped (outer + 1)) = none)
    (h : maxDepth < outer + (array (ys.map write)).depth) :
    listOf? read (clipped outer (.array (ys.map write))) = none := by
  rw [clipped_array]
  split
  case isFalse => rfl
  rename_i hroom
  obtain ⟨j, hj, hdeep⟩ := exists_deep_item hroom h
  obtain ⟨y, hy, rfl⟩ := List.mem_map.1 hj
  exact listOf?_of_mem (List.mem_map_of_mem hj) (hread y hy hdeep)

theorem mem_of_listOf? {j : Json} (h : listOf? read j = some xs) {x : α} (hx : x ∈ xs) : ∃ k, read k = some x := by
  obtain ⟨items, -, hitems⟩ := Option.bind_eq_some_iff.1 h
  clear h
  induction items generalizing xs with
  | nil =>
    cases hitems
    cases hx
  | cons k r ih =>
    simp only [List.mapM_cons, Option.pure_def, Option.bind_eq_bind, Option.bind_eq_some_iff, Option.some.injEq]
      at hitems
    obtain ⟨y, hy, ys, hys, rfl⟩ := hitems
    rcases List.mem_cons.1 hx with rfl | hx
    · exact ⟨k, hy⟩
    · exact ih hx hys

end Json

namespace CorrectionRecord

variable {P : Value → Prop} {r : CorrectionRecord}

def Every (P : Value → Prop) (r : CorrectionRecord) : Prop :=
  P (.map r.diff.entries) ∧ ∀ m, r.metadata = some m → P (.map m)

theorem Every.imp {Q : Value → Prop} (h : r.Every P) (hpq : ∀ v, P v → Q v) : r.Every Q :=
  ⟨hpq _ h.1, fun m hm ↦ hpq _ (h.2 m hm)⟩

def listed (r : CorrectionRecord) : CorrectionRecord :=
  { r with
    diff := ⟨Value.listedEntries r.diff.entries⟩
    metadata := r.metadata.map Value.listedEntries }

theorem listed_eq (h : r.Every Value.Plain) : r.listed = r := by
  obtain ⟨id, source, reason, ⟨diff⟩, appliedAt, metadata⟩ := r
  cases metadata with
  | none => simp [listed, h.1.listedEntries_eq]
  | some m => simp [listed, h.1.listedEntries_eq, (h.2 m rfl).listedEntries_eq]

theorem ofJson?_toJson (h : r.Every Value.Ordered) : ofJson? r.toJson = some r.listed := by
  have hdiff : Diff.ofJson? r.diff.toJson = some r.listed.diff := by
    rw [Diff.ofJson?, Diff.toJson, Json.map?_ofMap h.1]
    rfl
  cases hmetadata : r.metadata with
  | none =>
    simp [ofJson?, toJson, hmetadata, Json.record?, Json.onlyField?, fieldNames, Uuid.ofJson?_toJson,
      Actor.ofJson?_toJson, Json.string?, hdiff, Timestamp.ofJson?_toJson, Json.optionalMap?, listed]
  | some m =>
    have hmap : (Json.ofMap m).optionalMap? = some (some (Value.listedEntries m)) := by
      rw [Json.optionalMap?_eq (fun hnull ↦ by cases hnull), Json.map?_ofMap (h.2 m hmetadata)]
      rfl
    simp [ofJson?, toJson, hmetadata, Json.record?, Json.onlyField?, fieldNames, Uuid.ofJson?_toJson,
      Actor.ofJson?_toJson, Json.string?, hdiff, Timestamp.ofJson?_toJson, hmap, listed]

theorem plain_of_ofJson? {j : Json} (h : ofJson? j = some r) : r.Every Value.Plain := by
  unfold ofJson? at h
  simp only [Option.bind_eq_bind, Option.bind_eq_some_iff] at h
  obtain ⟨fields, -, h⟩ := h
  split at h
  case h_2 => cases h
  simp only [Option.bind_eq_some_iff] at h
  obtain ⟨id, -, source, -, reason, -, diff, hdiff, appliedAt, -, metadata, hmetadata, h⟩ := h
  cases h
  refine ⟨?_, ?_⟩
  · obtain ⟨j, -, hj⟩ := hdiff
    obtain ⟨m, hmap, rfl⟩ := Option.map_eq_some_iff.1 hj
    exact Json.plain_of_map? hmap
  · rintro m rfl
    exact Json.plain_of_optionalMap? hmetadata

theorem ofJson?_clipped {outer : Nat} (h : Json.maxDepth < outer + r.toJson.depth) :
    ofJson? (r.toJson.clipped outer) = none := by
  unfold toJson at h ⊢
  rw [Json.clipped_object]
  split
  case isFalse => rfl
  rename_i hroom
  obtain ⟨f, hf, hdeep⟩ := Json.exists_deep_field hroom h
  rcases List.mem_append.1 hf with hf | hf
  · simp only [List.mem_cons, List.not_mem_nil, or_false] at hf
    rcases hf with rfl | rfl | rfl | rfl | rfl
    · exact absurd hdeep (Nat.not_lt.2 hroom)
    · exact absurd hdeep (Nat.not_lt.2 hroom)
    · exact absurd hdeep (Nat.not_lt.2 hroom)
    · have hdiff : Diff.ofJson? (r.diff.toJson.clipped (outer + 1)) = none := by
        rw [Diff.ofJson?, Diff.toJson, Json.map?_clipped hroom hdeep]
        rfl
      cases r.metadata <;> simp [ofJson?, Json.record?, Json.onlyField?, fieldNames, hdiff]
    · exact absurd hdeep (Nat.not_lt.2 hroom)
  · cases hmetadata : r.metadata with
    | none => simp [hmetadata] at hf
    | some m =>
      obtain rfl : f = ("metadata", Json.ofMap m) := by simpa [hmetadata] using hf
      have hnull : Json.clipped (outer + 1) (Json.ofMap m) ≠ .null := by
        rw [Json.ofMap, Json.ofValue, Json.clipped_object]
        split
        · exact Json.noConfusion
        · exact Json.noConfusion
      have hoptional : (Json.clipped (outer + 1) (Json.ofMap m)).optionalMap? = none := by
        rw [Json.optionalMap?_eq hnull, Json.map?_clipped hroom hdeep]
        rfl
      simp [ofJson?, Json.record?, Json.onlyField?, fieldNames, hoptional]

end CorrectionRecord

namespace Intent

variable {P : Value → Prop} {i : Intent}

def Every (P : Value → Prop) (i : Intent) : Prop := P (.map i.payload) ∧ ∀ r ∈ i.history, r.Every P

theorem Every.imp {Q : Value → Prop} (h : i.Every P) (hpq : ∀ v, P v → Q v) : i.Every Q :=
  ⟨hpq _ h.1, fun r hr ↦ (h.2 r hr).imp hpq⟩

def listed (i : Intent) : Intent :=
  { i with
    payload := Value.listedEntries i.payload
    history := i.history.map CorrectionRecord.listed }

theorem listed_eq (h : i.Every Value.Plain) : i.listed = i := by
  have hhistory : i.history.map CorrectionRecord.listed = i.history := by
    rw [List.map_congr_left (g := id), List.map_id]
    exact fun r hr ↦ CorrectionRecord.listed_eq (h.2 r hr)
  rw [listed, h.1.listedEntries_eq, hhistory]

theorem ofJson?_toJson (h : i.Every Value.Ordered) (hversion : i.version < Word.size64) :
    ofJson? i.toJson = some i.listed := by
  have hversion : (Json.ofNat i.version).below? Word.size64 = some i.version := by
    simp [Json.below?, Json.ofNat, Json.natural?, Number.natural?, hversion]
  have hhistory : Json.listOf? CorrectionRecord.ofJson? (.array (i.history.map CorrectionRecord.toJson)) =
      some (i.history.map CorrectionRecord.listed) :=
    Json.listOf?_map fun r hr ↦ CorrectionRecord.ofJson?_toJson (h.2 r hr)
  simp [ofJson?, toJson, Json.record?, Json.onlyField?, fieldNames, Json.string?, Uuid.ofJson?_toJson,
    Status.ofJson?_toJson, hversion, Json.map?_ofMap h.1, hhistory, Timestamp.ofJson?_toJson, listed]

theorem plain_of_ofJson? {j : Json} (h : ofJson? j = some i) : i.Every Value.Plain ∧ i.version < Word.size64 := by
  unfold ofJson? at h
  simp only [Option.bind_eq_bind, Option.bind_eq_some_iff] at h
  obtain ⟨fields, -, h⟩ := h
  split at h
  case h_2 => cases h
  simp only [Option.bind_eq_some_iff] at h
  obtain ⟨key, -, kind, -, correlationId, -, status, -, version, hversion, payload, hpayload, history, hhistory,
    createdAt, -, updatedAt, -, h⟩ := h
  cases h
  refine ⟨⟨?_, ?_⟩, ?_⟩
  · obtain ⟨j, -, hj⟩ := hpayload
    exact Json.plain_of_map? hj
  · intro r hr
    obtain ⟨j, hj⟩ := Json.mem_of_listOf? hhistory hr
    exact CorrectionRecord.plain_of_ofJson? hj
  · obtain ⟨j, -, hj⟩ := hversion
    obtain ⟨n, -, hn⟩ := Option.bind_eq_some_iff.1 hj
    split at hn
    · cases hn
      assumption
    · cases hn

theorem ofJson?_clipped {outer : Nat} (h : Json.maxDepth < outer + i.toJson.depth) :
    ofJson? (i.toJson.clipped outer) = none := by
  unfold toJson at h ⊢
  rw [Json.clipped_object]
  split
  case isFalse => rfl
  rename_i hroom
  obtain ⟨f, hf, hdeep⟩ := Json.exists_deep_field hroom h
  simp only [List.mem_cons, List.not_mem_nil, or_false] at hf
  rcases hf with rfl | rfl | rfl | rfl | rfl | rfl | rfl | rfl | rfl
  · exact absurd hdeep (Nat.not_lt.2 hroom)
  · exact absurd hdeep (Nat.not_lt.2 hroom)
  · exact absurd hdeep (Nat.not_lt.2 hroom)
  · exact absurd hdeep (Nat.not_lt.2 hroom)
  · exact absurd hdeep (Nat.not_lt.2 hroom)
  · have hpayload : (Json.clipped (outer + 1) (Json.ofMap i.payload)).map? = none :=
      Json.map?_clipped hroom hdeep
    simp [ofJson?, Json.record?, Json.onlyField?, fieldNames, hpayload]
  · have hhistory : Json.listOf? CorrectionRecord.ofJson?
        (Json.clipped (outer + 1) (.array (i.history.map CorrectionRecord.toJson))) = none :=
      Json.listOf?_clipped (fun r _ hr ↦ CorrectionRecord.ofJson?_clipped hr) hdeep
    simp [ofJson?, Json.record?, Json.onlyField?, fieldNames, hhistory]
  · exact absurd hdeep (Nat.not_lt.2 hroom)
  · exact absurd hdeep (Nat.not_lt.2 hroom)

end Intent

end IntentCorrection
