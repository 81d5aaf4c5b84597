import IntentCorrection.Proofs.CommandLine.Drafts
import IntentCorrection.Proofs.Intent.Plain
import IntentCorrection.Proofs.Json.Reading
import IntentCorrection.Proofs.Store.Snapshot

namespace IntentCorrection

/-- Its numbers are read as they are written, and its version has 64 bits. -/
def Intent.Legible (i : Intent) : Prop :=
  i.Every (fun v ↦ (Json.ofValue v).Legible) ∧ i.version < Word.size64

theorem CorrectionRecord.legible_toJson {r : CorrectionRecord} (h : r.Every fun v ↦ (Json.ofValue v).Legible) :
    r.toJson.Legible := by
  refine .object fun f hf ↦ ?_
  rcases List.mem_append.1 hf with hf | hf
  · simp only [List.mem_cons, List.not_mem_nil, or_false] at hf
    rcases hf with rfl | rfl | rfl | rfl | rfl
    · exact .string _
    · exact .string _
    · exact .string _
    · exact h.1
    · exact .string _
  · obtain ⟨m, hm, rfl⟩ := Option.map_eq_some_iff.1 (Option.mem_toList.1 hf)
    exact h.2 m hm

theorem Intent.Legible.toJson {i : Intent} (h : i.Legible) : i.toJson.Legible := by
  refine .object fun f hf ↦ ?_
  simp only [List.mem_cons, List.not_mem_nil, or_false] at hf
  rcases hf with rfl | rfl | rfl | rfl | rfl | rfl | rfl | rfl | rfl
  · exact .string _
  · exact .string _
  · exact .string _
  · exact .string _
  · exact .number (Number.readsBack_natural h.2)
  · exact h.1.1
  · refine .array fun j hj ↦ ?_
    obtain ⟨r, hr, rfl⟩ := List.mem_map.1 hj
    exact CorrectionRecord.legible_toJson (h.1.2 r hr)
  · exact .string _
  · exact .string _

namespace Store

variable {s s' : Store}

def document (s : Store) : Json := .array (s.snapshot.map Intent.toJson)

theorem depth_lt_document {i : Intent} (h : i ∈ s.snapshot) : i.toJson.depth < s.document.depth :=
  Json.depth_lt_array (List.mem_map_of_mem h)

/-- A store as it is made from a file: intents in the order of their keys, with the values of a document. -/
structure Sound (s : Store) : Prop where
  keyed : s.Keyed
  sorted : s.intents.Sorted
  plain : ∀ key i, s.intents.get? key = some i → i.Every Value.Plain

theorem Sound.empty : Sound .empty := ⟨nofun, .nil, nofun⟩

theorem Sound.sameContents (hs : s.Sound) (h : s.SameContents s') : s'.Sound := by
  obtain ⟨hkeyed, hsorted, hplain⟩ := hs
  rw [← h.1] at hsorted hplain
  exact ⟨hkeyed.sameContents h, hsorted, hplain⟩

theorem Sound.write (hs : s.Sound) {i : Intent} (hi : i.Every Value.Plain) (journal : List CorrectionRecord) :
    (s.write i journal).Sound where
  keyed := hs.keyed.write i journal
  sorted := hs.sorted.insert i.key i
  plain key j hj := by
    rw [get?_write] at hj
    split at hj
    · cases hj
      exact hi
    · exact hs.plain key j hj

theorem Sound.ofIntents {is : List Intent} (h : ofIntents is = .ok s) (his : ∀ i ∈ is, i.Every Value.Plain) :
    s.Sound :=
  ofIntents_induction (P := Sound) h .empty fun _ i hi _ hs ↦ hs.write (his i hi) i.history

end Store

namespace CommandLine

open Store

variable {s : Store} {path text : String}

theorem parse_storeText (hlegible : ∀ i ∈ s.snapshot, i.Legible) :
    Json.parse (storeText s).toList = some (s.document.clipped 0) := by
  have hdocument : s.document.Legible := .array fun j hj ↦ by
    obtain ⟨i, hi, rfl⟩ := List.mem_map.1 hj
    exact (hlegible i hi).toJson
  unfold storeText
  rw [String.toList_ofList]
  exact Json.parse_pretty hdocument fun c hc ↦ by rw [List.mem_singleton.1 hc]; rfl

theorem intentsOfText?_storeText (hs : s.Sound) (hlegible : ∀ i ∈ s.snapshot, i.Legible)
    (hdepth : s.document.depth ≤ Json.maxDepth) : intentsOfText? (storeText s) = some s.snapshot := by
  have hall : ∀ i ∈ s.snapshot, Intent.ofJson? i.toJson = some (id i) := by
    intro i hi
    have hplain := hs.plain _ _ ((mem_snapshot hs.keyed hs.sorted).1 hi)
    rw [Intent.ofJson?_toJson (hplain.imp fun _ hv ↦ hv.1) (hlegible i hi).2, Intent.listed_eq hplain]
    rfl
  rw [intentsOfText?, parse_storeText hlegible, Json.clipped_of_depth_le (by omega), Option.bind_some, document,
    Json.listOf?_map hall, List.map_id]

theorem storeOfText_storeText (hs : s.Sound) (hlegible : ∀ i ∈ s.snapshot, i.Legible)
    (hdepth : s.document.depth ≤ Json.maxDepth) :
    ∃ s', storeOfText path (storeText s) = .ok s' ∧ s'.intents = s.intents := by
  obtain ⟨s', hs', hintents⟩ := ofIntents_snapshot hs.keyed hs.sorted
  refine ⟨s', ?_, hintents⟩
  rw [storeOfText, intentsOfText?_storeText hs hlegible hdepth]
  dsimp only
  rw [hs']

theorem storeOfText_deep (hlegible : ∀ i ∈ s.snapshot, i.Legible) (hdepth : Json.maxDepth < s.document.depth) :
    storeOfText path (storeText s) = .error (.notStore path) := by
  have hread : intentsOfText? (storeText s) = none := by
    rw [intentsOfText?, parse_storeText hlegible, Option.bind_some]
    exact Json.listOf?_clipped (fun i _ hi ↦ Intent.ofJson?_clipped hi) (by rwa [Nat.zero_add])
  rw [storeOfText, hread]

theorem sound_of_storeOfText (h : storeOfText path text = .ok s) : s.Sound ∧ s.locks = .empty := by
  unfold storeOfText at h
  split at h
  · cases h
  · rename_i is his
    split at h
    · rename_i s' hs'
      cases h
      refine ⟨.ofIntents hs' fun i hi ↦ ?_, ofIntents_locks hs'⟩
      obtain ⟨j, -, hj⟩ := Option.bind_eq_some_iff.1 his
      obtain ⟨k, hk⟩ := Json.mem_of_listOf? hj hi
      exact (Intent.plain_of_ofJson? hk).1
    · cases h

end CommandLine

end IntentCorrection
