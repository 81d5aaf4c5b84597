import IntentCorrection.Intent.Codec
import IntentCorrection.Intent.History
import IntentCorrection.Proofs.Uuid.Text

namespace IntentCorrection.History

open Text

variable {id u v : Uuid} {text : String} {e : Json} {es es' : List Json}

/-- Once it is trimmed, the text has one of the forms of the id. -/
def Denotes (text : String) (id : Uuid) : Prop := ∃ core, Trims text.toList core ∧ id.Spells core

/-- The text is the id with or without hyphens, in any letter case, with any blanks around it. -/
def Writes (text : String) (id : Uuid) : Prop :=
  ∃ before core after, text.toList = before ++ (core ++ after) ∧ (∀ c ∈ before, isBlank c = true) ∧
    (∀ c ∈ after, isBlank c = true) ∧ (lowerAscii core = id.text ∨ lowerAscii core = id.simpleText)

def withIdText (text : String) : Json → Json
  | .object fields => .object (fields.map fun f ↦ (f.1, if f.1 = "correction_id" then .string text else f.2))
  | j => j

/-- The second history comes from the first by writing ids anew and putting in entries that denote none. -/
inductive Rewritten : List Json → List Json → Prop
  | nil : Rewritten [] []
  | kept {e : Json} {es es' : List Json} : Rewritten es es' → Rewritten (e :: es) (e :: es')
  | respelled {e : Json} {es es' : List Json} {text text' : String} {u : Uuid} :
      idText? e = some text → Denotes text u → Writes text' u → Rewritten es es' →
        Rewritten (e :: es) (withIdText text' e :: es')
  | stray {e : Json} {es es' : List Json} :
      (∀ text u, idText? e = some text → ¬Denotes text u) → Rewritten es es' → Rewritten es (e :: es')

theorem denotes_iff : Denotes text id ↔ Uuid.parse? (trim text.toList) = some id := by
  simp [Denotes, trims_iff, Uuid.parse?_eq_some]

theorem Denotes.unique (h : Denotes text u) (h' : Denotes text v) : u = v := by
  rw [denotes_iff] at h h'
  exact Option.some.inj (h.symm.trans h')

/-- The comparison that is left when a text cannot be read never succeeds. -/
theorem textDenotes_iff : textDenotes id text = true ↔ Denotes text id := by
  rw [denotes_iff]
  unfold textDenotes
  dsimp only
  split
  · rename_i u h
    simp [h]
  · rename_i h
    simp only [h, decide_eq_true_eq, reduceCtorEq, iff_false]
    intro hlower
    rw [Uuid.parse?_eq_some.2 (.hyphenated hlower)] at h
    cases h

theorem isBlank_of_mem {core : List Char} {c : Char} (h : lowerAscii core = id.text ∨ lowerAscii core = id.simpleText)
    (hc : c ∈ core) : isBlank c = false := by
  have hmem : c.toLower ∈ lowerAscii core := List.mem_map_of_mem hc
  have hform : c.toLower = '-' ∨ ∃ d, c.toLower = Uuid.digitChar d := by
    rcases h with h | h
    · exact Uuid.mem_writeGroups (h ▸ hmem)
    · exact .inr (Uuid.mem_simpleText (h ▸ hmem))
  rw [← isBlank_toLower]
  rcases hform with hhyphen | ⟨d, hd⟩
  · rw [hhyphen]
    rfl
  · rw [hd, Uuid.isBlank_digitChar]

theorem Writes.denotes (h : Writes text id) : Denotes text id := by
  obtain ⟨before, core, after, hsplit, hbefore, hafter, hcore⟩ := h
  refine ⟨core, ⟨⟨before, after, hsplit, hbefore, hafter⟩, ?_, ?_⟩, hcore.elim .hyphenated .simple⟩
  · intro c hc
    exact isBlank_of_mem hcore (List.mem_of_mem_head? hc)
  · intro c hc
    exact isBlank_of_mem hcore (List.mem_of_mem_getLast? hc)

theorem denotes_text (id : Uuid) : Denotes (String.ofList id.text) id :=
  Writes.denotes ⟨[], id.text, [], by simp, nofun, nofun, .inl id.lowerAscii_text⟩

theorem entryCarries_iff : entryCarries id e = true ↔ ∃ text, idText? e = some text ∧ Denotes text id := by
  unfold entryCarries
  cases h : idText? e <;> simp [textDenotes_iff]

theorem documentsCarry_iff :
    documentsCarry es id = true ↔ ∃ e ∈ es, ∃ text, idText? e = some text ∧ Denotes text id := by
  simp [documentsCarry, entryCarries_iff]

theorem get?_withText (fields : List (String × Json)) (text : String) :
    Entries.get? (fields.map fun f ↦ (f.1, if f.1 = "correction_id" then .string text else f.2)) "correction_id" =
      (Entries.get? fields "correction_id").map fun _ ↦ .string text := by
  induction fields with
  | nil => rfl
  | cons f fields ih =>
    rw [List.map_cons, Entries.get?_cons, Entries.get?_cons, ih]
    by_cases hf : f.1 = "correction_id"
    · simp [hf]
    · simp [Ne.symm hf]

theorem idText?_withIdText (h : idText? e = some text) (text' : String) : idText? (withIdText text' e) = some text' := by
  obtain ⟨j, hj, -⟩ := Option.bind_eq_some_iff.1 h
  cases e with
  | object fields =>
    have hget : (Json.object fields).field? "correction_id" = Entries.get? fields.reverse "correction_id" := rfl
    rw [hget] at hj
    rw [idText?, withIdText, Json.field?, ← List.map_reverse, get?_withText, hj]
    rfl
  | _ => cases hj

theorem idText?_toJson (r : CorrectionRecord) : idText? r.toJson = some (String.ofList r.id.text) := by
  cases h : r.metadata <;> simp [idText?, CorrectionRecord.toJson, Json.field?, h, Uuid.toJson, Json.string?]

theorem documentsCarry_toJson (records : List CorrectionRecord) (id : Uuid) :
    documentsCarry (records.map CorrectionRecord.toJson) id = contains records id := by
  have hentry : ∀ r : CorrectionRecord, entryCarries id r.toJson = decide (r.id = id) := by
    intro r
    rw [Bool.eq_iff_iff, entryCarries_iff, idText?_toJson, decide_eq_true_eq]
    constructor
    · rintro ⟨text, htext, hdenotes⟩
      cases htext
      exact (denotes_text r.id).unique hdenotes
    · rintro rfl
      exact ⟨_, rfl, denotes_text r.id⟩
  simp only [documentsCarry, contains, List.any_map, Function.comp_def, hentry]

theorem documentsCarry_rewritten (h : Rewritten es es') (id : Uuid) : documentsCarry es' id = documentsCarry es id := by
  unfold documentsCarry
  induction h with
  | nil => rfl
  | kept _ ih => rw [List.any_cons, List.any_cons, ih]
  | respelled htext hdenotes hwrites _ ih =>
    rename_i e es es' text text' u _
    have hsame : entryCarries id (withIdText text' e) = entryCarries id e := by
      rw [Bool.eq_iff_iff, entryCarries_iff, entryCarries_iff, idText?_withIdText htext, htext]
      simp only [Option.some.injEq, exists_eq_left']
      constructor
      · intro h
        rwa [← hwrites.denotes.unique h]
      · intro h
        rw [← hdenotes.unique h]
        exact hwrites.denotes
    rw [List.any_cons, List.any_cons, ih, hsame]
  | stray hstray _ ih =>
    rename_i e es es' _
    have hnone : entryCarries id e = false := by
      rw [Bool.eq_false_iff, ne_eq, entryCarries_iff]
      rintro ⟨text, htext, hdenotes⟩
      exact hstray text id htext hdenotes
    rw [List.any_cons, hnone, Bool.false_or, ih]

/-- Records and their documents give the same answer about any id. The answer about documents stays the same however their
ids are written and whatever entries that denote none are put between them: it is yes if and only if one of them has a
text that denotes the id. -/
theorem documentsCarry_agrees (records : List CorrectionRecord) (id : Uuid) :
    contains records id = (find? records id).isSome ∧
      documentsCarry (records.map CorrectionRecord.toJson) id = contains records id ∧
      (∀ es es', Rewritten es es' → documentsCarry es' id = documentsCarry es id) ∧
      ∀ es, documentsCarry es id = true ↔ ∃ e ∈ es, ∃ text, idText? e = some text ∧ Denotes text id :=
  ⟨contains_eq_isSome_find? records id, documentsCarry_toJson records id,
    fun _ _ h ↦ documentsCarry_rewritten h id, fun _ ↦ documentsCarry_iff⟩

def refund : CorrectionRecord where
  id := Uuid.dns
  source := .yuno
  reason := "wrong amount"
  diff := .ofPayload [("amount", .ofInt 90)]
  appliedAt := ⟨⟨2024, 3, 5, by decide⟩, ⟨8, 45, 0, 0, by decide⟩, 60, by decide⟩
  metadata := none

def untidy : List Json :=
  [.object [("other", .ofNat 1)], withIdText " 6BA7B8109DAD11D180B400C04FD430C8\n" refund.toJson,
    .object [("correction_id", .string "not-a-uuid")]]

theorem rewritten_untidy : Rewritten ([refund].map CorrectionRecord.toJson) untidy := by
  have hwrites : Writes " 6BA7B8109DAD11D180B400C04FD430C8\n" Uuid.dns :=
    ⟨[' '], "6BA7B8109DAD11D180B400C04FD430C8".toList, ['\n'], rfl, by simp [isBlank], by simp [isBlank],
      .inr (by decide)⟩
  refine .stray ?_ (.respelled (idText?_toJson refund) (denotes_text _) hwrites (.stray ?_ .nil))
  · intro text u h
    cases h
  · intro text u h
    cases h
    have hnone : Uuid.parse? (trim "not-a-uuid".toList) = none := by decide
    rw [denotes_iff, hnone]
    exact Option.some_ne_none u ∘ Eq.symm

theorem documentsCarry_agrees_untidy :
    Rewritten ([refund].map CorrectionRecord.toJson) untidy ∧ documentsCarry untidy Uuid.dns = true ∧
      documentsCarry untidy (.ofRandom 0) = false := by
  refine ⟨rewritten_untidy, ?_, ?_⟩
  · obtain ⟨-, htyped, hsame, -⟩ := documentsCarry_agrees [refund] Uuid.dns
    rw [hsame _ _ rewritten_untidy, htyped]
    decide
  · obtain ⟨-, htyped, hsame, -⟩ := documentsCarry_agrees [refund] (.ofRandom 0)
    rw [hsame _ _ rewritten_untidy, htyped]
    decide

end IntentCorrection.History
