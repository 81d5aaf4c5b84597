import IntentCorrection.Json.Writer
import IntentCorrection.Proofs.Json.Nesting
import IntentCorrection.Proofs.Json.Numerals
import IntentCorrection.Proofs.Json.Strings
import IntentCorrection.Proofs.Text.Escaped

namespace IntentCorrection.Json

open Text

/-- Every part can be read, and every number is read back. -/
inductive Legible : Json → Prop
  | null : Legible .null
  | bool (b : Bool) : Legible (.bool b)
  | number {n : Number} : n.ReadsBack → Legible (.number n)
  | string (s : String) : Legible (.string s)
  | array {items : List Json} : (∀ j ∈ items, Legible j) → Legible (.array items)
  | object {fields : List (String × Json)} : (∀ f ∈ fields, Legible f.2) → Legible (.object fields)

variable {fuel depth level : Nat} {r : List Char} {items : List Json} {fields : List (String × Json)}

theorem skipSpace_newline (level : Nat) (t : List Char) : skipSpace (newline level ++ t) = skipSpace t := by
  refine List.dropWhile_append_of_pos fun c hc ↦ ?_
  rcases List.mem_cons.1 hc with rfl | hc
  · rfl
  · rw [List.eq_of_mem_replicate hc]
    rfl

theorem document?_newline (fuel depth level : Nat) (t : List Char) :
    document? fuel depth (newline level ++ t) = document? fuel depth t := by
  cases fuel with
  | zero => rfl
  | succ fuel => rw [document?, document?, skipSpace_newline]

theorem items?_newline (fuel depth level : Nat) (t : List Char) :
    items? fuel depth (newline level ++ t) = items? fuel depth t := by
  cases fuel with
  | zero => rfl
  | succ fuel => rw [items?, items?, document?_newline]

theorem fields?_newline (fuel depth level : Nat) (t : List Char) :
    fields? fuel depth (newline level ++ t) = fields? fuel depth t := by
  cases fuel with
  | zero => rfl
  | succ fuel => rw [fields?, fields?, skipSpace_newline]

theorem follows_newline (level : Nat) (t : List Char) : Follows (newline level ++ t) := by
  rintro c s h
  obtain ⟨rfl, -⟩ := List.cons.inj h
  exact .inl rfl

theorem follows_comma (t : List Char) : Follows (',' :: t) := by
  rintro c s h
  obtain ⟨rfl, -⟩ := List.cons.inj h
  exact .inr (.inl rfl)

theorem prettyAt_lead (level : Nat) (j : Json) :
    ∃ c t, prettyAt level j = c :: t ∧ isSpace c = false ∧ c ≠ ']' := by
  cases j with
  | null | string _ | unreadable => exact ⟨_, _, rfl, by decide, by decide⟩
  | bool b => cases b <;> exact ⟨_, _, rfl, by decide, by decide⟩
  | number n =>
    obtain ⟨hne, hmarks⟩ := n.text_marks
    obtain ⟨c, t, htext⟩ := List.exists_cons_of_ne_nil hne
    have hc := hmarks c (by simp [htext])
    exact ⟨c, t, htext, isSpace_of_isMark hc, Number.isMark_ne hc rfl⟩
  | array items =>
    rw [prettyAt, block]
    split <;> exact ⟨_, _, rfl, by decide, by decide⟩
  | object fields =>
    rw [prettyAt, block]
    split <;> exact ⟨_, _, rfl, by decide, by decide⟩

def Reads (depth level : Nat) (j : Json) : Prop :=
  ∀ fuel r, (prettyAt level j).length ≤ fuel → Follows r →
    document? fuel depth (prettyAt level j ++ r) = some (clipped depth j, r)

theorem items?_joined (fuel depth level : Nat) (r : List Char)
    (h : ∀ j ∈ items, Reads depth (level + 1) j) (hne : items ≠ [])
    (hfuel : (joined (',' :: newline (level + 1)) (prettyItems (level + 1) items)).length < fuel) :
    items? fuel depth (joined (',' :: newline (level + 1)) (prettyItems (level + 1) items) ++
      (newline level ++ ']' :: r)) = some (clippedItems depth items, r) := by
  induction items generalizing fuel with
  | nil => exact absurd rfl hne
  | cons j items ih =>
    obtain ⟨hj, hitems⟩ := List.forall_mem_cons.1 h
    obtain ⟨fuel, rfl⟩ : ∃ k, fuel = k + 1 := ⟨fuel - 1, by omega⟩
    cases items with
    | nil =>
      have hclose : skipSpace (newline level ++ ']' :: r) = ']' :: r := by
        rw [skipSpace_newline]
        rfl
      simp only [prettyItems, joined] at hfuel ⊢
      rw [items?, hj fuel _ (by omega) (follows_newline level _)]
      simp [hclose, clippedItems]
    | cons k items =>
      have hcomma : ∀ t, skipSpace (',' :: t) = ',' :: t := fun _ ↦ rfl
      simp only [prettyItems, joined, List.length_append, List.length_cons] at hfuel ih ⊢
      have hlength : (joined (',' :: newline (level + 1))
          (prettyAt (level + 1) k :: prettyItems (level + 1) items)).length < fuel := by omega
      have hrest := ih fuel hitems (List.cons_ne_nil _ _) hlength
      simp only [List.append_assoc, List.cons_append] at hrest ⊢
      rw [items?, hj fuel _ (by omega) (follows_comma _)]
      simp [hcomma, items?_newline, hrest, clippedItems]

theorem document?_space (t : List Char) : document? fuel depth (' ' :: t) = document? fuel depth t := by
  cases fuel with
  | zero => rfl
  | succ fuel =>
    have hskip : skipSpace (' ' :: t) = skipSpace t := rfl
    rw [document?, document?, hskip]

section

variable {k : String} {j : Json} {t r r' rest : List Char} {fs : List (Option String × Json)}

theorem fields?_last (hj : document? fuel depth t = some (j, r)) (hclose : skipSpace r = '}' :: rest) :
    fields? (fuel + 1) depth (quote k.toList ++ ':' :: ' ' :: t) = some ([(some k, j)], rest) := by
  have hquote : ∀ t, skipSpace ('"' :: t) = '"' :: t := fun _ ↦ rfl
  have hcolon : ∀ t, skipSpace (':' :: t) = ':' :: t := fun _ ↦ rfl
  simp [fields?, quote, hquote, stringUnits_quoted, hcolon, document?_space, hj, hclose, textOfUnits_toNat]

theorem fields?_more (hj : document? fuel depth t = some (j, r)) (hcomma : skipSpace r = ',' :: r')
    (hfs : fields? fuel depth r' = some (fs, rest)) :
    fields? (fuel + 1) depth (quote k.toList ++ ':' :: ' ' :: t) = some ((some k, j) :: fs, rest) := by
  have hquote : ∀ t, skipSpace ('"' :: t) = '"' :: t := fun _ ↦ rfl
  have hcolon : ∀ t, skipSpace (':' :: t) = ':' :: t := fun _ ↦ rfl
  simp [fields?, quote, hquote, stringUnits_quoted, hcolon, document?_space, hj, hcomma, hfs, textOfUnits_toNat]

end

theorem fields?_joined (fuel depth level : Nat) (r : List Char)
    (h : ∀ f ∈ fields, Reads depth (level + 1) f.2) (hne : fields ≠ [])
    (hfuel : (joined (',' :: newline (level + 1)) (prettyFields (level + 1) fields)).length < fuel) :
    fields? fuel depth (joined (',' :: newline (level + 1)) (prettyFields (level + 1) fields) ++
      (newline level ++ '}' :: r)) = some (clippedFields depth fields, r) := by
  induction fields generalizing fuel with
  | nil => exact absurd rfl hne
  | cons f fields ih =>
    obtain ⟨hf, hfields⟩ := List.forall_mem_cons.1 h
    obtain ⟨fuel, rfl⟩ : ∃ k, fuel = k + 1 := ⟨fuel - 1, by omega⟩
    cases fields with
    | nil =>
      have hclose : skipSpace (newline level ++ '}' :: r) = '}' :: r := by
        rw [skipSpace_newline]
        rfl
      simp only [prettyFields, joined, List.length_append, List.length_cons] at hfuel ⊢
      rw [List.append_assoc, List.cons_append, List.cons_append,
        fields?_last (hf fuel _ (by omega) (follows_newline level _)) hclose]
      simp [clippedFields]
    | cons k fields =>
      simp only [prettyFields, joined, List.length_append, List.length_cons] at hfuel ih ⊢
      have hlength : (joined (',' :: newline (level + 1)) ((quote k.1.toList ++ ':' :: ' ' ::
          prettyAt (level + 1) k.2) :: prettyFields (level + 1) fields)).length < fuel := by omega
      have hrest := ih fuel hfields (List.cons_ne_nil _ _) hlength
      simp only [List.append_assoc, List.cons_append] at hrest ⊢
      rw [fields?_more (hf fuel _ (by omega) (follows_comma _)) rfl ((fields?_newline _ _ _ _).trans hrest)]
      simp [clippedFields]

theorem reads_of_succ {j : Json} (h : ∀ fuel r, (prettyAt level j).length ≤ fuel + 1 → Follows r →
    document? (fuel + 1) depth (prettyAt level j ++ r) = some (clipped depth j, r)) : Reads depth level j := by
  intro fuel r hfuel hr
  cases fuel with
  | zero =>
    obtain ⟨c, t, htext, -⟩ := prettyAt_lead level j
    simp [htext] at hfuel
  | succ fuel => exact h fuel r hfuel hr

theorem Legible.reads {j : Json} (h : j.Legible) (depth level : Nat) : Reads depth level j := by
  -- The reader counts the containers around a document and the writer indents by them. Both go up by one together.
  induction h generalizing depth level with
  | null => exact reads_of_succ fun _ _ _ _ ↦ rfl
  | bool b => exact reads_of_succ fun _ _ _ _ ↦ by cases b <;> rfl
  | number hn => exact reads_of_succ fun fuel r _ hr ↦ hn.document? hr fuel depth
  | string s =>
    refine reads_of_succ fun fuel r _ _ ↦ ?_
    have hquote : ∀ t, skipSpace ('"' :: t) = '"' :: t := fun _ ↦ rfl
    simp [prettyAt, quote, document?, hquote, stringUnits_quoted, textOfUnits_toNat, clipped]
  | @array items _ ih =>
    refine reads_of_succ fun fuel r hfuel _ ↦ ?_
    have hopen : ∀ t, skipSpace ('[' :: t) = '[' :: t := fun _ ↦ rfl
    cases items with
    | nil => rfl
    | cons j items =>
      -- The first item does not begin with a bracket, so the array is not taken for an empty one.
      obtain ⟨c, t, hlead, hspace, hbracket⟩ : ∃ c t,
          joined (',' :: newline (level + 1)) (prettyItems (level + 1) (j :: items)) = c :: t ∧
            isSpace c = false ∧ c ≠ ']' := by
        obtain ⟨c, t, hc, hspace⟩ := prettyAt_lead (level + 1) j
        exact ⟨c, _, by rw [prettyItems, joined_cons, hc]; rfl, hspace⟩
      have hskip : ∀ u, skipSpace (c :: u) = c :: u := fun u ↦ by simp [skipSpace, hspace]
      have hitems := items?_joined fuel (depth + 1) level r
        (fun j hj ↦ ih j hj (depth + 1) (level + 1)) (List.cons_ne_nil j items)
      rw [hlead] at hitems
      simp only [prettyAt, block, prettyItems, List.isEmpty_cons, Bool.false_eq_true, if_false] at hlead hfuel ⊢
      simp only [hlead, List.cons_append, List.append_assoc, List.length_cons, List.length_append] at hfuel hitems ⊢
      simp [document?, hopen, skipSpace_newline, hskip, hbracket, hitems (by omega), clipped]
  | @object fields _ ih =>
    refine reads_of_succ fun fuel r hfuel _ ↦ ?_
    have hopen : ∀ t, skipSpace ('{' :: t) = '{' :: t := fun _ ↦ rfl
    cases fields with
    | nil => rfl
    | cons f fields =>
      obtain ⟨t, hlead⟩ : ∃ t,
          joined (',' :: newline (level + 1)) (prettyFields (level + 1) (f :: fields)) = '"' :: t :=
        ⟨_, by rw [prettyFields, joined_cons]; rfl⟩
      have hskip : ∀ u, skipSpace ('"' :: u) = '"' :: u := fun _ ↦ rfl
      have hfields := fields?_joined fuel (depth + 1) level r
        (fun f hf ↦ ih f hf (depth + 1) (level + 1)) (List.cons_ne_nil f fields)
      rw [hlead] at hfields
      simp only [prettyAt, block, prettyFields, List.isEmpty_cons, Bool.false_eq_true, if_false] at hlead hfuel ⊢
      simp only [hlead, List.cons_append, List.append_assoc, List.length_cons, List.length_append] at hfuel hfields ⊢
      simp [document?, hopen, skipSpace_newline, hskip, hfields (by omega), clipped]

theorem parse_pretty {j : Json} (h : j.Legible) {blanks : List Char} (hb : ∀ c ∈ blanks, isSpace c = true) :
    parse (j.pretty ++ blanks) = some (clipped 0 j) := by
  have hfollows : Follows blanks := fun c t hc ↦ .inl (hb c (by simp [hc]))
  have hread : document? (2 * (j.pretty ++ blanks).length + 2) 0 (j.pretty ++ blanks) =
      some (clipped 0 j, blanks) := by
    refine h.reads 0 0 _ _ ?_ hfollows
    rw [List.length_append, pretty]
    omega
  have hskip : skipSpace blanks = [] := by
    have := @List.dropWhile_append_of_pos _ _ _ [] hb
    simpa [skipSpace] using this
  rw [parse, hread]
  simp [hskip]

end IntentCorrection.Json
