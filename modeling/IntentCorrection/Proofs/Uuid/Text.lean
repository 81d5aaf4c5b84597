import IntentCorrection.Proofs.Text.Blank
import IntentCorrection.Uuid.Basic
import Mathlib.Algebra.GroupWithZero.Nat

namespace IntentCorrection.Uuid

open Text

variable {u : Uuid} {cs rest : List Char} {c : Char} {d : Fin 16} {ds : List (Fin 16)} {gs : List Nat} {n : Nat}

def simpleText (u : Uuid) : List Char := u.digits.map digitChar

/-- The forms of a UUID, in any letter case. -/
inductive Spells (u : Uuid) (cs : List Char) : Prop
  | hyphenated (h : lowerAscii cs = u.text)
  | simple (h : lowerAscii cs = u.simpleText)
  | braced (h : lowerAscii cs = '{' :: (u.text ++ ['}']))
  | urn (h : lowerAscii cs = Uuid.urn ++ u.text)

theorem toLower_digitChar (d : Fin 16) : (digitChar d).toLower = digitChar d := by
  revert d
  decide

theorem digit?_eq_some : digit? c = some d ↔ c.toLower = digitChar d := by
  constructor
  · intro h
    have hd := List.find?_some h
    exact (of_decide_eq_true hd).symm
  · intro h
    have hsame : digit? c = digit? (digitChar d) := by
      unfold digit?
      rw [h, toLower_digitChar]
    rw [hsame, digit?_digitChar]

theorem readDigits_eq_some : readDigits n cs = some (ds, rest) ↔
    ds.length = n ∧ ∃ front, cs = front ++ rest ∧ lowerAscii front = ds.map digitChar := by
  induction n generalizing cs ds with
  | zero =>
    simp only [readDigits, Option.some.injEq, Prod.mk.injEq, List.length_eq_zero_iff]
    constructor
    · rintro ⟨rfl, rfl⟩
      exact ⟨rfl, [], rfl, rfl⟩
    · rintro ⟨rfl, front, rfl, hfront⟩
      obtain rfl := List.map_eq_nil_iff.1 hfront
      exact ⟨rfl, rfl⟩
  | succ n ih =>
    cases cs with
    | nil =>
      simp only [readDigits, reduceCtorEq, false_iff]
      rintro ⟨hlength, front, hsplit, hfront⟩
      obtain ⟨rfl, -⟩ := List.nil_eq_append_iff.1 hsplit
      obtain rfl := List.map_eq_nil_iff.1 hfront.symm
      cases hlength
    | cons c cs =>
      simp only [readDigits, Option.bind_eq_bind, Option.bind_eq_some_iff, Option.pure_def, Option.some.injEq]
      constructor
      · rintro ⟨d, hd, ⟨tail, r⟩, htail, heq⟩
        obtain ⟨rfl, rfl⟩ := Prod.mk.inj heq
        obtain ⟨rfl, front, rfl, hfront⟩ := ih.1 htail
        refine ⟨rfl, c :: front, rfl, ?_⟩
        rw [lowerAscii, List.map_cons, digit?_eq_some.1 hd]
        exact congrArg _ hfront
      · rintro ⟨hlength, front, hsplit, hfront⟩
        cases ds with
        | nil => cases hlength
        | cons d tail =>
          obtain ⟨c', front, rfl, hd, htail⟩ := List.map_eq_cons_iff.1 hfront
          obtain ⟨rfl, rfl⟩ := List.cons.inj hsplit
          exact ⟨d, digit?_eq_some.2 hd, (tail, rest), ih.2 ⟨Nat.succ.inj hlength, front, rfl, htail⟩, rfl⟩

theorem readGroups_last : readGroups [n] cs = some ds ↔ readDigits n cs = some (ds, []) := by
  cases h : readDigits n cs with
  | none => simp [readGroups, h]
  | some x =>
    obtain ⟨first, rest⟩ := x
    cases rest <;> simp [readGroups, h]

theorem readGroups_next {m : Nat} : readGroups (n :: m :: gs) cs = some ds ↔
    ∃ first rest tail, readDigits n cs = some (first, '-' :: rest) ∧ readGroups (m :: gs) rest = some tail ∧
      first ++ tail = ds := by
  rw [readGroups]
  cases h : readDigits n cs with
  | none => simp
  | some x =>
    obtain ⟨first, rest⟩ := x
    simp only [Option.bind_eq_bind, Option.bind_some, List.isEmpty_cons, Bool.false_eq_true, if_false]
    split
    · rename_i rest
      simp only [Option.bind_eq_some_iff, Option.pure_def, Option.some.injEq, Prod.mk.injEq, List.cons.injEq, true_and]
      constructor
      · rintro ⟨tail, htail, heq⟩
        exact ⟨first, rest, tail, ⟨rfl, rfl⟩, htail, heq⟩
      · rintro ⟨_, _, tail, ⟨rfl, rfl⟩, htail, heq⟩
        exact ⟨tail, htail, heq⟩
    · rename_i hother
      simp only [reduceCtorEq, false_iff]
      rintro ⟨first', rest', tail, heq, -⟩
      cases heq
      exact hother rest' rfl

theorem readGroups_eq_some (hgs : gs ≠ []) : readGroups gs cs = some ds ↔
    ds.length = gs.sum ∧ lowerAscii cs = writeGroups gs ds := by
  induction gs generalizing cs ds with
  | nil => exact absurd rfl hgs
  | cons n gs ih =>
    cases gs with
    | nil =>
      rw [readGroups_last, readDigits_eq_some]
      simp only [List.append_nil, exists_eq_left', List.sum_cons, List.sum_nil, Nat.add_zero, writeGroups]
      apply and_congr_right
      intro hlength
      rw [List.take_of_length_le (Nat.le_of_eq hlength)]
    | cons m gs =>
      have hnext : writeGroups (n :: m :: gs) ds =
          (ds.take n).map digitChar ++ '-' :: writeGroups (m :: gs) (ds.drop n) := rfl
      simp only [readGroups_next, readDigits_eq_some, ih (List.cons_ne_nil m gs), hnext, List.sum_cons]
      constructor
      · rintro ⟨first, rest, tail, ⟨rfl, front, rfl, hfront⟩, ⟨hlength, hrest⟩, rfl⟩
        refine ⟨by rw [List.length_append, hlength], ?_⟩
        rw [List.take_left, List.drop_left, ← hfront, ← hrest]
        simp [lowerAscii]
      · rintro ⟨hlength, htext⟩
        obtain ⟨front, rest, rfl, hfront, hrest⟩ := List.map_eq_append_iff.1 htext
        obtain ⟨hyphen, rest, rfl, hhyphen, htail⟩ := List.map_eq_cons_iff.1 hrest
        obtain rfl := eq_of_toLower hhyphen (by decide)
        refine ⟨ds.take n, rest, ds.drop n, ⟨?_, front, rfl, hfront⟩, ⟨?_, htail⟩, List.take_append_drop n ds⟩
        · rw [List.length_take]
          omega
        · rw [List.length_drop]
          omega

theorem mem_writeGroups (h : c ∈ writeGroups gs ds) : c = '-' ∨ ∃ d, c = digitChar d := by
  induction gs generalizing ds with
  | nil => cases h
  | cons n gs ih =>
    have hdigit : c ∈ (ds.take n).map digitChar → ∃ d, c = digitChar d := by
      intro hmem
      obtain ⟨d, -, hd⟩ := List.mem_map.1 hmem
      exact ⟨d, hd.symm⟩
    cases gs with
    | nil => exact .inr (hdigit h)
    | cons m gs =>
      rcases List.mem_append.1 h with hmem | hmem
      · exact .inr (hdigit hmem)
      · rcases List.mem_cons.1 hmem with hhyphen | hmem
        · exact .inl hhyphen
        · exact ih hmem

theorem mem_simpleText (h : c ∈ u.simpleText) : ∃ d, c = digitChar d := by
  obtain ⟨d, -, hd⟩ := List.mem_map.1 h
  exact ⟨d, hd.symm⟩

theorem isBlank_digitChar (d : Fin 16) : isBlank (digitChar d) = false := by
  revert d
  decide

theorem lowerAscii_text (u : Uuid) : lowerAscii u.text = u.text := by
  have hsame : ∀ c ∈ u.text, c.toLower = c := by
    intro c hc
    rcases mem_writeGroups hc with rfl | ⟨d, rfl⟩
    · rfl
    · exact toLower_digitChar d
  exact (List.map_congr_left hsame).trans (List.map_id _)

theorem ofDigits?_eq_some : ofDigits? ds = some u ↔ ds = u.digits := by
  obtain ⟨digits, hdigits⟩ := u
  unfold ofDigits?
  split
  · simp
  · rename_i hlength
    simp only [reduceCtorEq, false_iff]
    rintro rfl
    exact hlength hdigits

theorem read_eq_some (hgs : gs ≠ []) (hsum : gs.sum = 32) :
    (readGroups gs cs).bind ofDigits? = some u ↔ lowerAscii cs = writeGroups gs u.digits := by
  simp [Option.bind_eq_some_iff, ofDigits?_eq_some, readGroups_eq_some hgs, u.length_digits, hsum]

theorem hyphenated?_eq_some : hyphenated? cs = some u ↔ lowerAscii cs = u.text :=
  read_eq_some (List.cons_ne_nil _ _) rfl

theorem simple?_eq_some : simple? cs = some u ↔ lowerAscii cs = u.simpleText := by
  have hall : writeGroups [32] u.digits = u.simpleText := by
    rw [writeGroups, simpleText, List.take_of_length_le (Nat.le_of_eq u.length_digits)]
  rw [simple?, read_eq_some (List.cons_ne_nil _ _) rfl, hall]

theorem braced?_eq_some : braced? cs = some u ↔ lowerAscii cs = '{' :: (u.text ++ ['}']) := by
  constructor
  · intro h
    unfold braced? at h
    split at h
    · rename_i rest
      split at h
      · rename_i hlast
        obtain ⟨inner, rfl⟩ := List.getLast?_eq_some_iff.1 hlast
        rw [List.dropLast_concat, hyphenated?_eq_some] at h
        rw [← h]
        simp [lowerAscii]
      · cases h
    · cases h
  · intro h
    obtain ⟨first, rest, rfl, hfirst, hrest⟩ := List.map_eq_cons_iff.1 h
    obtain ⟨inner, last, rfl, hinner, hlast⟩ := List.map_eq_append_iff.1 hrest
    obtain ⟨close, empty, rfl, hclose, hempty⟩ := List.map_eq_cons_iff.1 hlast
    obtain rfl := List.map_eq_nil_iff.1 hempty
    obtain rfl := eq_of_toLower hfirst (by decide)
    obtain rfl := eq_of_toLower hclose (by decide)
    simp [braced?, hyphenated?_eq_some, lowerAscii, hinner]

theorem urn?_eq_some : urn? cs = some u ↔ lowerAscii cs = Uuid.urn ++ u.text := by
  have hsplit : lowerAscii cs = (cs.take urn.length).map Char.toLower ++ lowerAscii (cs.drop urn.length) := by
    rw [lowerAscii, lowerAscii, ← List.map_append, List.take_append_drop]
  constructor
  · intro h
    unfold urn? at h
    split at h
    · rename_i hurn
      rw [hsplit, hurn, hyphenated?_eq_some.1 h]
    · cases h
  · intro h
    have htake : (cs.take urn.length).map Char.toLower = urn := by
      rw [List.map_take, ← lowerAscii, h, List.take_left]
    have hdrop : lowerAscii (cs.drop urn.length) = u.text := by
      rw [lowerAscii, List.map_drop, ← lowerAscii, h, List.drop_left]
    rw [urn?, if_pos htake, hyphenated?_eq_some, hdrop]

theorem length_text (u : Uuid) : u.text.length = 36 := by
  simp [text, groups, writeGroups, u.length_digits]

theorem length_simpleText (u : Uuid) : u.simpleText.length = 32 := by
  rw [simpleText, List.length_map, u.length_digits]

theorem length_of_lowerAscii {form : List Char} (h : lowerAscii cs = form) : cs.length = form.length := by
  rw [← h, lowerAscii, List.length_map]

theorem eq_none_of_length {read : Option Uuid} {form : Uuid → List Char}
    (hread : ∀ u, read = some u ↔ lowerAscii cs = form u) (hform : ∀ u, (form u).length = n) (h : cs.length ≠ n) :
    read = none := by
  refine Option.eq_none_iff_forall_ne_some.2 fun v hv ↦ h ?_
  rw [length_of_lowerAscii ((hread v).1 hv), hform]

/-- The forms differ in length, so it does not matter which is tried first. -/
theorem parse?_eq_some : parse? cs = some u ↔ u.Spells cs := by
  have hhyphenated : cs.length ≠ 36 → hyphenated? cs = none :=
    eq_none_of_length (fun _ ↦ hyphenated?_eq_some) length_text
  have hsimple : cs.length ≠ 32 → simple? cs = none :=
    eq_none_of_length (fun _ ↦ simple?_eq_some) length_simpleText
  have hbraced : cs.length ≠ 38 → braced? cs = none :=
    eq_none_of_length (fun _ ↦ braced?_eq_some) fun v ↦ by simp [v.length_text]
  constructor
  · intro h
    simp only [parse?, Option.or_eq_some_iff] at h
    obtain ((h | ⟨-, h⟩) | ⟨-, h⟩) | ⟨-, h⟩ := h
    · exact .hyphenated (hyphenated?_eq_some.1 h)
    · exact .simple (simple?_eq_some.1 h)
    · exact .braced (braced?_eq_some.1 h)
    · exact .urn (urn?_eq_some.1 h)
  · intro h
    cases h with
    | hyphenated h => simp [parse?, hyphenated?_eq_some.2 h]
    | simple h =>
      have hlength := (length_of_lowerAscii h).trans u.length_simpleText
      simp [parse?, hhyphenated (by omega), simple?_eq_some.2 h]
    | braced h =>
      have hlength := length_of_lowerAscii h
      rw [List.length_cons, List.length_append, length_text] at hlength
      simp [parse?, hhyphenated (by simp [hlength]), hsimple (by simp [hlength]), braced?_eq_some.2 h]
    | urn h =>
      have hlength := length_of_lowerAscii h
      rw [List.length_append, length_text] at hlength
      simp [parse?, hhyphenated (by simp [hlength, Uuid.urn]), hsimple (by simp [hlength, Uuid.urn]),
        hbraced (by simp [hlength, Uuid.urn]), urn?_eq_some.2 h]

theorem parse?_text (u : Uuid) : parse? u.text = some u := parse?_eq_some.2 (.hyphenated u.lowerAscii_text)

end IntentCorrection.Uuid
