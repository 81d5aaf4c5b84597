import IntentCorrection.Proofs.Number.Text
import IntentCorrection.Proofs.Text.Escaped
import IntentCorrection.Proofs.Value.Induction
import Mathlib.Data.List.Forall2

namespace IntentCorrection

open Text

/-- A number written before this text would be over. -/
def Ends (r : List Char) : Prop := ∀ c t, r = c :: t → Number.isMark c = false

theorem Ends.cons {c : Char} (h : Number.isMark c = false) (r : List Char) : Ends (c :: r) := by
  rintro c t ⟨⟩
  exact h

theorem Number.text_append_inj {n m : Number} {r r' : List Char} (hr : Ends r) (hr' : Ends r')
    (h : n.text ++ r = m.text ++ r') : n.text = m.text ∧ r = r' := by
  have hsplit : ∀ (s t : List Char), (∀ c ∈ s, isMark c = true) → (∀ c ∈ t, isMark c = true) →
      s ++ r = t ++ r' → s = t ∧ r = r' := by
    intro s
    induction s with
    | nil =>
      intro t _ ht h
      cases t with
      | nil => exact ⟨rfl, h⟩
      | cons b t =>
        have hb := ht b List.mem_cons_self
        rw [hr b _ h] at hb
        cases hb
    | cons a s ih =>
      intro t hs ht h
      cases t with
      | nil =>
        have ha := hs a List.mem_cons_self
        rw [hr' a _ h.symm] at ha
        cases ha
      | cons b t =>
        obtain ⟨hab, hrest⟩ := List.cons.inj h
        obtain ⟨hst, hr⟩ := ih t (List.forall_mem_cons.1 hs).2 (List.forall_mem_cons.1 ht).2 hrest
        exact ⟨by rw [hab, hst], hr⟩
  exact hsplit _ _ n.text_marks.2 m.text_marks.2 h

section Joined

variable {α : Type} {text : α → List Char} {R : α → α → Prop} {close : Char} {xs ys : List α}
  {r r' : List Char}

theorem ends_of_tail (hclose : Number.isMark close = false) (xs : List α) (r : List Char) :
    Ends (xs.flatMap (fun x ↦ ',' :: text x) ++ close :: r) := by
  cases xs with
  | nil => exact .cons hclose r
  | cons x xs => exact .cons (by decide) _

/-- Texts behind commas, up to a closing bracket, are read one by one. -/
theorem tail_append_inj (hcomma : close ≠ ',') (hclose : Number.isMark close = false)
    (h : ∀ x ∈ xs, ∀ y ∈ ys, ∀ r r', Ends r → Ends r' → text x ++ r = text y ++ r' → R x y ∧ r = r')
    (he : xs.flatMap (fun x ↦ ',' :: text x) ++ close :: r =
      ys.flatMap (fun y ↦ ',' :: text y) ++ close :: r') : List.Forall₂ R xs ys ∧ r = r' := by
  induction xs generalizing ys with
  | nil =>
    cases ys with
    | nil => exact ⟨.nil, (List.cons.inj he).2⟩
    | cons y ys => exact absurd (List.cons.inj he).1 hcomma
  | cons x xs ih =>
    cases ys with
    | nil => exact absurd (List.cons.inj he).1.symm hcomma
    | cons y ys =>
      simp only [List.flatMap_cons, List.cons_append, List.append_assoc, List.cons.injEq, true_and] at he
      obtain ⟨hxy, he⟩ := h x List.mem_cons_self y List.mem_cons_self _ _ (ends_of_tail hclose xs r)
        (ends_of_tail hclose ys r') he
      obtain ⟨hrest, hr⟩ := ih (fun x hx y hy ↦ h x (List.mem_cons_of_mem _ hx) y
        (List.mem_cons_of_mem _ hy)) he
      exact ⟨.cons hxy hrest, hr⟩

theorem joined_append_inj (hcomma : close ≠ ',') (hclose : Number.isMark close = false)
    (hx : ∀ x ∈ xs, ∀ r t, text x ++ r ≠ close :: t) (hy : ∀ y ∈ ys, ∀ r t, text y ++ r ≠ close :: t)
    (h : ∀ x ∈ xs, ∀ y ∈ ys, ∀ r r', Ends r → Ends r' → text x ++ r = text y ++ r' → R x y ∧ r = r')
    (he : joined [','] (xs.map text) ++ close :: r = joined [','] (ys.map text) ++ close :: r') :
    List.Forall₂ R xs ys ∧ r = r' := by
  have htail : ∀ (x : α) (xs : List α), joined [','] ((x :: xs).map text) =
      text x ++ xs.flatMap fun x ↦ ',' :: text x := by
    intro x xs
    rw [List.map_cons, joined_cons, List.flatMap_map]
    rfl
  cases xs with
  | nil =>
    cases ys with
    | nil => exact ⟨.nil, (List.cons.inj he).2⟩
    | cons y ys =>
      rw [htail, List.append_assoc] at he
      exact absurd he.symm (hy y List.mem_cons_self _ _)
  | cons x xs =>
    cases ys with
    | nil =>
      rw [htail, List.append_assoc] at he
      exact absurd he (hx x List.mem_cons_self _ _)
    | cons y ys =>
      rw [htail, htail, List.append_assoc, List.append_assoc] at he
      obtain ⟨hxy, he⟩ := h x List.mem_cons_self y List.mem_cons_self _ _ (ends_of_tail hclose xs r)
        (ends_of_tail hclose ys r') he
      obtain ⟨hrest, hr⟩ := tail_append_inj hcomma hclose (fun x hx y hy ↦
        h x (List.mem_cons_of_mem _ hx) y (List.mem_cons_of_mem _ hy)) he
      exact ⟨.cons hxy hrest, hr⟩

end Joined

namespace Value

/-- The same value, where numbers are the same if they are written the same. -/
inductive Alike : Value → Value → Prop
  | null : Alike .null .null
  | bool (b : Bool) : Alike (.bool b) (.bool b)
  | number {n m : Number} : n.text = m.text → Alike (.number n) (.number m)
  | string (s : String) : Alike (.string s) (.string s)
  | list {v w : List Value} : List.Forall₂ Alike v w → Alike (.list v) (.list w)
  | set {v w : List Value} : List.Forall₂ Alike v w → Alike (.set v) (.set w)
  | map {v w : List (String × Value)} : v.map Prod.fst = w.map Prod.fst →
      List.Forall₂ (fun e f ↦ Alike e.2 f.2) v w → Alike (.map v) (.map w)

inductive SetFree : Value → Prop
  | null : SetFree .null
  | bool (b : Bool) : SetFree (.bool b)
  | number (n : Number) : SetFree (.number n)
  | string (s : String) : SetFree (.string s)
  | list {items : List Value} : (∀ v ∈ items, SetFree v) → SetFree (.list items)
  | map {entries : List (String × Value)} : (∀ e ∈ entries, SetFree e.2) → SetFree (.map entries)

def kindOfLead (c : Char) : Option ValueKind :=
  if c = 'n' then some .null
  else if c = 't' ∨ c = 'f' then some .bool
  else if c = '"' then some .string
  else if c = '[' then some .list
  else if c = '{' then some .map
  else if Number.isMark c then some .number
  else none

theorem kindOfLead_of_isMark {c : Char} (h : Number.isMark c = true) : kindOfLead c = some .number := by
  have hne : ∀ d, Number.isMark d = false → c ≠ d := fun d hd ↦ Number.isMark_ne h hd
  simp [kindOfLead, hne 'n' rfl, hne 't' rfl, hne 'f' rfl, hne '"' rfl, hne '[' rfl, hne '{' rfl, h]

theorem SetFree.lead {v : Value} (h : SetFree v) :
    ∃ c t, v.canonical = c :: t ∧ kindOfLead c = some v.kind := by
  cases h with
  | null | string _ | list _ | map _ => exact ⟨_, _, rfl, rfl⟩
  | bool b => cases b <;> exact ⟨_, _, rfl, rfl⟩
  | number n =>
    obtain ⟨hne, hmarks⟩ := n.text_marks
    obtain ⟨c, t, ht⟩ := List.exists_cons_of_ne_nil hne
    exact ⟨c, t, ht, kindOfLead_of_isMark (hmarks c (by rw [ht]; exact List.mem_cons_self))⟩

theorem SetFree.append_ne {v : Value} (h : SetFree v) {c : Char} (hc : kindOfLead c = none)
    (r t : List Char) : v.canonical ++ r ≠ c :: t := by
  obtain ⟨a, s, hv, ha⟩ := h.lead
  intro he
  rw [hv] at he
  rw [(List.cons.inj he).1, hc] at ha
  cases ha

theorem SetFree.kind_eq {v w : Value} (hv : SetFree v) (hw : SetFree w) {r r' : List Char}
    (h : v.canonical ++ r = w.canonical ++ r') : v.kind = w.kind := by
  obtain ⟨a, s, hva, ha⟩ := hv.lead
  obtain ⟨b, t, hwb, hb⟩ := hw.lead
  rw [hva, hwb] at h
  rw [(List.cons.inj h).1, hb] at ha
  exact (Option.some.inj ha).symm

/-- Without sets, the text of a value tells the value, whatever comes behind it. -/
theorem SetFree.canonical_append_inj {v w : Value} (hv : SetFree v) (hw : SetFree w) {r r' : List Char}
    (hr : Ends r) (hr' : Ends r') (h : v.canonical ++ r = w.canonical ++ r') : Alike v w ∧ r = r' := by
  -- The first character tells that both values are of one kind. Then their parts are compared, each with its own rest.
  induction v using induction generalizing w r r' with
  | null =>
    have hk := hv.kind_eq hw h
    match w, hk with
    | .null, _ => exact ⟨.null, List.append_cancel_left h⟩
  | bool a =>
    have hk := hv.kind_eq hw h
    match w, hk with
    | .bool b, _ =>
      cases a <;> cases b
      · exact ⟨.bool _, List.append_cancel_left h⟩
      · cases (List.cons.inj h).1
      · cases (List.cons.inj h).1
      · exact ⟨.bool _, List.append_cancel_left h⟩
  | number n =>
    have hk := hv.kind_eq hw h
    match w, hk with
    | .number m, _ =>
      obtain ⟨ht, hrest⟩ := Number.text_append_inj hr hr' h
      exact ⟨.number ht, hrest⟩
  | string s =>
    have hk := hv.kind_eq hw h
    match w, hk with
    | .string t, _ =>
      obtain ⟨hst, hrest⟩ := quote_append_inj h
      rw [String.toList_inj.1 hst]
      exact ⟨.string t, hrest⟩
  | list items ih =>
    have hk := hv.kind_eq hw h
    match w, hk with
    | .list items', _ =>
      cases hv with
      | list hv =>
      cases hw with
      | list hw =>
      simp only [canonical, canonicalItems_eq_map, List.cons_append, List.append_assoc, List.nil_append,
        List.cons.injEq, true_and] at h
      obtain ⟨hitems, hrest⟩ := joined_append_inj (R := Alike) (by decide) (by decide)
        (fun v hmem ↦ (hv v hmem).append_ne (by decide)) (fun w hmem ↦ (hw w hmem).append_ne (by decide))
        (fun v hmem w hmem' _ _ ↦ ih v hmem (hv v hmem) (hw w hmem')) h
      exact ⟨.list hitems, hrest⟩
  | set items => cases hv
  | map entries ih =>
    have hk := hv.kind_eq hw h
    match w, hk with
    | .map entries', _ =>
      cases hv with
      | map hv =>
      cases hw with
      | map hw =>
      simp only [canonical, canonicalEntries_eq_map, List.cons_append, List.append_assoc, List.nil_append,
        List.cons.injEq, true_and] at h
      obtain ⟨hentries, hrest⟩ := joined_append_inj (R := fun e f ↦ e.1 = f.1 ∧ Alike e.2 f.2) (by decide)
        (by decide) (fun _ _ _ _ ↦ by simp [quote]) (fun _ _ _ _ ↦ by simp [quote])
        (fun e hmem f hmem' r r' hr hr' he ↦ by
          rw [List.append_assoc, List.append_assoc] at he
          obtain ⟨hkey, he⟩ := quote_append_inj he
          obtain ⟨hvalue, hrest⟩ := ih e hmem (hv e hmem) (hw f hmem') hr hr' (List.cons.inj he).2
          exact ⟨⟨String.toList_inj.1 hkey, hvalue⟩, hrest⟩) h
      have hkeys : entries.map Prod.fst = entries'.map Prod.fst := by
        rw [← List.forall₂_eq_eq_eq, List.forall₂_map_left_iff, List.forall₂_map_right_iff]
        exact hentries.imp fun _ _ ↦ And.left
      exact ⟨.map hkeys (hentries.imp fun _ _ ↦ And.right), hrest⟩

end Value

end IntentCorrection
