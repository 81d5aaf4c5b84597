import IntentCorrection.Proofs.Diff.Offences

namespace IntentCorrection

open IntentCorrection.Path

/-- One level down: under a key of a map, or at a place of a list or set. -/
inductive Step
  | key (k : String)
  | item (n : Nat)

variable {m : ValueMap} {v : Value} {s : String} {n : Nat} {p : List Step}

/-- Some step goes on from an item of a list or set. -/
def Buried (p : List Step) : Prop := ∃ above n below, p = above ++ .item n :: below ∧ below ≠ []

theorem buried_cons_key : Buried (.key s :: p) ↔ Buried p := by
  constructor
  · rintro ⟨above, n, below, heq, hbelow⟩
    cases above with
    | nil => cases heq
    | cons step above => exact ⟨above, n, below, (List.cons.inj heq).2, hbelow⟩
  · rintro ⟨above, n, below, rfl, hbelow⟩
    exact ⟨.key s :: above, n, below, rfl, hbelow⟩

theorem buried_cons_item : Buried (.item n :: p) ↔ p ≠ [] := by
  constructor
  · rintro ⟨above, n', below, heq, hbelow⟩ rfl
    cases above with
    | nil => exact hbelow (List.cons.inj heq).2.symm
    | cons step above => simp at heq
  · exact fun hp ↦ ⟨[], n, p, rfl, hp⟩

/-- The positions that are looked at: along keys, and at one item in the end. -/
theorem not_buried_iff :
    ¬Buried p ↔ (∃ q : List String, p = q.map .key) ∨ ∃ (q : List String) (n : Nat), p = q.map .key ++ [.item n] := by
  induction p with
  | nil => exact iff_of_true (fun ⟨above, _, _, h, _⟩ ↦ by simp at h) (.inl ⟨[], rfl⟩)
  | cons step p ih =>
    cases step with
    | key k =>
      rw [buried_cons_key, ih]
      constructor
      · rintro (⟨q, rfl⟩ | ⟨q, n, rfl⟩)
        · exact .inl ⟨k :: q, rfl⟩
        · exact .inr ⟨k :: q, n, rfl⟩
      · rintro (⟨_ | ⟨k', q⟩, h⟩ | ⟨_ | ⟨k', q⟩, n, h⟩)
        · cases h
        · exact .inl ⟨q, (List.cons.inj h).2⟩
        · cases h
        · exact .inr ⟨q, n, (List.cons.inj h).2⟩
    | item n =>
      rw [buried_cons_item, not_not]
      constructor
      · rintro rfl
        exact .inr ⟨[], n, rfl⟩
      · rintro (⟨_ | ⟨k, q⟩, h⟩ | ⟨_ | ⟨k, q⟩, n', h⟩)
        · cases h
        · cases h
        · exact (List.cons.inj h).2
        · cases h

namespace Value

def items? : Value → Option (List Value)
  | .list items | .set items => some items
  | _ => none

def at? : List Step → Value → Option Value
  | [], v => some v
  | .key k :: p, v => v.map?.bind fun m ↦ (m.get? k).bind (at? p)
  | .item n :: p, v => v.items?.bind fun items ↦ items[n]?.bind (at? p)

theorem at?_map_key (q : List String) (v : Value) : at? (q.map .key) v = read? q v := by
  induction q generalizing v with
  | nil => rfl
  | cons k q ih =>
    rw [List.map_cons, at?, read?]
    simp only [funext ih]

theorem at?_append (p p' : List Step) (v : Value) : at? (p ++ p') v = (at? p v).bind (at? p') := by
  induction p generalizing v with
  | nil => rfl
  | cons step p ih =>
    cases step with
    | key k => simp only [List.cons_append, at?, Option.bind_assoc, funext ih]
    | item n => simp only [List.cons_append, at?, Option.bind_assoc, funext ih]

def Leaf (v : Value) : Prop := v.map? = none ∧ v.items? = none

theorem Leaf.at?_eq_none (hv : v.Leaf) (hp : p ≠ []) : at? p v = none := by
  obtain ⟨step, p, rfl⟩ := List.exists_cons_of_ne_nil hp
  cases step with
  | key k => rw [at?, hv.1, Option.bind_none]
  | item n => rw [at?, hv.2, Option.bind_none]

theorem shows_iff : v.Shows s ↔ v = .string s ∨ ∃ n, at? [.item n] v = some (.string s) := by
  have hitem : ∀ {items : List Value}, (∃ n : Nat, items[n]?.bind (at? []) = some (.string s)) ↔ .string s ∈ items := by
    intro items
    rw [List.mem_iff_getElem?]
    refine exists_congr fun n ↦ ?_
    rw [funext at?.eq_1, Option.bind_fun_some]
  constructor
  · rintro (_ | h | h)
    · exact .inl rfl
    · exact .inr (hitem.2 h)
    · exact .inr (hitem.2 h)
  · rintro (rfl | h)
    · exact .self s
    · cases v with
      | list items => exact .inList (hitem.1 h)
      | set items => exact .inSet (hitem.1 h)
      | _ => simp [at?, items?] at h

end Value

namespace Diff

open Value

/-- At the position there is a forbidden text, or an entry with an improper key. -/
def Violates (v : Value) (p : List Step) : Prop :=
  ∃ w, at? p v = some w ∧
    ((∃ s, w = .string s ∧ Forbidden s) ∨ ∃ above k, p = above ++ [.key k] ∧ ¬ProperKey k)

/-- What offends is a violation at a position that is looked at, and the other way round. -/
theorem offends_iff_violates : (∃ q k, Offends m q k) ↔ ∃ p, Violates (.map m) p ∧ ¬Buried p := by
  constructor
  · rintro ⟨q, k, w, hread, hoffence⟩
    rw [← at?_map_key] at hread
    rcases hoffence with hkey | ⟨s, hs, hforbidden⟩
    · exact ⟨_, ⟨w, hread, .inr ⟨_, k, List.map_append, hkey⟩⟩, not_buried_iff.2 (.inl ⟨_, rfl⟩)⟩
    · rcases shows_iff.1 hs with rfl | ⟨n, hn⟩
      · exact ⟨_, ⟨_, hread, .inl ⟨s, rfl, hforbidden⟩⟩, not_buried_iff.2 (.inl ⟨_, rfl⟩)⟩
      · have hat : at? ((q ++ [k]).map .key ++ [.item n]) (.map m) = some (.string s) := by
          rw [at?_append, hread, Option.bind_some, hn]
        exact ⟨_, ⟨_, hat, .inl ⟨s, rfl, hforbidden⟩⟩, not_buried_iff.2 (.inr ⟨_, n, rfl⟩)⟩
  · rintro ⟨p, ⟨w, hat, hviolates⟩, hp⟩
    rcases not_buried_iff.1 hp with ⟨q, rfl⟩ | ⟨q, n, rfl⟩
    · rw [at?_map_key] at hat
      rcases List.eq_nil_or_concat' q with rfl | ⟨q, k, rfl⟩
      · cases hat
        rcases hviolates with ⟨s, hs, -⟩ | ⟨above, k, heq, -⟩
        · cases hs
        · simp at heq
      · rcases hviolates with ⟨s, rfl, hforbidden⟩ | ⟨above, k', heq, hkey⟩
        · exact ⟨q, k, _, hat, .inr ⟨s, .self s, hforbidden⟩⟩
        · rw [List.map_append] at heq
          cases (List.append_inj' heq rfl).2
          exact ⟨q, k, w, hat, .inl hkey⟩
    · rw [at?_append, at?_map_key] at hat
      obtain ⟨u, hread, hitem⟩ := Option.bind_eq_some_iff.1 hat
      rcases hviolates with ⟨s, rfl, hforbidden⟩ | ⟨above, k, heq, -⟩
      · rcases List.eq_nil_or_concat' q with rfl | ⟨q, k, rfl⟩
        · cases hread
          cases hitem
        · exact ⟨q, k, u, hread, .inr ⟨s, shows_iff.2 (.inr ⟨n, hitem⟩), hforbidden⟩⟩
      · cases (List.append_inj' heq rfl).2

/-- A map is accepted just if every violation in it is below an item of a list or set. Where no item has anything below
it, then, what is accepted has no forbidden text and no improper key anywhere. -/
theorem validateMap_positions (hm : (Value.map m).Ordered) :
    (validateMap m = .ok () ↔ ∀ p, Violates (.map m) p → Buried p) ∧
      ((∀ p n w, at? (p ++ [.item n]) (.map m) = some w → w.Leaf) →
        (validateMap m = .ok () ↔ ∀ p, ¬Violates (.map m) p)) := by
  have haccepted : validateMap m = .ok () ↔ ∀ p, Violates (.map m) p → Buried p := by
    have hoffends := not_congr (offends_iff_violates (m := m))
    push Not at hoffends
    rw [validateMap_eq_ok, entriesFault?_eq_none_iff_offends hm, hoffends]
  refine ⟨haccepted, fun hitems ↦ haccepted.trans (forall_congr' fun p ↦ ⟨fun h hviolates ↦ ?_, fun h hviolates ↦ ?_⟩)⟩
  · obtain ⟨above, n, below, rfl, hbelow⟩ := h hviolates
    obtain ⟨w, hat, -⟩ := hviolates
    rw [List.append_cons, at?_append] at hat
    obtain ⟨u, hu, hat⟩ := Option.bind_eq_some_iff.1 hat
    rw [(hitems above n u hu).at?_eq_none hbelow] at hat
    cases hat
  · exact absurd hviolates h

/-- A relative operation in a map that is an item of a list is accepted; there is none in a list of accepted texts. -/
theorem validateMap_positions_items :
    (∃ p, Violates (.map [("x", .list [.map [("y", .string "+5")]])]) p ∧ Buried p) ∧
      validateMap [("x", .list [.map [("y", .string "+5")]])] = .ok () ∧
      ∀ p, ¬Violates (.map [("x", .list [.string "5"])]) p := by
  have hforbidden : Forbidden "+5" := by_contra fun h ↦ by
    have hnone : textFault? "y" "+5" = none := textFault?_eq_none.2 h
    revert hnone
    decide +kernel
  have hinner : (Value.map [("y", .string "+5")]).Ordered :=
    .map (List.pairwise_singleton _ _) (by simp [Ordered.string])
  have hmap : (Value.map [("x", .list [.map [("y", .string "+5")]])]).Ordered :=
    .map (List.pairwise_singleton _ _) (by simpa using .list (by simpa using hinner))
  have haccepted : validateMap [("x", .list [.map [("y", .string "+5")]])] = .ok () := by decide +kernel
  have htexts : (Value.map [("x", .list [.string "5"])]).Ordered :=
    .map (List.pairwise_singleton _ _) (by simpa using .list (by simp [Ordered.string]))
  have hviolates : Violates (.map [("x", .list [.map [("y", .string "+5")]])]) [.key "x", .item 0, .key "y"] :=
    ⟨.string "+5", rfl, .inl ⟨_, rfl, hforbidden⟩⟩
  refine ⟨⟨_, hviolates, (validateMap_positions hmap).1.1 haccepted _ hviolates⟩, haccepted, ?_⟩
  refine ((validateMap_positions htexts).2 fun p n w hat ↦ ?_).1 (by decide +kernel)
  have hleaf : ∀ {n : Nat} {u : Value}, [Value.string "5"][n]? = some u → u.Leaf := fun h ↦ by
    rw [List.mem_singleton.1 (List.mem_of_getElem? h)]
    exact ⟨rfl, rfl⟩
  rcases p with _ | ⟨k | n', p⟩
  · cases hat
  · rw [List.cons_append, at?, map?, Option.bind_some, Entries.get?_cons] at hat
    split at hat
    · rcases p with _ | ⟨k' | n', p⟩
      · rw [List.nil_append, Option.bind_some, at?, items?, Option.bind_some] at hat
        obtain ⟨u, hu, hat⟩ := Option.bind_eq_some_iff.1 hat
        cases hat
        exact hleaf hu
      · cases hat
      · rw [List.cons_append, Option.bind_some, at?, items?, Option.bind_some] at hat
        obtain ⟨u, hu, hat⟩ := Option.bind_eq_some_iff.1 hat
        rw [(hleaf hu).at?_eq_none (List.append_ne_nil_of_right_ne_nil p (List.cons_ne_nil _ _))] at hat
        cases hat
    · cases hat
  · cases hat

end Diff

end IntentCorrection
