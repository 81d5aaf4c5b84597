import IntentCorrection.Proofs.Diff.Grammar
import IntentCorrection.Proofs.Json.Values

namespace IntentCorrection

/-- The text is the value, or an item of the list or set that is the value. -/
inductive Value.Shows : Value → String → Prop
  | self (s : String) : Shows (.string s) s
  | inList {items : List Value} {s : String} : .string s ∈ items → Shows (.list items) s
  | inSet {items : List Value} {s : String} : .string s ∈ items → Shows (.set items) s

namespace Diff

open IntentCorrection.Path

variable {m : ValueMap} {v : Value} {key k : String} {q : List String} {items : List Value} {fault : DiffFault}

def shownFault? (key : String) : Value → Option DiffFault
  | .string s => textFault? key s
  | .list items | .set items => itemsFault? key items
  | _ => none

theorem itemsFault?_eq_none : itemsFault? key items = none ↔ ∀ s, .string s ∈ items → ¬Forbidden s := by
  induction items with
  | nil => simp [itemsFault?]
  | cons v items ih =>
    cases v with
    | string s => simp [itemsFault?, textFault?_eq_none, ih]
    | _ => simp [itemsFault?, ih]

theorem key_of_itemsFault? (h : itemsFault? key items = some fault) : fault.key = some key := by
  induction items with
  | nil => cases h
  | cons v items ih =>
    cases v with
    | string s => exact (Option.or_eq_some_iff.1 h).elim key_of_textFault? fun h ↦ ih h.2
    | _ => exact ih h

theorem shownFault?_eq_none : shownFault? key v = none ↔ ∀ s, v.Shows s → ¬Forbidden s := by
  cases v with
  | string s =>
    exact textFault?_eq_none.trans ⟨fun h _ hs ↦ by cases hs; exact h, fun h ↦ h s (.self s)⟩
  | list items =>
    refine itemsFault?_eq_none.trans ⟨fun h s hs ↦ ?_, fun h s hs ↦ h s (.inList hs)⟩
    cases hs with | inList hs => exact h s hs
  | set items =>
    refine itemsFault?_eq_none.trans ⟨fun h s hs ↦ ?_, fun h s hs ↦ h s (.inSet hs)⟩
    cases hs with | inSet hs => exact h s hs
  | _ => exact iff_of_true rfl fun _ hs ↦ nomatch hs

theorem key_of_shownFault? (h : shownFault? key v = some fault) : fault.key = some key := by
  cases v with
  | string s => exact key_of_textFault? h
  | list items => exact key_of_itemsFault? h
  | set items => exact key_of_itemsFault? h
  | _ => cases h

/-- An entry of a map that is reached through maps. -/
structure Site where
  above : List String
  key : String
  value : Value

namespace Site

def path (x : Site) : List String := x.above ++ [x.key]

def under (k : String) (x : Site) : Site := { x with above := k :: x.above }

def fault? (x : Site) : Option DiffFault := (keyFault? x.key).or (shownFault? x.key x.value)

theorem path_pos (x : Site) : [] < x.path := by
  obtain ⟨above, key, value⟩ := x
  cases above with
  | nil => exact List.nil_lt_cons _ _
  | cons s above => exact List.nil_lt_cons _ _

end Site

mutual

def walk : List (String × Value) → List Site
  | [] => []
  | (k, v) :: r => (⟨[], k, v⟩ :: (walkValue v).map (Site.under k)) ++ walk r

def walkValue : Value → List Site
  | .map m => walk m
  | _ => []

end

theorem walk_eq_flatMap (es : List (String × Value)) :
    walk es = es.flatMap fun e ↦ ⟨[], e.1, e.2⟩ :: (walkValue e.2).map (Site.under e.1) := by
  induction es with
  | nil => rfl
  | cons e es ih => rw [walk, ih, List.flatMap_cons]

/-- The check looks at the entries in turn, and stops at a fault. -/
theorem entriesFault?_eq_findSome? (m : ValueMap) : entriesFault? m = (walk m).findSome? Site.fault? := by
  have hvalue : ∀ (v : Value) (k : String),
      valueFault? k v = (shownFault? k v).or ((walkValue v).findSome? Site.fault?) := fun v ↦ by
    induction v using Value.induction with
    | map entries ih =>
      intro k
      simp only [valueFault?, shownFault?, walkValue, Option.none_or]
      induction entries with
      | nil => rfl
      | cons e entries ihentries =>
        obtain ⟨he, hentries⟩ := List.forall_mem_cons.1 ih
        have hself : (keyFault? e.1).or (shownFault? e.1 e.2) = Site.fault? ⟨[], e.1, e.2⟩ := rfl
        rw [entriesFault?, walk, he, ihentries hentries, List.findSome?_append, List.findSome?_cons,
          List.findSome?_map, ← Option.or_assoc, hself]
        cases Site.fault? ⟨[], e.1, e.2⟩ with
        | none => rfl
        | some fault => rfl
    | _ => intro k; simp [valueFault?, shownFault?, walkValue]
  exact (hvalue (.map m) "").trans Option.none_or

theorem mem_walk {es : List (String × Value)} {x : Site} :
    x ∈ walk es ↔ ∃ e ∈ es, x = ⟨[], e.1, e.2⟩ ∨ ∃ y ∈ walkValue e.2, y.under e.1 = x := by
  rw [walk_eq_flatMap, List.mem_flatMap]
  simp only [List.mem_cons, List.mem_map]

/-- All that can be read through maps is walked over. -/
theorem mem_walkValue (hv : v.Ordered) {x : Site} : x ∈ walkValue v ↔ read? x.path v = some x.value := by
  induction v using Value.induction generalizing x with
  | map entries ih =>
    cases hv with | map hsorted hentries => ?_
    rw [walkValue, mem_walk]
    obtain ⟨above, key, value⟩ := x
    cases above with
    | nil =>
      rw [Site.path, List.nil_append, read?_cons]
      constructor
      · rintro ⟨e, he, heq | ⟨y, -, heq⟩⟩
        · cases heq
          rw [hsorted.mem_iff.1 he]
          rfl
        · cases heq
      · intro h
        obtain ⟨w, hw, hvalue⟩ := Option.bind_eq_some_iff.1 h
        cases hvalue
        exact ⟨(key, value), Entries.mem_of_get? hw, .inl rfl⟩
    | cons s above =>
      rw [Site.path, List.cons_append, read?_cons]
      constructor
      · rintro ⟨e, he, heq | ⟨⟨above', key', value'⟩, hy, heq⟩⟩
        · cases heq
        · cases heq
          rw [hsorted.mem_iff.1 he]
          exact (ih e he (hentries e he)).1 hy
      · intro h
        obtain ⟨w, hw, hvalue⟩ := Option.bind_eq_some_iff.1 h
        have he := Entries.mem_of_get? hw
        exact ⟨(s, w), he, .inr ⟨⟨above, key, value⟩, (ih _ he (hentries _ he)).2 hvalue, rfl⟩⟩
  | _ =>
    obtain ⟨above, key, value⟩ := x
    refine iff_of_false List.not_mem_nil ?_
    cases above with
    | nil => exact nofun
    | cons s above => exact nofun

/-- It is walked over in the order of the paths. -/
theorem pairwise_walkValue (hv : v.Ordered) : (walkValue v).Pairwise fun x y ↦ x.path < y.path := by
  induction v using Value.induction with
  | map entries ih =>
    cases hv with | map hsorted hentries => ?_
    have hstart : ∀ {e : String × Value} {x : Site}, x ∈ ⟨[], e.1, e.2⟩ :: (walkValue e.2).map (Site.under e.1) →
        ∃ p, x.path = e.1 :: p := fun hx ↦ by
      rcases List.mem_cons.1 hx with rfl | hx
      · exact ⟨[], rfl⟩
      · obtain ⟨y, -, rfl⟩ := List.mem_map.1 hx
        exact ⟨y.path, rfl⟩
    rw [walkValue, walk_eq_flatMap, List.pairwise_flatMap]
    refine ⟨fun e he ↦ List.pairwise_cons.2 ⟨fun y hy ↦ ?_, ?_⟩, hsorted.imp fun hlt x hx y hy ↦ ?_⟩
    · obtain ⟨y, -, rfl⟩ := List.mem_map.1 hy
      exact List.cons_lt_cons_iff.2 (.inr ⟨rfl, y.path_pos⟩)
    · exact List.pairwise_map.2 ((ih e he (hentries e he)).imp fun hlt ↦ List.cons_lt_cons_iff.2 (.inr ⟨rfl, hlt⟩))
    · obtain ⟨p, hp⟩ := hstart hx
      obtain ⟨q, hq⟩ := hstart hy
      rw [hp, hq]
      exact List.cons_lt_cons_iff.2 (.inl hlt)
  | _ => exact .nil

/-- The entry at the key, in the map reached along the path, has an improper key or shows a forbidden text. -/
def Offends (m : ValueMap) (q : List String) (k : String) : Prop :=
  ∃ v, read? (q ++ [k]) (.map m) = some v ∧ (¬ProperKey k ∨ ∃ s, v.Shows s ∧ Forbidden s)

/-- Of the entries that offend, this comes first: keys go before what is below them, and else the least is first. -/
def FirstOffence (m : ValueMap) (q : List String) (k : String) : Prop :=
  Offends m q k ∧ ∀ q' k', Offends m q' k' → ¬q' ++ [k'] < q ++ [k]

theorem Site.fault?_eq_none {x : Site} :
    x.fault? = none ↔ ¬(¬ProperKey x.key ∨ ∃ s, x.value.Shows s ∧ Forbidden s) := by
  rw [Site.fault?, Option.or_eq_none_iff, keyFault?_eq_none, shownFault?_eq_none]
  grind

theorem Site.key_of_fault? {x : Site} (h : x.fault? = some fault) : fault.key = some x.key :=
  (Option.or_eq_some_iff.1 h).elim key_of_keyFault? fun h ↦ key_of_shownFault? h.2

theorem offends_iff (hm : (Value.map m).Ordered) :
    Offends m q k ↔ ∃ x ∈ walk m, x.above = q ∧ x.key = k ∧ x.fault? ≠ none := by
  constructor
  · rintro ⟨v, hread, hoffence⟩
    exact ⟨⟨q, k, v⟩, (mem_walkValue hm).2 hread, rfl, rfl, fun h ↦ Site.fault?_eq_none.1 h hoffence⟩
  · rintro ⟨x, hx, rfl, rfl, hfault⟩
    exact ⟨x.value, (mem_walkValue hm).1 hx, not_not.1 (mt Site.fault?_eq_none.2 hfault)⟩

theorem entriesFault?_eq_none_iff_offends (hm : (Value.map m).Ordered) :
    entriesFault? m = none ↔ ∀ q k, ¬Offends m q k := by
  simp only [entriesFault?_eq_findSome?, List.findSome?_eq_none_iff, offends_iff hm]
  grind

theorem firstOffence_of_entriesFault? (hm : (Value.map m).Ordered) (h : entriesFault? m = some fault) :
    ∃ q k, FirstOffence m q k ∧ fault.key = some k := by
  rw [entriesFault?_eq_findSome?, List.findSome?_eq_some_iff] at h
  obtain ⟨before, x, after, hwalk, hfault, hbefore⟩ := h
  have hx : x ∈ walk m := by
    rw [hwalk]
    exact List.mem_append_right _ List.mem_cons_self
  have hne : x.fault? ≠ none := by
    rw [hfault]
    nofun
  refine ⟨x.above, x.key, ⟨(offends_iff hm).2 ⟨x, hx, rfl, rfl, hne⟩, fun q' k' hoffends ↦ ?_⟩,
    Site.key_of_fault? hfault⟩
  obtain ⟨y, hy, rfl, rfl, hyfault⟩ := (offends_iff hm).1 hoffends
  have hpairs := pairwise_walkValue hm
  rw [walkValue, hwalk] at hpairs
  rw [hwalk] at hy
  -- An offending entry is not looked at before the one where the look stops.
  rcases List.mem_append.1 hy with hy | hy
  · exact absurd (hbefore y hy) hyfault
  · rcases List.mem_cons.1 hy with rfl | hy
    · exact List.lt_irrefl _
    · exact List.lt_asymm ((List.pairwise_cons.1 (List.pairwise_append.1 hpairs).2.1).1 y hy)

theorem validateMap_eq_ok : validateMap m = .ok () ↔ entriesFault? m = none := by
  unfold validateMap
  split <;> simp_all

/-- The check accepts just the maps in which no entry offends. Else it fails, for the diff being invalid, and the key
in the error is that of the first entry that offends. -/
theorem validateMap_grammar (hm : (Value.map m).Ordered) :
    (validateMap m = .ok () ↔ ∀ q k, ¬Offends m q k) ∧
      ∀ err, validateMap m = .error err →
        ∃ q k fault, FirstOffence m q k ∧ err = .invalidDiff fault ∧ fault.key = some k := by
  unfold validateMap
  cases hfault : entriesFault? m with
  | none => exact ⟨iff_of_true rfl ((entriesFault?_eq_none_iff_offends hm).1 hfault), nofun⟩
  | some fault =>
    obtain ⟨q, k, hfirst, hkey⟩ := firstOffence_of_entriesFault? hm hfault
    refine ⟨iff_of_false nofun fun h ↦ h q k hfirst.1, fun err herr ↦ ?_⟩
    cases herr
    exact ⟨q, k, fault, hfirst, rfl, hkey⟩

/-- The call among the items of a list is met before the bad key after it; the blank in a key is no fault. -/
theorem validateMap_grammar_nested :
    ∃ q, FirstOffence [("a", .map [("x y", .string "1"), ("z", .list [.null, .string " len ()"])]),
      ("b.", .null)] q "z" := by
  have hinner : (Value.map [("x y", .string "1"), ("z", .list [.null, .string " len ()"])]).Ordered := by
    refine .map (by unfold Entries.Sorted; decide +kernel) ?_
    have hitems : (Value.list [.null, .string " len ()"]).Ordered :=
      .list (by simp [Value.Ordered.null, Value.Ordered.string])
    simp [Value.Ordered.string, hitems]
  have hm : (Value.map [("a", .map [("x y", .string "1"), ("z", .list [.null, .string " len ()"])]),
      ("b.", .null)]).Ordered := by
    refine .map (by unfold Entries.Sorted; decide +kernel) ?_
    simp [Value.Ordered.null, hinner]
  have hrefused : validateMap [("a", .map [("x y", .string "1"), ("z", .list [.null, .string " len ()"])]),
      ("b.", .null)] = .error (.invalidDiff (.functionCall "z" " len ()")) := by decide +kernel
  obtain ⟨q, k, fault, hfirst, herr, hkey⟩ := (validateMap_grammar hm).2 _ hrefused
  cases herr
  cases hkey
  exact ⟨q, hfirst⟩

end Diff

end IntentCorrection
