import IntentCorrection.Diff.Application
import IntentCorrection.Text.Escaped
import IntentCorrection.Proofs.Intent.Plain
import Mathlib.Data.Set.Finite.Lemmas

namespace IntentCorrection

namespace Path

theorem joined_splitDots (cs : List Char) : Text.joined ['.'] (splitDots cs) = cs := by
  induction cs with
  | nil => rfl
  | cons c cs ih =>
    obtain ⟨s, r, hsplit⟩ := List.exists_cons_of_ne_nil (splitDots_ne_nil cs)
    rw [hsplit] at ih
    rw [splitDots, hsplit]
    split
    · rename_i hdot
      rw [Text.joined, ih, hdot]
      · rfl
      · exact List.cons_ne_nil _ _
    · cases r with
      | nil => exact congrArg (c :: ·) ih
      | cons s' r => exact congrArg (c :: ·) ih

theorem joined_prefix {separator : List Char} {ts us : List (List Char)} (h : ts <+: us) :
    Text.joined separator ts <+: Text.joined separator us := by
  obtain ⟨vs, rfl⟩ := h
  induction ts with
  | nil => exact List.nil_prefix
  | cons t ts ih =>
    cases ts with
    | nil =>
      cases vs with
      | nil => exact List.prefix_rfl
      | cons v vs => exact (List.prefix_append _ _).trans (List.prefix_append _ _)
    | cons t' ts => exact (List.prefix_append_right_inj _).2 ih

/-- A key whose path leads on to that of another does not come after it. -/
theorem le_of_segments_prefix {key key' : String} (h : segments key <+: segments key') : key ≤ key' := by
  have hsplit : splitDots key.toList <+: splitDots key'.toList := by
    simpa [segments] using h.map String.toList
  have hjoined : Text.joined ['.'] _ <+: Text.joined ['.'] _ := joined_prefix hsplit
  rw [joined_splitDots, joined_splitDots] at hjoined
  exact hjoined.le

def mapAt (p : List String) (m : ValueMap) : ValueMap := ((read? p (.map m)).bind Value.map?).getD []

variable {m : ValueMap} {p : List String} {s : String} {w : Value}

theorem read?_insert (s' : String) (p : List String) :
    read? (s' :: p) (.map (m.insert s w)) = if s' = s then read? p w else read? (s' :: p) (.map m) := by
  rw [read?_cons, Entries.get?_insert]
  split <;> rfl

end Path

namespace Diff

open IntentCorrection.Path

variable {m m' n n' r t t' d : ValueMap} {p q rest : List String} {s : String} {v w : Value}

/-- The map in which a path goes on from a value: none for a value that is in the way. -/
def entered : Option Value → Option ValueMap
  | none | some .null => some []
  | some v => v.map?

theorem assign_cons (hp : p ≠ []) (h : assign (s :: p) v m = .ok m') :
    ∃ sub sub', entered (m.get? s) = some sub ∧ assign p v sub = .ok sub' ∧ m' = m.insert s (.map sub') := by
  obtain ⟨s', p, rfl⟩ := List.exists_cons_of_ne_nil hp
  unfold assign at h
  split at h
  · rename_i hget
    obtain ⟨sub', hsub, h⟩ := ok_of_bind h
    cases h
    exact ⟨[], sub', by rw [hget]; rfl, hsub, rfl⟩
  · rename_i hget
    obtain ⟨sub', hsub, h⟩ := ok_of_bind h
    cases h
    exact ⟨[], sub', by rw [hget]; rfl, hsub, rfl⟩
  · rename_i sub hget
    obtain ⟨sub', hsub, h⟩ := ok_of_bind h
    cases h
    exact ⟨sub, sub', by rw [hget]; rfl, hsub, rfl⟩
  · cases h

theorem entered_cases {sub : ValueMap} (h : entered (m.get? s) = some sub) :
    (m.get? s = none ∨ m.get? s = some .null) ∧ sub = [] ∨ m.get? s = some (.map sub) := by
  cases hget : m.get? s with
  | none =>
    rw [hget] at h
    cases h
    exact .inl ⟨.inl rfl, rfl⟩
  | some old =>
    rw [hget] at h
    cases old with
    | null =>
      cases h
      exact .inl ⟨.inr rfl, rfl⟩
    | map old =>
      cases h
      exact .inr rfl
    | _ => cases h

theorem assign_of_entered (hp : p ≠ []) {sub : ValueMap} (h : entered (m.get? s) = some sub) :
    assign (s :: p) v m = (assign p v sub).map fun sub' ↦ m.insert s (.map sub') := by
  obtain ⟨s', p, rfl⟩ := List.exists_cons_of_ne_nil hp
  obtain ⟨hget | hget, rfl⟩ | hget := entered_cases h
  all_goals
    rw [assign, hget]
    · cases assign (s' :: p) v _ with
      | error fault => rfl
      | ok sub' => rfl
    · exact List.cons_ne_nil _ _

/-- What an assignment puts at the head of its path hangs on what is there alone. -/
theorem insert_of_assign (h : assign (s :: p) v m = .ok m') :
    ∃ x, m' = m.insert s x ∧ ∀ n : ValueMap, n.get? s = m.get? s → assign (s :: p) v n = .ok (n.insert s x) := by
  by_cases hp : p = []
  · subst hp
    cases h
    exact ⟨v, rfl, fun n _ ↦ rfl⟩
  · obtain ⟨sub, sub', hsub, hassign, rfl⟩ := assign_cons hp h
    refine ⟨.map sub', rfl, fun n hget ↦ ?_⟩
    rw [← hget] at hsub
    rw [assign_of_entered hp hsub, hassign]
    rfl

/-- What a path finds beyond one segment is what it finds in the map that it goes on in. -/
theorem read?_of_entered (hp : p ≠ []) {sub : ValueMap} (h : entered (m.get? s) = some sub) :
    read? (s :: p) (.map m) = read? p (.map sub) := by
  obtain ⟨s', p, rfl⟩ := List.exists_cons_of_ne_nil hp
  rw [read?_cons]
  obtain ⟨hget | hget, rfl⟩ | hget := entered_cases h
  all_goals
    rw [hget]
    rfl

theorem mapAt_of_entered {sub : ValueMap} (h : entered (m.get? s) = some sub) : mapAt (s :: p) m = mapAt p sub := by
  by_cases hp : p = []
  · subst hp
    unfold mapAt
    rw [read?_cons]
    obtain ⟨hget | hget, rfl⟩ | hget := entered_cases h
    all_goals
      rw [hget]
      rfl
  · rw [mapAt, read?_of_entered hp h, mapAt]

theorem read?_assign_append (hq : q ≠ []) (h : assign q v m = .ok m') (rest : List String) :
    read? (q ++ rest) (.map m') = read? rest v := by
  induction q generalizing m m' with
  | nil => exact absurd rfl hq
  | cons s q ih =>
    rw [List.cons_append]
    by_cases hlast : q = []
    · subst hlast
      cases h
      rw [read?_insert, if_pos rfl, List.nil_append]
    · obtain ⟨sub, sub', -, hsub, rfl⟩ := assign_cons hlast h
      rw [read?_insert, if_pos rfl]
      exact ih hlast hsub

/-- On the way to an assigned path there are maps, and each is what the map before became by the rest of the path. -/
theorem read?_assign_above (hrest : rest ≠ []) (h : assign (p ++ rest) v m = .ok m') :
    ∃ sub, read? p (.map m') = some (.map sub) ∧ assign rest v (mapAt p m) = .ok sub := by
  induction p generalizing m m' with
  | nil => exact ⟨m', rfl, h⟩
  | cons s p ih =>
    obtain ⟨sub, sub', hsub, hassign, rfl⟩ := assign_cons (List.append_ne_nil_of_right_ne_nil p hrest) h
    obtain ⟨found, hfound, hrest⟩ := ih hassign
    exact ⟨found, by rw [read?_insert, if_pos rfl, hfound], by rw [mapAt_of_entered hsub, hrest]⟩

/-- An assignment is not noticed at a path that parts from its own. -/
theorem read?_assign_apart (hqp : ¬q <+: p) (hpq : ¬p <+: q) (h : assign q v m = .ok m') :
    read? p (.map m') = read? p (.map m) := by
  induction q generalizing m m' p with
  | nil => exact absurd List.nil_prefix hqp
  | cons s q ih =>
    cases p with
    | nil => exact absurd List.nil_prefix hpq
    | cons s' p =>
      by_cases hs : s' = s
      · subst hs
        rw [List.cons_prefix_cons, eq_self, true_and] at hqp hpq
        have hq : q ≠ [] := fun hq ↦ hqp (hq ▸ List.nil_prefix)
        have hp : p ≠ [] := fun hp ↦ hpq (hp ▸ List.nil_prefix)
        obtain ⟨sub, sub', hsub, hassign, rfl⟩ := assign_cons hq h
        rw [read?_insert, if_pos rfl, read?_of_entered hp hsub]
        exact ih hqp hpq hassign
      · obtain ⟨w, rfl, -⟩ := insert_of_assign h
        rw [read?_insert, if_neg hs]

/-- Where two targets agree, they agree after an assignment that succeeds on both. -/
theorem read?_assign_congr (h : assign q v m = .ok m') (h' : assign q v n = .ok n')
    (hsame : read? p (.map m) = read? p (.map n)) : read? p (.map m') = read? p (.map n') := by
  by_cases hqp : q <+: p
  · obtain ⟨rest, rfl⟩ := hqp
    by_cases hq : q = []
    · subst hq
      cases h
      cases h'
      exact hsame
    · rw [read?_assign_append hq h, read?_assign_append hq h']
  · by_cases hpq : p <+: q
    · obtain ⟨rest, rfl⟩ := hpq
      have hrest : rest ≠ [] := fun hrest ↦ hqp (by simp [hrest])
      obtain ⟨sub, hsub, hassign⟩ := read?_assign_above hrest h
      obtain ⟨sub', hsub', hassign'⟩ := read?_assign_above hrest h'
      rw [mapAt, hsame, ← mapAt, hassign'] at hassign
      cases hassign
      rw [hsub, hsub']
    · rw [read?_assign_apart hqp hpq h, read?_assign_apart hqp hpq h', hsame]

theorem ok_of_applyEntries {e : String × Value} {es : List (String × Value)} (h : applyEntries m (e :: es) = .ok r) :
    ∃ m', assign (segments e.1) e.2 m = .ok m' ∧ applyEntries m' es = .ok r := by
  obtain ⟨m', hentry, h⟩ := ok_of_bind h
  unfold applyEntry at hentry
  split at hentry
  · rename_i hassign
    cases hentry
    exact ⟨m', hassign, h⟩
  · cases hentry

/-- No path of the entries leads to that of an entry before it. -/
def InOrder (es : List (String × Value)) : Prop := es.Pairwise fun e e' ↦ ¬segments e'.1 <+: segments e.1

theorem inOrder_of_sorted (h : Entries.Sorted d) : InOrder d :=
  h.imp fun hlt hprefix ↦ le_of_segments_prefix hprefix hlt

def LeadsBeyond (es : List (String × Value)) (p : List String) : Prop :=
  ∃ e ∈ es, p <+: segments e.1 ∧ p ≠ segments e.1

/-- Of the keys that lead to a path or end on the way, this is the longest; `rest` is what is left of the path. -/
structure Governs (es : List (String × Value)) (e : String × Value) (p rest : List String) : Prop where
  mem : e ∈ es
  path : p = segments e.1 ++ rest
  longest : ∀ e' ∈ es, segments e'.1 <+: p → (segments e'.1).length ≤ (segments e.1).length

variable {e : String × Value} {es : List (String × Value)}

theorem exists_governs (he : e ∈ es) (hp : segments e.1 <+: p) : ∃ e' rest, Governs es e' p rest := by
  have hfinite : {x | x ∈ es ∧ segments x.1 <+: p}.Finite := es.finite_toSet.subset fun _ hx ↦ hx.1
  obtain ⟨e', ⟨hmem, rest, hrest⟩, hlongest⟩ :=
    Set.exists_max_image _ (fun x ↦ (segments x.1).length) hfinite ⟨e, he, hp⟩
  exact ⟨e', rest, hmem, hrest.symm, fun x hx hxp ↦ hlongest x ⟨hx, hxp⟩⟩

/-- What is read in the target after the entries were put at their paths. -/
structure Reads (m : ValueMap) (es : List (String × Value)) (r : ValueMap) (p : List String) : Prop where
  beyond : LeadsBeyond es p → ∃ sub, read? p (.map r) = some (.map sub)
  governed : ¬LeadsBeyond es p → ∀ e rest, Governs es e p rest → read? p (.map r) = read? rest e.2
  apart : ¬LeadsBeyond es p → (∀ e ∈ es, ¬segments e.1 <+: p) → read? p (.map r) = read? p (.map m)

theorem reads_applyEntries (hes : InOrder es) (h : applyEntries m es = .ok r) (p : List String) : Reads m es r p := by
  induction es generalizing m with
  | nil =>
    cases h
    exact ⟨fun ⟨e, he, _⟩ ↦ absurd he List.not_mem_nil, fun _ e rest hgov ↦ absurd hgov.mem List.not_mem_nil,
      fun _ _ ↦ rfl⟩
  | cons e es ih =>
    obtain ⟨hfirst, hes⟩ := List.pairwise_cons.1 hes
    obtain ⟨m', hassign, h⟩ := ok_of_applyEntries h
    obtain ⟨hbeyond, hgoverned, hapart⟩ := ih hes h
    have hlater : LeadsBeyond es p → LeadsBeyond (e :: es) p := fun ⟨e', he', hp⟩ ↦
      ⟨e', List.mem_cons_of_mem _ he', hp⟩
    refine ⟨fun hp ↦ ?_, fun hp e' rest hgov ↦ ?_, fun hp hnone ↦ ?_⟩
    · by_cases hrest : LeadsBeyond es p
      · exact hbeyond hrest
      · obtain ⟨e', he', hprefix, hne⟩ := hp
        obtain rfl : e' = e := (List.mem_cons.1 he').resolve_right fun he' ↦ hrest ⟨e', he', hprefix, hne⟩
        rw [hapart hrest fun x hx hxp ↦ hfirst x hx (hxp.trans hprefix)]
        obtain ⟨rest, heq⟩ := hprefix
        rw [← heq] at hassign
        have hnil : rest ≠ [] := fun hnil ↦ hne (by rw [← heq, hnil, List.append_nil])
        obtain ⟨sub, hsub, -⟩ := read?_assign_above hnil hassign
        exact ⟨sub, hsub⟩
    · have hp' : ¬LeadsBeyond es p := fun h ↦ hp (hlater h)
      have hprefix : segments e'.1 <+: p := ⟨rest, hgov.path.symm⟩
      by_cases hrest : ∃ x ∈ es, segments x.1 <+: p
      · obtain ⟨x, hx, hxp⟩ := hrest
        have he' : e' ∈ es := (List.mem_cons.1 hgov.mem).resolve_left fun he ↦ by
          have hlength := hgov.longest x (List.mem_cons_of_mem _ hx) hxp
          exact hfirst x hx (he ▸ List.prefix_of_prefix_length_le hxp hprefix hlength)
        exact hgoverned hp' e' rest ⟨he', hgov.path, fun x hx ↦ hgov.longest x (List.mem_cons_of_mem _ hx)⟩
      · obtain rfl : e' = e := (List.mem_cons.1 hgov.mem).resolve_right fun he' ↦ hrest ⟨e', he', hprefix⟩
        rw [hapart hp' fun x hx hxp ↦ hrest ⟨x, hx, hxp⟩, hgov.path]
        exact read?_assign_append (segments_ne_nil _) hassign rest
    · obtain ⟨he, hes⟩ := List.forall_mem_cons.1 hnone
      rw [hapart (fun h ↦ hp (hlater h)) hes]
      refine read?_assign_apart he (fun hprefix ↦ ?_) hassign
      have hsame : p = segments e.1 := Classical.byContradiction fun hne ↦ hp ⟨e, List.mem_cons_self, hprefix, hne⟩
      exact he (hsame ▸ List.prefix_rfl)

/-- Two targets agree afterwards where they agreed before, and where a key leads to or has been on the way. -/
theorem read?_applyEntries_congr (h : applyEntries m es = .ok r) (h' : applyEntries n es = .ok t)
    (hsame : read? p (.map m) = read? p (.map n) ∨ ∃ e ∈ es, segments e.1 <+: p) :
    read? p (.map r) = read? p (.map t) := by
  induction es generalizing m n with
  | nil =>
    cases h
    cases h'
    exact hsame.resolve_right fun ⟨e, he, _⟩ ↦ absurd he List.not_mem_nil
  | cons e es ih =>
    obtain ⟨m', hm, h⟩ := ok_of_applyEntries h
    obtain ⟨n', hn, h'⟩ := ok_of_applyEntries h'
    refine ih h h' ?_
    by_cases he : segments e.1 <+: p
    · obtain ⟨rest, rfl⟩ := he
      left
      rw [read?_assign_append (segments_ne_nil _) hm, read?_assign_append (segments_ne_nil _) hn]
    · exact hsame.imp (read?_assign_congr hm hn) fun ⟨x, hx, hxp⟩ ↦
        ⟨x, (List.mem_cons.1 hx).resolve_left fun heq ↦ he (heq ▸ hxp), hxp⟩

theorem applyEntries_of_apply (h : apply t d = .ok r) : applyEntries t d = .ok r := by
  obtain ⟨_, -, h⟩ := ok_of_bind h
  exact h

/-- A diff that is applied means absolute assignments. Where a key leads on there is a map, else the longest key that
leads to the path or ends on the way has what is read there, and where there is none the target has it. What is read
at the path of a key and beyond does not depend on the target. -/
theorem apply_absolute (hd : Entries.Sorted d) (h : apply t d = .ok r) (p : List String) :
    (LeadsBeyond d p → ∃ m, read? p (.map r) = some (.map m)) ∧
      (¬LeadsBeyond d p →
        ((∃ e ∈ d, segments e.1 <+: p) → ∃ e rest, Governs d e p rest) ∧
        (∀ e rest, Governs d e p rest → read? p (.map r) = read? rest e.2) ∧
        ((∀ e ∈ d, ¬segments e.1 <+: p) → read? p (.map r) = read? p (.map t))) ∧
      ∀ e ∈ d, segments e.1 <+: p → ∀ t' r', apply t' d = .ok r' → read? p (.map r') = read? p (.map r) := by
  have hreads := reads_applyEntries (inOrder_of_sorted hd) (applyEntries_of_apply h) p
  refine ⟨hreads.beyond, fun hp ↦ ⟨fun ⟨e, he, hprefix⟩ ↦ exists_governs he hprefix, hreads.governed hp,
    hreads.apart hp⟩, fun e he hprefix t' r' h' ↦ ?_⟩
  exact read?_applyEntries_congr (applyEntries_of_apply h') (applyEntries_of_apply h) (.inr ⟨e, he, hprefix⟩)

/-- A key that leads on from another, and a null on the way; a dot in a key of the target is no way. -/
theorem apply_absolute_overlap :
    ∃ r, apply [("a.b", .ofInt 7), ("c", .null)]
        [("a", .map [("x", .ofInt 1)]), ("a.b", .ofInt 2), ("c.d", .ofInt 3)] = .ok r ∧
      (∃ m, read? ["a"] (.map r) = some (.map m)) ∧ (∃ m, read? ["c"] (.map r) = some (.map m)) ∧
      read? ["a", "x"] (.map r) = some (.ofInt 1) ∧ read? ["a.b"] (.map r) = some (.ofInt 7) := by
  have hd : Entries.Sorted [("a", Value.map [("x", .ofInt 1)]), ("a.b", .ofInt 2), ("c.d", .ofInt 3)] := by
    unfold Entries.Sorted
    decide +kernel
  obtain ⟨r, h⟩ : ∃ r, apply [("a.b", .ofInt 7), ("c", .null)]
      [("a", .map [("x", .ofInt 1)]), ("a.b", .ofInt 2), ("c.d", .ofInt 3)] = .ok r := ⟨_, rfl⟩
  have hkeys : segments "a" = ["a"] ∧ segments "a.b" = ["a", "b"] ∧ segments "c.d" = ["c", "d"] := by
    decide +kernel
  refine ⟨r, h, (apply_absolute hd h ["a"]).1 ?_, (apply_absolute hd h ["c"]).1 ?_, ?_, ?_⟩
  · simp [LeadsBeyond, hkeys]
  · simp [LeadsBeyond, hkeys]
  · refine ((apply_absolute hd h ["a", "x"]).2.1 ?_).2.1 ("a", .map [("x", .ofInt 1)]) ["x"] ?_
    · simp [LeadsBeyond, hkeys]
    · constructor <;> simp [hkeys]
  · refine ((apply_absolute hd h ["a.b"]).2.1 ?_).2.2 ?_
    · simp [LeadsBeyond, hkeys]
    · simp [hkeys]

end Diff

end IntentCorrection
