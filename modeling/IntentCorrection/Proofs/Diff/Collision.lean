import IntentCorrection.Proofs.Diff.Assignment

namespace IntentCorrection

def Value.Blocks (w : Value) : Prop := w.map? = none ∧ w.isNull = false

namespace Path

theorem read?_above {p rest : List String} {v w : Value} (h : read? (p ++ rest) v = some w) (hrest : rest ≠ []) :
    ∃ sub, read? p v = some (.map sub) := by
  induction p generalizing v with
  | nil =>
    obtain ⟨s, rest, rfl⟩ := List.exists_cons_of_ne_nil hrest
    cases v with
    | map sub => exact ⟨sub, rfl⟩
    | _ => cases h
  | cons s p ih =>
    cases v with
    | map m =>
      rw [List.cons_append, read?_cons] at h
      obtain ⟨u, hu, h⟩ := Option.bind_eq_some_iff.1 h
      rw [read?_cons, hu]
      exact ih h
    | _ => cases h

end Path

namespace Diff

open IntentCorrection.Path

variable {m m' t d done es : ValueMap} {p q rest : List String} {s : String} {v w : Value} {e : String × Value}
  {kind : ValueKind} {err : CorrectionError}

theorem not_blocks_of_entered {sub : ValueMap} (h : entered (some w) = some sub) : ¬w.Blocks := by
  cases w with
  | null => exact fun hw ↦ nomatch hw.2
  | map sub => exact fun hw ↦ nomatch hw.1
  | _ => cases h

theorem blocks_of_entered {old : Option Value} (h : entered old = none) : ∃ w, old = some w ∧ w.Blocks := by
  cases old with
  | none => cases h
  | some w =>
    refine ⟨w, rfl, ?_⟩
    cases w with
    | null => cases h
    | map sub => cases h
    | _ => exact ⟨rfl, rfl⟩

theorem assign_of_blocks (hp : p ≠ []) (hget : m.get? s = some w) (hw : w.Blocks) :
    assign (s :: p) v m = .error (s, w.kind) := by
  obtain ⟨s', p, rfl⟩ := List.exists_cons_of_ne_nil hp
  rw [assign, hget]
  · cases w with
    | null => cases hw.2
    | map sub => cases hw.1
    | _ => rfl
  · exact List.cons_ne_nil _ _

/-- An assignment fails for something that is in the way. -/
theorem obstacle_of_assign (h : assign p v m = .error (s, kind)) :
    ∃ above rest w, p = above ++ s :: rest ∧ rest ≠ [] ∧ read? (above ++ [s]) (.map m) = some w ∧ w.Blocks ∧
      kind = w.kind := by
  induction p generalizing m with
  | nil => cases h
  | cons s' p ih =>
    by_cases hp : p = []
    · subst hp
      cases h
    · cases hsub : entered (m.get? s') with
      | none =>
        obtain ⟨w, hget, hblocks⟩ := blocks_of_entered hsub
        rw [assign_of_blocks hp hget hblocks] at h
        cases h
        exact ⟨[], p, w, rfl, hp, by rw [List.nil_append, read?_cons, hget]; rfl, hblocks, rfl⟩
      | some sub =>
        rw [assign_of_entered hp hsub] at h
        cases hassign : assign p v sub with
        | ok sub' =>
          rw [hassign] at h
          cases h
        | error fault =>
          rw [hassign] at h
          cases h
          obtain ⟨above, rest, w, rfl, hrest, hread, hblocks, hkind⟩ := ih hassign
          refine ⟨s' :: above, rest, w, rfl, hrest, ?_, hblocks, hkind⟩
          have hne : above ++ [s] ≠ [] := List.append_ne_nil_of_right_ne_nil above (List.cons_ne_nil _ _)
          rw [List.cons_append, read?_of_entered hne hsub, hread]

theorem not_blocks_of_assign (h : assign (q ++ rest) v m = .ok m') (hq : q ≠ []) (hrest : rest ≠ [])
    (hread : read? q (.map m) = some w) : ¬w.Blocks := by
  induction q generalizing m m' with
  | nil => exact absurd rfl hq
  | cons s q ih =>
    obtain ⟨sub, sub', hsub, hassign, -⟩ := assign_cons (List.append_ne_nil_of_right_ne_nil q hrest) h
    by_cases hlast : q = []
    · subst hlast
      have hget : m.get? s = some w := by
        rw [read?_cons] at hread
        obtain ⟨u, hu, hread⟩ := Option.bind_eq_some_iff.1 hread
        cases hread
        exact hu
      exact not_blocks_of_entered (by rw [← hget, hsub])
    · exact ih hassign hlast ((read?_of_entered hlast hsub).symm.trans hread)

/-- What counts at a path: what the longest key that leads there has for it, or else what the target has. -/
def Governing (t d : ValueMap) (q : List String) (w : Value) : Prop :=
  (∃ e rest, Governs d e q rest ∧ read? rest e.2 = some w) ∨
    (∀ e ∈ d, ¬segments e.1 <+: q) ∧ read? q (.map t) = some w

/-- On the way to the key, and before its end, what counts is an obstacle. -/
structure Collides (t d : ValueMap) (e : String × Value) (q : List String) (w : Value) : Prop where
  mem : e ∈ d
  nonempty : q ≠ []
  above : q <+: segments e.1
  proper : q ≠ segments e.1
  governing : Governing t d q w
  blocks : w.Blocks

/-- Of all collisions this is the first: that of the least key, and on the way to it the one on the shortest path. -/
structure FirstCollision (t d : ValueMap) (e : String × Value) (q : List String) (w : Value) : Prop where
  collides : Collides t d e q w
  least : ∀ e' q' w', Collides t d e' q' w' → e.1 ≤ e'.1
  shortest : ∀ q' w', Collides t d e q' w' → q.length ≤ q'.length

theorem applyEntries_append (m : ValueMap) (es es' : List (String × Value)) :
    applyEntries m (es ++ es') = (applyEntries m es >>= fun m' ↦ applyEntries m' es') := by
  induction es generalizing m with
  | nil => rfl
  | cons e es ih =>
    rw [List.cons_append, applyEntries, applyEntries, bind_assoc]
    exact bind_congr fun m' ↦ ih m'

theorem error_of_applyEntries (h : applyEntries t d = .error err) :
    ∃ done e es m s kind, d = done ++ e :: es ∧ applyEntries t done = .ok m ∧
      assign (segments e.1) e.2 m = .error (s, kind) ∧ err = .collision e.1 s kind := by
  induction d generalizing t with
  | nil => cases h
  | cons e es ih =>
    rw [applyEntries] at h
    cases hentry : applyEntry t e.1 e.2 with
    | error err' =>
      rw [hentry] at h
      cases h
      unfold applyEntry at hentry
      split at hentry
      · cases hentry
      · rename_i s kind hassign
        cases hentry
        exact ⟨[], e, es, t, s, kind, rfl, rfl, hassign, rfl⟩
    | ok m' =>
      rw [hentry] at h
      obtain ⟨done, e', es', m, s, kind, rfl, hdone, hassign, herr⟩ := ih h
      refine ⟨e :: done, e', es', m, s, kind, rfl, ?_, hassign, herr⟩
      rw [applyEntries, hentry]
      exact hdone

/-- When the turn of a key comes, the obstacles on its way are those that count for the whole diff, provided that no key
before it met one. -/
theorem read?_iff_governing (hd : InOrder (done ++ e :: es)) (hdone : applyEntries t done = .ok m)
    (hfree : ∀ e' ∈ done, ∀ q w, ¬Collides t (done ++ e :: es) e' q w) (hq : q ≠ []) (habove : q <+: segments e.1)
    (hproper : q ≠ segments e.1) (hw : w.Blocks) :
    read? q (.map m) = some w ↔ Governing t (done ++ e :: es) q w := by
  obtain ⟨hdoneOrder, hrestOrder, -⟩ := List.pairwise_append.1 hd
  have hmem : ∀ e' ∈ done ++ e :: es, segments e'.1 <+: q → e' ∈ done := fun e' he' hleads ↦ by
    rcases List.mem_append.1 he' with he' | he'
    · exact he'
    · rcases List.mem_cons.1 he' with rfl | he'
      · exact absurd (habove.eq_of_length (le_antisymm habove.length_le hleads.length_le)) hproper
      · exact absurd (hleads.trans habove) ((List.pairwise_cons.1 hrestOrder).1 e' he')
  have hgoverns : ∀ e' rest, Governs (done ++ e :: es) e' q rest ↔ Governs done e' q rest := fun e' rest ↦
    ⟨fun h ↦ ⟨hmem e' h.mem ⟨rest, h.path.symm⟩, h.path, fun x hx ↦ h.longest x (List.mem_append_left _ hx)⟩,
      fun h ↦ ⟨List.mem_append_left _ h.mem, h.path, fun x hx hxq ↦ h.longest x (hmem x hx hxq) hxq⟩⟩
  have hreads := reads_applyEntries hdoneOrder hdone q
  by_cases hbeyond : LeadsBeyond done q
  · -- A key that has been put below the path made sure of a map, and met no obstacle.
    obtain ⟨sub, hsub⟩ := hreads.beyond hbeyond
    obtain ⟨e', he', hon, hne⟩ := hbeyond
    refine iff_of_false (fun h ↦ ?_) fun h ↦ ?_
    · rw [hsub] at h
      cases h
      cases hw.1
    · exact hfree e' he' q w ⟨List.mem_append_left _ he', hq, hon, hne, h, hw⟩
  · constructor
    · intro h
      by_cases hleads : ∃ x ∈ done, segments x.1 <+: q
      · obtain ⟨x, hx, hxq⟩ := hleads
        obtain ⟨e', rest, hgov⟩ := exists_governs hx hxq
        exact .inl ⟨e', rest, (hgoverns e' rest).2 hgov, (hreads.governed hbeyond e' rest hgov).symm.trans h⟩
      · push Not at hleads
        exact .inr ⟨fun x hx hxq ↦ hleads x (hmem x hx hxq) hxq, (hreads.apart hbeyond hleads).symm.trans h⟩
    · rintro (⟨e', rest, hgov, h⟩ | ⟨hnone, h⟩)
      · rw [hreads.governed hbeyond e' rest ((hgoverns e' rest).1 hgov), h]
      · rw [hreads.apart hbeyond fun x hx ↦ hnone x (List.mem_append_left _ hx), h]

theorem not_collides_of_applyEntries (hd : InOrder (done ++ es)) (h : applyEntries t done = .ok m) :
    ∀ e ∈ done, ∀ q w, ¬Collides t (done ++ es) e q w := by
  induction done using List.reverseRecOn generalizing es m with
  | nil => exact fun e he ↦ absurd he List.not_mem_nil
  | append_singleton done e ih =>
    rw [List.append_assoc] at hd ⊢
    rw [applyEntries_append] at h
    obtain ⟨m', hdone, h⟩ := ok_of_bind h
    obtain ⟨m'', hassign, -⟩ := ok_of_applyEntries h
    have hfree := ih hd hdone
    intro e' he' q w hcollides
    rcases List.mem_append.1 he' with he' | he'
    · exact hfree e' he' q w hcollides
    · obtain rfl := List.mem_singleton.1 he'
      have hread := (read?_iff_governing hd hdone hfree hcollides.nonempty hcollides.above hcollides.proper
        hcollides.blocks).2 hcollides.governing
      obtain ⟨rest, hrest⟩ := hcollides.above
      have hne : rest ≠ [] := fun hnil ↦ hcollides.proper (by rw [← hrest, hnil, List.append_nil])
      rw [← hrest] at hassign
      exact not_blocks_of_assign hassign hcollides.nonempty hne hread hcollides.blocks

theorem firstCollision_of_applyEntries (hd : Entries.Sorted d) (h : applyEntries t d = .error err) :
    ∃ e q w s, FirstCollision t d e q w ∧ q.getLast? = some s ∧ err = .collision e.1 s w.kind := by
  obtain ⟨done, e, es, m, s, kind, rfl, hdone, hassign, rfl⟩ := error_of_applyEntries h
  have horder := inOrder_of_sorted hd
  have hfree := not_collides_of_applyEntries horder hdone
  obtain ⟨above, rest, w, hpath, hrest, hread, hblocks, rfl⟩ := obstacle_of_assign hassign
  rw [List.append_cons] at hpath
  have habove : above ++ [s] <+: segments e.1 := ⟨rest, hpath.symm⟩
  have hproper : above ++ [s] ≠ segments e.1 := fun heq ↦ hrest (by simpa [← heq] using hpath)
  have hq : above ++ [s] ≠ [] := List.append_ne_nil_of_right_ne_nil above (List.cons_ne_nil _ _)
  have hgoverning := (read?_iff_governing horder hdone hfree hq habove hproper hblocks).1 hread
  have hmem : e ∈ done ++ e :: es := List.mem_append_right _ List.mem_cons_self
  refine ⟨e, above ++ [s], w, s, ⟨⟨hmem, hq, habove, hproper, hgoverning, hblocks⟩, fun e' q' w' hcollides ↦ ?_,
    fun q' w' hcollides ↦ ?_⟩, List.getLast?_concat, rfl⟩
  · rcases List.mem_append.1 hcollides.mem with he' | he'
    · exact absurd hcollides (hfree e' he' q' w')
    · rcases List.mem_cons.1 he' with rfl | he'
      · exact Std.le_refl _
      · exact Std.le_of_lt ((List.pairwise_cons.1 (List.pairwise_append.1 hd).2.1).1 e' he')
  · -- Above an obstacle that was met there are only maps.
    by_contra hlt
    obtain ⟨rest', hrest'⟩ : q' <+: above ++ [s] :=
      List.prefix_of_prefix_length_le hcollides.above habove (Nat.le_of_not_le hlt)
    have hne : rest' ≠ [] := fun hnil ↦ hlt (by rw [← hrest', hnil, List.append_nil])
    rw [← hrest'] at hread
    obtain ⟨sub, hsub⟩ := read?_above hread hne
    have hread' := (read?_iff_governing horder hdone hfree hcollides.nonempty hcollides.above hcollides.proper
      hcollides.blocks).2 hcollides.governing
    rw [hsub] at hread'
    cases hread'
    cases hcollides.blocks.1

/-- An accepted diff cannot be applied just if one of its keys collides. The error then names the least such key, the
last segment of the shortest path on the way to it that has an obstacle, and the kind of the obstacle. -/
theorem apply_collides (hd : Entries.Sorted d) (hvalid : validateMap d = .ok ()) :
    ((∃ err, apply t d = .error err) ↔ ∃ e q w, Collides t d e q w) ∧
      ∀ err, apply t d = .error err →
        ∃ e q w s, FirstCollision t d e q w ∧ q.getLast? = some s ∧ err = .collision e.1 s w.kind := by
  have happly : apply t d = applyEntries t d := by
    unfold apply
    rw [hvalid]
    rfl
  rw [happly]
  refine ⟨⟨fun ⟨err, herr⟩ ↦ ?_, fun ⟨e, q, w, hcollides⟩ ↦ ?_⟩, fun err ↦ firstCollision_of_applyEntries hd⟩
  · obtain ⟨e, q, w, s, hfirst, -⟩ := firstCollision_of_applyEntries hd herr
    exact ⟨e, q, w, hfirst.collides⟩
  · cases h : applyEntries t d with
    | error err => exact ⟨err, rfl⟩
    | ok r =>
      have hd' : InOrder (d ++ []) := by
        rw [List.append_nil]
        exact inOrder_of_sorted hd
      have hfree := not_collides_of_applyEntries hd' h e hcollides.mem q w
      rw [List.append_nil] at hfree
      exact absurd hcollides hfree

/-- The number in the target is no obstacle: it is put out of the way first, and then there is one below. -/
theorem apply_collides_below :
    ∃ e q w,
      FirstCollision [("a", .ofInt 5)] [("a", .map [("b", .ofInt 7)]), ("a.b.c", .null), ("a.c", .null)] e q w ∧
      e.1 = "a.b.c" ∧ q.getLast? = some "b" ∧ w.kind = .number := by
  have hd : Entries.Sorted [("a", Value.map [("b", .ofInt 7)]), ("a.b.c", .null), ("a.c", .null)] := by
    unfold Entries.Sorted
    decide +kernel
  have hvalid : validateMap [("a", Value.map [("b", .ofInt 7)]), ("a.b.c", .null), ("a.c", .null)] = .ok () := by
    decide +kernel
  have herr : apply [("a", .ofInt 5)] [("a", .map [("b", .ofInt 7)]), ("a.b.c", .null), ("a.c", .null)] =
      .error (.collision "a.b.c" "b" .number) := by decide +kernel
  obtain ⟨e, q, w, s, hfirst, hs, heq⟩ := (apply_collides hd hvalid).2 _ herr
  injection heq with hkey hsegment hkind
  exact ⟨e, q, w, hfirst, hkey.symm, by rw [hs, hsegment], hkind.symm⟩

end Diff

end IntentCorrection
