import IntentCorrection.Proofs.Intent.Plain

namespace IntentCorrection

open Json

variable {m m' : ValueMap} {key : String} {v : Value}

theorem Json.depth_lt_ofMap (h : m.get? key = some v) : (ofValue v).depth < (ofMap m).depth := by
  have hmem := List.mem_map_of_mem (f := fun e : String × Value ↦ (e.1, ofValue e.2)) (Entries.mem_of_get? h)
  rw [ofMap, ofValue, ofEntries_eq_map]
  exact depth_lt_object hmem

namespace Diff

theorem depth_lt_insert (m : ValueMap) (key : String) (v : Value) :
    (Json.ofValue v).depth < (ofMap (m.insert key v)).depth :=
  depth_lt_ofMap (by rw [Entries.get?_insert, if_pos rfl])

theorem length_le_depth_assign {p : List String} (hne : p ≠ []) (h : assign p v m = .ok m') :
    p.length ≤ (ofMap m').depth := by
  fun_induction assign p v m generalizing m' with
  | case1 v m => exact absurd rfl hne
  | case2 last v m =>
    cases h
    exact Nat.zero_lt_of_lt (depth_lt_insert m last v)
  | case3 s p v m hp _ ih =>
    obtain ⟨sub, hsub, h⟩ := ok_of_bind h
    cases h
    exact Nat.lt_of_le_of_lt (ih hp hsub) (depth_lt_insert m s (.map sub))
  | case4 s p v m hp _ ih =>
    obtain ⟨sub, hsub, h⟩ := ok_of_bind h
    cases h
    exact Nat.lt_of_le_of_lt (ih hp hsub) (depth_lt_insert m s (.map sub))
  | case5 s p v m hp old _ ih =>
    obtain ⟨sub, hsub, h⟩ := ok_of_bind h
    cases h
    exact Nat.lt_of_le_of_lt (ih hp hsub) (depth_lt_insert m s (.map sub))
  | case6 => cases h

theorem length_le_depth_apply {target : ValueMap} (h : apply target [(key, v)] = .ok m') :
    (Path.segments key).length ≤ (ofMap m').depth := by
  obtain ⟨_, -, h⟩ := ok_of_bind h
  obtain ⟨next, hnext, h⟩ := ok_of_bind h
  cases h
  unfold applyEntry at hnext
  split at hnext
  · rename_i hassign
    cases hnext
    exact length_le_depth_assign (Path.segments_ne_nil key) hassign
  · cases hnext

end Diff

namespace Intent

theorem depth_payload_lt (i : Intent) : (ofMap i.payload).depth < i.toJson.depth :=
  @depth_lt_object _ ("payload", ofMap i.payload) (by simp)

/-- A correction that sets one path nests the payload as deep as the path is long. -/
theorem length_lt_depth_correct {i next : Intent} {source : Actor} {reason : String} {metadata : Option ValueMap}
    {now : Timestamp} {record : CorrectionRecord}
    (h : i.correct (.ofPayload [(key, v)]) source reason metadata now = .ok (.applied next record)) :
    (Path.segments key).length < next.toJson.depth := by
  obtain ⟨-, -, -, changes, payload, hchanges, hpayload, rfl⟩ := correct_applied h
  cases hchanges
  exact Nat.lt_of_le_of_lt (Diff.length_le_depth_apply hpayload) (depth_payload_lt (i.corrected payload record))

end Intent

end IntentCorrection
