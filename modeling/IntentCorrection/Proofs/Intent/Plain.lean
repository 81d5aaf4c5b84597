import IntentCorrection.Proofs.Intent.Codec
import IntentCorrection.Proofs.Intent.Steps

namespace IntentCorrection

namespace Value.Plain

variable {m : ValueMap} {k : String} {v : Value}

theorem nil : Plain (.map []) := ⟨.map Entries.sorted_nil (nofun), .map (nofun)⟩

theorem of_mem (h : Plain (.map m)) {e : String × Value} (he : e ∈ m) : Plain e.2 := by
  obtain ⟨hordered, hfree⟩ := h
  cases hordered with
  | map _ hordered =>
  cases hfree with
  | map hfree => exact ⟨hordered e he, hfree e he⟩

theorem of_get? (h : Plain (.map m)) (hv : m.get? k = some v) : Plain v := h.of_mem (Entries.mem_of_get? hv)

theorem insert (h : Plain (.map m)) (k : String) (hv : Plain v) : Plain (.map (Entries.insert k v m)) := by
  obtain ⟨hordered, hfree⟩ := h
  cases hordered with
  | map hsorted hordered =>
  cases hfree with
  | map hfree =>
  refine ⟨.map (hsorted.insert k v) fun e he ↦ ?_, .map fun e he ↦ ?_⟩
  · rcases Entries.mem_insert he with rfl | he
    · exact hv.1
    · exact hordered e he
  · rcases Entries.mem_insert he with rfl | he
    · exact hv.2
    · exact hfree e he

end Value.Plain

theorem ok_of_bind {ε α β : Type} {x : Except ε α} {f : α → Except ε β} {b : β} (h : (x >>= f) = .ok b) :
    ∃ a, x = .ok a ∧ f a = .ok b := by
  cases x with
  | error e => cases h
  | ok a => exact ⟨a, rfl, h⟩

namespace Diff

open Value

variable {m m' : ValueMap}

theorem plain_assign {p : List String} {v : Value} (h : assign p v m = .ok m') (hm : Plain (.map m))
    (hv : Plain v) : Plain (.map m') := by
  fun_induction assign p v m generalizing m' with
  | case1 v m =>
    cases h
    exact hm
  | case2 last v m =>
    cases h
    exact hm.insert last hv
  | case3 s p v m _ _ ih =>
    obtain ⟨sub, hsub, h⟩ := ok_of_bind h
    cases h
    exact hm.insert s (ih hsub .nil hv)
  | case4 s p v m _ _ ih =>
    obtain ⟨sub, hsub, h⟩ := ok_of_bind h
    cases h
    exact hm.insert s (ih hsub .nil hv)
  | case5 s p v m _ old hget ih =>
    obtain ⟨sub, hsub, h⟩ := ok_of_bind h
    cases h
    exact hm.insert s (ih hsub (hm.of_get? hget) hv)
  | case6 => cases h

theorem plain_applyEntries {es : List (String × Value)} (h : applyEntries m es = .ok m') (hm : Plain (.map m))
    (hes : ∀ e ∈ es, Plain e.2) : Plain (.map m') := by
  induction es generalizing m with
  | nil =>
    cases h
    exact hm
  | cons e es ih =>
    obtain ⟨he, hes⟩ := List.forall_mem_cons.1 hes
    obtain ⟨next, hnext, h⟩ := ok_of_bind h
    refine ih h ?_ hes
    unfold applyEntry at hnext
    split at hnext
    · rename_i r hr
      cases hnext
      exact plain_assign hr hm he
    · cases hnext

theorem plain_apply {target diff : ValueMap} (h : apply target diff = .ok m') (ht : Plain (.map target))
    (hd : Plain (.map diff)) : Plain (.map m') := by
  obtain ⟨_, -, h⟩ := ok_of_bind h
  exact plain_applyEntries h ht fun e he ↦ hd.of_mem he

theorem plain_payload {d : Diff} (h : d.payload = .ok m') (hd : Plain (.map d.entries)) : Plain (.map m') := by
  unfold payload at h
  split at h
  · cases h
    exact .nil
  · cases h
    exact .nil
  · rename_i m hget
    cases h
    exact hd.of_get? hget
  · cases h

end Diff

namespace Intent

variable {i next : Intent} {diff : Diff} {source : Actor} {reason : String} {metadata : Option ValueMap}
  {now : Timestamp} {record : CorrectionRecord}

theorem plain_correct (h : i.correct diff source reason metadata now = .ok (.applied next record))
    (hi : i.Every Value.Plain) (hdiff : Value.Plain (.map diff.entries))
    (hmetadata : ∀ m, metadata = some m → Value.Plain (.map m)) : next.Every Value.Plain := by
  obtain ⟨-, rfl, -, changes, payload, hchanges, hpayload, rfl⟩ := correct_applied h
  refine ⟨Diff.plain_apply hpayload hi.1 (Diff.plain_payload hchanges hdiff), fun r hr ↦ ?_⟩
  rcases List.mem_append.1 hr with hr | hr
  · exact hi.2 r hr
  · rw [List.mem_singleton.1 hr]
    exact ⟨hdiff, hmetadata⟩

theorem plain_transition {requested : Status} (h : i.transition requested now = .ok next)
    (hi : i.Every Value.Plain) : next.Every Value.Plain := by
  obtain ⟨-, ⟨-, rfl⟩ | ⟨-, rfl⟩⟩ := transition_ok h
  · exact hi
  · exact hi

end Intent

end IntentCorrection
