import IntentCorrection.Proofs.Intent.Steps

namespace IntentCorrection

inductive Revision where
  | correction (diff : Diff) (source : Actor) (reason : String) (metadata : Option ValueMap) (now : Timestamp)
  | transition (requested : Status) (now : Timestamp)

inductive Revised where
  | refused (e : CorrectionError)
  | replayed (record : CorrectionRecord)
  | corrected (record : CorrectionRecord)
  | kept
  | moved
  deriving DecidableEq

def Revised.added? : Revised → Option CorrectionRecord
  | .corrected record => some record
  | _ => none

def CorrectionRecord.reapply (payload : ValueMap) (r : CorrectionRecord) : Except CorrectionError ValueMap := do
  Diff.apply payload (← r.diff.payload)

namespace Intent

/-- An accepted call gives the next intent, any other leaves it as it is. -/
def revise (i : Intent) : Revision → Revised × Intent
  | .correction diff source reason metadata now =>
    match i.correct diff source reason metadata now with
    | .error e => (.refused e, i)
    | .ok (.alreadyApplied record) => (.replayed record, i)
    | .ok (.applied next record) => (.corrected record, next)
  | .transition requested now =>
    match i.transition requested now with
    | .error e => (.refused e, i)
    | .ok next => (if i.status = requested then .kept else .moved, next)

def reviseAll (i : Intent) : List Revision → List Revised × Intent
  | [] => ([], i)
  | r :: rs =>
    let (a, next) := i.revise r
    let (as, last) := next.reviseAll rs
    (a :: as, last)

variable {i next : Intent} {r : Revision} {rs : List Revision} {a : Revised} {as : List Revised}

theorem revise_cases (h : i.revise r = (a, next)) :
    (next = i ∧ a.added? = none ∧ a ≠ .moved) ∨
    (∃ record payload, a = .corrected record ∧ next = i.corrected payload record ∧
      r = .correction record.diff record.source record.reason record.metadata record.appliedAt ∧
      record.id = correctionId i.key record.diff ∧ record.id ∉ i.history.map (·.id) ∧
      record.reapply i.payload = .ok payload) ∨
    ∃ requested now, a = .moved ∧ r = .transition requested now ∧ i.status ≠ requested ∧
      next = { i with status := requested, version := i.version + 1, updatedAt := now } := by
  cases r with
  | correction diff source reason metadata now =>
    cases hc : i.correct diff source reason metadata now with
    | error e =>
      simp only [revise, hc, Prod.mk.injEq] at h
      obtain ⟨rfl, rfl⟩ := h
      exact .inl ⟨rfl, rfl, nofun⟩
    | ok outcome =>
      cases outcome with
      | alreadyApplied record =>
        simp only [revise, hc, Prod.mk.injEq] at h
        obtain ⟨rfl, rfl⟩ := h
        exact .inl ⟨rfl, rfl, nofun⟩
      | applied next' record =>
        simp only [revise, hc, Prod.mk.injEq] at h
        obtain ⟨rfl, rfl⟩ := h
        obtain ⟨-, hr, hf, changes, payload, hchanges, hpayload, rfl⟩ := correct_applied hc
        have hnew := History.notMem_of_find? hf
        subst hr
        refine .inr (.inl ⟨_, payload, rfl, rfl, rfl, rfl, hnew, ?_⟩)
        rw [CorrectionRecord.reapply, hchanges]
        exact hpayload
  | transition requested now =>
    cases ht : i.transition requested now with
    | error e =>
      simp only [revise, ht, Prod.mk.injEq] at h
      obtain ⟨rfl, rfl⟩ := h
      exact .inl ⟨rfl, rfl, nofun⟩
    | ok next' =>
      simp only [revise, ht, Prod.mk.injEq] at h
      obtain ⟨rfl, rfl⟩ := h
      obtain ⟨-, ⟨hs, rfl⟩ | ⟨hs, rfl⟩⟩ := transition_ok ht
      · rw [if_pos hs]
        exact .inl ⟨rfl, rfl, nofun⟩
      · rw [if_neg hs]
        exact .inr (.inr ⟨requested, now, rfl, rfl, hs, rfl⟩)

structure Chronicle (i : Intent) (rs : List Revision) (as : List Revised) (last : Intent) : Prop where
  history : last.history = i.history ++ as.filterMap Revised.added?
  /-- A record holds the request that was accepted. -/
  verbatim : ∀ (n : Nat) record, as[n]? = some (.corrected record) →
    rs[n]? = some (.correction record.diff record.source record.reason record.metadata record.appliedAt)
  identified : ∀ record ∈ as.filterMap Revised.added?, record.id = correctionId i.key record.diff
  /-- An id is not in the history that its record is added to. -/
  fresh : ∀ before record after, as.filterMap Revised.added? = before ++ record :: after →
    record.id ∉ (i.history ++ before).map (·.id)
  payload : (as.filterMap Revised.added?).foldlM CorrectionRecord.reapply i.payload = .ok last.payload
  version : last.version = i.version + (as.filterMap Revised.added?).length + as.count .moved
  frame : last.key = i.key ∧ last.kind = i.kind ∧ last.correlationId = i.correlationId ∧
    last.createdAt = i.createdAt

namespace Chronicle

variable {last : Intent} {record : CorrectionRecord} {payload : ValueMap} {requested : Status} {now : Timestamp}

theorem nil : Chronicle i [] [] i where
  history := by simp
  verbatim := by simp
  identified := by simp
  fresh := by simp
  payload := rfl
  version := rfl
  frame := ⟨rfl, rfl, rfl, rfl⟩

theorem cons_same (h : Chronicle i rs as last) (ha : a.added? = none) (hm : a ≠ .moved) :
    Chronicle i (r :: rs) (a :: as) last where
  history := by rw [List.filterMap_cons_none ha]; exact h.history
  verbatim n record hn := by
    cases n with
    | zero =>
      obtain rfl : a = .corrected record := by simpa using hn
      cases ha
    | succ n => exact h.verbatim n record hn
  identified := by rw [List.filterMap_cons_none ha]; exact h.identified
  fresh := by rw [List.filterMap_cons_none ha]; exact h.fresh
  payload := by rw [List.filterMap_cons_none ha]; exact h.payload
  version := by rw [List.filterMap_cons_none ha, List.count_cons_of_ne hm]; exact h.version
  frame := h.frame

theorem cons_corrected (h : Chronicle (i.corrected payload record) rs as last)
    (hid : record.id = correctionId i.key record.diff) (hnew : record.id ∉ i.history.map (·.id))
    (hp : record.reapply i.payload = .ok payload) :
    Chronicle i
      (.correction record.diff record.source record.reason record.metadata record.appliedAt :: rs)
      (.corrected record :: as) last := by
  have hadded : (Revised.corrected record :: as).filterMap Revised.added? =
      record :: as.filterMap Revised.added? := rfl
  have hhistory : (i.corrected payload record).history = i.history ++ [record] := rfl
  constructor
  · rw [h.history, hadded, hhistory, List.append_assoc]
    rfl
  · intro n r hn
    cases n with
    | zero =>
      cases hn
      rfl
    | succ n => exact h.verbatim n r hn
  · intro r hr
    rw [hadded, List.mem_cons] at hr
    rcases hr with rfl | hr
    · exact hid
    · exact h.identified r hr
  · intro before r after hsplit
    rw [hadded] at hsplit
    cases before with
    | nil =>
      cases hsplit
      simpa using hnew
    | cons first before =>
      obtain ⟨rfl, hrest⟩ := List.cons.inj hsplit
      have hfresh := h.fresh before r after hrest
      rwa [hhistory, List.append_assoc] at hfresh
  · rw [hadded, List.foldlM_cons, hp]
    exact h.payload
  · have hv := h.version
    have hstart : (i.corrected payload record).version = i.version + 1 := rfl
    have hcount : (Revised.corrected record :: as).count .moved = as.count .moved :=
      List.count_cons_of_ne (by simp)
    rw [hadded, hcount, List.length_cons]
    omega
  · exact h.frame

theorem cons_moved
    (h : Chronicle { i with status := requested, version := i.version + 1, updatedAt := now } rs as last) :
    Chronicle i (.transition requested now :: rs) (.moved :: as) last where
  history := h.history
  verbatim n record hn := by
    cases n with
    | zero => cases hn
    | succ n => exact h.verbatim n record hn
  identified := h.identified
  fresh := h.fresh
  payload := h.payload
  version := by
    have hv := h.version
    dsimp only at hv
    rw [List.count_cons_self, List.filterMap_cons_none rfl]
    omega
  frame := h.frame

end Chronicle

/-- Any sequence of calls leaves a complete log. The history ends with the accepted corrections, in order and as
they were requested, each under the id of its diff and an id that was new. Their diffs lead from the payload at
the start to the one at the end. The version counts them and the real changes of status, and all else is kept. -/
theorem reviseAll_chronicle (i : Intent) (rs : List Revision) :
    Chronicle i rs (i.reviseAll rs).1 (i.reviseAll rs).2 := by
  induction rs generalizing i with
  | nil => exact .nil
  | cons r rs ih =>
    rcases hr : i.revise r with ⟨a, next⟩
    have hrest := ih next
    have hall : i.reviseAll (r :: rs) = (a :: (next.reviseAll rs).1, (next.reviseAll rs).2) := by
      simp only [reviseAll, hr]
    rw [hall]
    -- The first call keeps, corrects or moves the intent, and the log of the others goes behind what it adds.
    rcases revise_cases hr with ⟨rfl, ha, hm⟩ | ⟨record, payload, rfl, rfl, rfl, hid, hnew, hp⟩ |
      ⟨requested, now, rfl, rfl, -, rfl⟩
    · exact hrest.cons_same ha hm
    · exact hrest.cons_corrected hid hnew hp
    · exact hrest.cons_moved

end Intent

end IntentCorrection
