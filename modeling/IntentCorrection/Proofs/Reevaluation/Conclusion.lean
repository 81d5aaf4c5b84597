import IntentCorrection.Proofs.Reevaluation.Job

namespace IntentCorrection

namespace Log

/-- The swaps that were won and the commits of replaced handles that went well. -/
def writes (log : Log) : List Proposal := log.filterMap Exchange.landed?

theorem writes_quiet {log : Log} {x : Exchange} (h : log.writes = []) (hx : x.landed? = none) :
    writes (log ++ [x]) = [] := by
  unfold writes at h ⊢
  rw [List.filterMap_append, h]
  simp [hx]

theorem writes_landed {log : Log} {x : Exchange} {p : Proposal} (h : log.writes = []) (hx : x.landed? = some p) :
    writes (log ++ [x]) = [p] := by
  unfold writes at h ⊢
  rw [List.filterMap_append, h]
  simp [hx]

theorem writes_concat {log : Log} {x : Exchange} (hx : x.landed? = none) : writes (log ++ [x]) = log.writes := by
  simp [writes, List.filterMap_append, hx]

/-- The correction was written with the intent, or found in it. -/
def Corrects (log : Log) (r : ReevaluationRequest) (i : Intent) (record : CorrectionRecord)
    (alreadyApplied : Bool) : Prop :=
  i.key = r.intentKey ∧ record.id = correctionId r.intentKey r.diff ∧ record ∈ i.history ∧
    if alreadyApplied then log.writes = [] ∧ ∃ x ∈ log, x.shown? = some i
    else ∃ expected, log.writes = [⟨expected, i, [record]⟩]

/-- The intent was shown in the status that it was to have, or written with it in place of the version that was shown
in another status. -/
def Moves (log : Log) (key : String) (requested : Status) (i : Intent) (previous : Status) : Prop :=
  i.key = key ∧ i.status = requested ∧ ∃ x ∈ log, ∃ base, x.shown? = some base ∧ base.status = previous ∧
    if previous = requested then i = base ∧ log.writes = [] else log.writes = [⟨base.version, i, []⟩]

variable {log : Log} {r : ReevaluationRequest} {i : Intent} {record : CorrectionRecord} {alreadyApplied : Bool}
  {key : String} {requested previous : Status} {x : Exchange}

theorem Corrects.concat (h : log.Corrects r i record alreadyApplied) (hx : x.landed? = none) :
    Corrects (log ++ [x]) r i record alreadyApplied := by
  obtain ⟨hkey, hid, hm, h⟩ := h
  refine ⟨hkey, hid, hm, ?_⟩
  rw [writes_concat hx]
  cases alreadyApplied with
  | false => exact h
  | true =>
    obtain ⟨hnone, y, hy, hi⟩ := h
    exact ⟨hnone, y, List.mem_append_left _ hy, hi⟩

theorem Corrects.settles (h : log.Corrects r i record alreadyApplied) : log.Settles r i.key record alreadyApplied := by
  obtain ⟨hkey, hid, hm, h⟩ := h
  refine ⟨hkey, hid, ?_⟩
  cases alreadyApplied with
  | false =>
    obtain ⟨expected, hwrites⟩ := h
    have hwrite : ⟨expected, i, [record]⟩ ∈ log.writes := by simp [hwrites]
    obtain ⟨x, hx, hp⟩ := List.mem_filterMap.1 hwrite
    exact ⟨x, hx, _, hp, rfl, List.mem_singleton_self record⟩
  | true =>
    obtain ⟨-, x, hx, hi⟩ := h
    exact ⟨x, hx, i, hi, rfl, hm⟩

theorem Moves.concat (h : log.Moves key requested i previous) (hx : x.landed? = none) :
    Moves (log ++ [x]) key requested i previous := by
  obtain ⟨hkey, hstatus, y, hy, base, hbase, h⟩ := h
  refine ⟨hkey, hstatus, y, List.mem_append_left _ hy, base, hbase, ?_⟩
  rw [writes_concat hx]
  exact h

end Log

namespace Job

def Concludes : Job → Log → Outcome → Prop
  | .correction _ r, log, .corrected (.ok response) =>
    ∃ i record attempts starved, response = .of i record response.alreadyApplied attempts starved ∧
      log.Corrects r i record response.alreadyApplied
  | .statusChange _ key requested, log, .statusChanged (.ok i) => ∃ previous, log.Moves key requested i previous
  | .correction .., log, .corrected (.error _) => log.writes = []
  | .statusChange .., log, .statusChanged (.error _) => log.writes = []
  | _, _, _ => False

theorem Concludes.mayEnd {j : Job} {log : Log} {outcome : Outcome} (h : j.Concludes log outcome) :
    j.MayEnd log outcome := by
  cases j with
  | statusChange config key requested => cases outcome <;> trivial
  | correction config r =>
    cases outcome with
    | statusChanged result => exact h.elim
    | corrected result =>
      cases result with
      | error e => trivial
      | ok response =>
        obtain ⟨i, record, attempts, starved, hresponse, hcorrects⟩ := h
        rw [hresponse]
        exact ⟨record, rfl, rfl, hcorrects.settles⟩

end Job

end IntentCorrection
