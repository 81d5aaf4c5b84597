import IntentCorrection.Proofs.Intent.Steps
import IntentCorrection.Proofs.Reevaluation.Exchange
import IntentCorrection.Reevaluation.Protocol

namespace IntentCorrection

open Reevaluation

inductive Job where
  | correction (config : Config) (request : ReevaluationRequest)
  | statusChange (config : Config) (key : String) (requested : Status)

inductive Outcome where
  | corrected (result : Except ReevaluationError ReevaluationResponse)
  | statusChanged (result : Except ReevaluationError Intent)

namespace Job

def key : Job → String
  | .correction _ r => r.intentKey
  | .statusChange _ key _ => key

def program : Job → Program Outcome
  | .correction config r => Outcome.corrected <$> reevaluate config r
  | .statusChange config key requested => Outcome.statusChanged <$> updateStatus config key requested

/-- The next version of an intent by the job, done at a given time, and the corrections that it adds; nothing if
the job is refused or leaves the intent as it is. -/
def perform (j : Job) (i : Intent) (now : Timestamp) : Option (Intent × List CorrectionRecord) :=
  match j with
  | .correction _ r =>
    match i.correct r.diff r.source r.reason r.metadata now with
    | .ok (.applied next record) => some (next, [record])
    | _ => none
  | .statusChange _ _ requested =>
    match i.transition requested now with
    | .ok next => if i.status = requested then none else some (next, [])
    | .error _ => none

variable {j : Job} {i next : Intent} {now : Timestamp} {records : List CorrectionRecord}

theorem perform_correction {config : Config} {r : ReevaluationRequest}
    (h : (correction config r).perform i now = some (next, records)) :
    ∃ record, records = [record] ∧ correct i r now = .ok (.applied next record) := by
  unfold perform at h
  dsimp only at h
  split at h
  · rename_i next' record he
    cases h
    exact ⟨record, rfl, he⟩
  · cases h

theorem perform_statusChange {config : Config} {key : String} {requested : Status}
    (h : (statusChange config key requested).perform i now = some (next, records)) :
    i.status ≠ requested ∧ records = [] ∧ i.transition requested now = .ok next := by
  unfold perform at h
  dsimp only at h
  split at h
  · rename_i next' he
    split at h
    · cases h
    · rename_i hs
      cases h
      exact ⟨hs, rfl, he⟩
  · cases h

/-- A job keeps the key, adds one to the version and its corrections to the history, and stamps its time. The
ids of its corrections are new. -/
theorem perform_spec (h : j.perform i now = some (next, records)) :
    next.key = i.key ∧ next.version = i.version + 1 ∧ next.history = i.history ++ records ∧
      next.updatedAt = now ∧ (records.map (·.id)).Nodup ∧
      ∀ r ∈ records, r.id ∉ i.history.map (·.id) := by
  cases j with
  | correction config r =>
    obtain ⟨record, rfl, hc⟩ := perform_correction h
    obtain ⟨-, hr, hf, changes, payload, -, -, rfl⟩ := Intent.correct_applied hc
    refine ⟨rfl, rfl, rfl, ?_, by simp, ?_⟩
    · rw [hr]
      rfl
    · intro r' hr'
      rw [List.mem_singleton.1 hr']
      exact History.notMem_of_find? hf
  | statusChange config key requested =>
    obtain ⟨hs, rfl, ht⟩ := perform_statusChange h
    obtain ⟨-, ⟨he, -⟩ | ⟨-, rfl⟩⟩ := Intent.transition_ok ht
    · exact absurd he hs
    · exact ⟨rfl, rfl, by simp, rfl, by simp, by simp⟩

end Job

namespace Log

def Wrote (log : Log) (key : String) (record : CorrectionRecord) : Prop :=
  ∃ x ∈ log, ∃ p, x.landed? = some p ∧ p.intent.key = key ∧ record ∈ p.corrections

def Found (log : Log) (key : String) (record : CorrectionRecord) : Prop :=
  ∃ x ∈ log, ∃ i, x.shown? = some i ∧ i.key = key ∧ record ∈ i.history

/-- The correction of the request was settled for the intent of a key: its record was written, or found. -/
def Settles (log : Log) (r : ReevaluationRequest) (key : String) (record : CorrectionRecord)
    (alreadyApplied : Bool) : Prop :=
  key = r.intentKey ∧ record.id = correctionId r.intentKey r.diff ∧
    if alreadyApplied then log.Found key record else log.Wrote key record

end Log

namespace Job

/-- What a job may ask for after what was logged: it keeps to its key, and writes what it makes of the intent
that it was shown last in place of just that version. -/
def MayAsk (j : Job) (log : Log) (c : Call) : Prop :=
  (∀ key, c.key? = some key → key = j.key) ∧
    ∀ p, c.proposal? = some p → ∃ base, log.shown = some base ∧ p.expected = base.version ∧
      j.perform base p.intent.updatedAt = some (p.intent, p.corrections)

def MayEnd : Job → Log → Outcome → Prop
  | .correction _ r, log, .corrected (.ok response) =>
    ∃ record, response.correctionId = record.id ∧ response.appliedAt = record.appliedAt ∧
      log.Settles r response.intentKey record response.alreadyApplied
  | _, _, _ => True

end Job

end IntentCorrection
