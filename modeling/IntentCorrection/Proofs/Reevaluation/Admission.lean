import IntentCorrection.Proofs.Diff.Collision
import IntentCorrection.Proofs.Diff.Offences
import IntentCorrection.Proofs.Reevaluation.Endings

namespace IntentCorrection

namespace Diff

variable {m changes : ValueMap} {d : Diff} {e : CorrectionError}

theorem entriesFault?_eq_none :
    entriesFault? m = none ↔ ∀ x ∈ m, keyFault? x.1 = none ∧ valueFault? x.1 x.2 = none := by
  induction m with
  | nil => simp [entriesFault?]
  | cons x m ih => simp [entriesFault?, ih, Option.or_eq_none_iff]

theorem fault_of_validateMap (h : validateMap m = .error e) : ∃ fault, e = .invalidDiff fault := by
  unfold validateMap at h
  split at h
  · cases h
  · rename_i fault hfault
    cases h
    exact ⟨fault, rfl⟩

theorem fault_of_payload (h : d.payload = .error e) : ∃ fault, e = .invalidDiff fault := by
  unfold payload at h
  split at h
  · cases h
  · cases h
  · cases h
  · cases h
    exact ⟨_, rfl⟩

/-- The payload was looked through with the diff. -/
theorem validateMap_payload (hd : d.validate = .ok ()) (hchanges : d.payload = .ok changes) :
    validateMap changes = .ok () := by
  unfold payload at hchanges
  split at hchanges
  · cases hchanges
    rfl
  · cases hchanges
    rfl
  · rename_i m hget
    cases hchanges
    have hentry := entriesFault?_eq_none.1 (validateMap_eq_ok.1 hd) _ (Entries.mem_of_get? hget)
    simp only [valueFault?] at hentry
    exact validateMap_eq_ok.2 hentry.2
  · cases hchanges

theorem apply_error {target : ValueMap} (h : apply target changes = .error e) :
    validateMap changes = .error e ∨ ∃ key segment found, e = .collision key segment found := by
  unfold apply at h
  cases hv : validateMap changes with
  | error e' =>
    rw [hv] at h
    cases h
    exact .inl rfl
  | ok u =>
    rw [hv] at h
    obtain ⟨_, entry, _, _, segment, found, -, -, -, he⟩ := error_of_applyEntries h
    exact .inr ⟨entry.1, segment, found, he⟩

end Diff

/-- A correction fails for the status of the intent, for the diff, because something is in the way of a path, or for
want of another version. -/
theorem Intent.correct_error {i : Intent} {diff : Diff} {source : Actor} {reason : String} {metadata : Option ValueMap}
    {now : Timestamp} {e : CorrectionError} (h : i.correct diff source reason metadata now = .error e) :
    e = .terminal i.status ∨ diff.payload = .error e ∨
      (∃ changes, diff.payload = .ok changes ∧ Diff.apply i.payload changes = .error e) ∨
      e = .panicked .version ∧ ¬i.HasRoom := by
  unfold correct at h
  split at h
  · cases h
    exact .inl rfl
  · split at h
    · rename_i e' hpayload
      cases h
      exact .inr (.inl hpayload)
    · rename_i changes hchanges
      dsimp only at h
      split at h
      · cases h
      · split at h
        · rename_i e' happly
          cases h
          exact .inr (.inr (.inl ⟨changes, hchanges, happly⟩))
        · split at h
          · cases h
          · rename_i hroom
            cases h
            exact .inr (.inr (.inr ⟨rfl, hroom⟩))

def ReevaluationError.isRefusal : ReevaluationError → Bool
  | .unauthorized _ | .correction (.invalidReason ..) | .correction (.invalidDiff _) => true
  | _ => false

namespace Reevaluation

open Program

variable {config : Config} {r : ReevaluationRequest} {e : ReevaluationError}

/-- The first ground on which a request is refused: its source, its reason, its diff, the payload of its diff. -/
inductive Refusal (config : Config) (r : ReevaluationRequest) : ReevaluationError → Prop
  | source : config.isAuthorized r.source = false → Refusal config r (.unauthorized r.source)
  | reason : config.isAuthorized r.source = true → ¬(1 ≤ r.reason.length ∧ r.reason.length ≤ 1000) →
      Refusal config r (.correction (.invalidReason r.reason.length 1000))
  | diff {e : CorrectionError} : config.isAuthorized r.source = true → 1 ≤ r.reason.length ∧ r.reason.length ≤ 1000 →
      r.diff.validate = .error e → Refusal config r (.correction e)
  | payload {e : CorrectionError} : config.isAuthorized r.source = true →
      1 ≤ r.reason.length ∧ r.reason.length ≤ 1000 → r.diff.validate = .ok () → r.diff.payload = .error e →
      Refusal config r (.correction e)

structure Admissible (config : Config) (r : ReevaluationRequest) : Prop where
  source : config.isAuthorized r.source = true
  reason : 1 ≤ r.reason.length ∧ r.reason.length ≤ 1000
  diff : r.diff.validate = .ok ()
  payload : ∃ changes, r.diff.payload = .ok changes

theorem validateReason_eq (reason : String) :
    validateReason reason =
      if 1 ≤ reason.length ∧ reason.length ≤ 1000 then .ok () else .error (.invalidReason reason.length 1000) := by
  unfold validateReason maxReasonLength
  split <;> split <;> first | rfl | omega

theorem Refusal.checkRequest_eq (h : Refusal config r e) : checkRequest config r = .error e := by
  unfold checkRequest
  cases h with
  | source hsource => simp [hsource]
  | reason hsource hreason => simp [hsource, validateReason_eq, hreason]
  | diff hsource hreason hdiff => simp [hsource, validateReason_eq, hreason, hdiff]
  | payload hsource hreason hdiff hpayload => simp [hsource, validateReason_eq, hreason, hdiff, hpayload]

theorem Admissible.checkRequest_eq (h : Admissible config r) : checkRequest config r = .ok () := by
  obtain ⟨hsource, hreason, hdiff, changes, hpayload⟩ := h
  simp [checkRequest, hsource, validateReason_eq, hreason, hdiff, hpayload]

theorem admissible_or_refusal (config : Config) (r : ReevaluationRequest) :
    Admissible config r ∨ ∃ e, Refusal config r e := by
  cases hsource : config.isAuthorized r.source with
  | false => exact .inr ⟨_, .source hsource⟩
  | true =>
    by_cases hreason : 1 ≤ r.reason.length ∧ r.reason.length ≤ 1000
    · cases hdiff : r.diff.validate with
      | error e => exact .inr ⟨_, .diff hsource hreason hdiff⟩
      | ok _ =>
        cases hpayload : r.diff.payload with
        | error e => exact .inr ⟨_, .payload hsource hreason hdiff hpayload⟩
        | ok changes => exact .inl ⟨hsource, hreason, hdiff, changes, hpayload⟩
    · exact .inr ⟨_, .reason hsource hreason⟩

theorem Refusal.reevaluate_eq (h : Refusal config r e) : reevaluate config r = .done (.error e) :=
  reevaluate_of_refused h.checkRequest_eq

/-- What was checked at the door is not found to be at fault later. -/
theorem Ending.not_isRefusal {log : Log} (h : Ending r log (.error e)) (hadmissible : Admissible config r) :
    e.isRefusal = false := by
  cases h with
  | conflict hevents halarms => rfl
  | panicked hquiet => rfl
  | @storage e hquiet => cases e <;> rfl
  | refused hquiet hc =>
    obtain ⟨-, -, hdiff, changes, hpayload⟩ := hadmissible
    rcases Intent.correct_error hc with rfl | herror | ⟨changes', hchanges, happly⟩ | ⟨rfl, -⟩
    · rfl
    · rw [hpayload] at herror
      cases herror
    · rcases Diff.apply_error happly with hinvalid | ⟨key, segment, found, rfl⟩
      · rw [Diff.validateMap_payload hdiff hchanges] at hinvalid
        cases hinvalid
      · rfl
    · rfl

theorem Admissible.reevaluate_ends (h : Admissible config r) :
    (reevaluate config r).Ends (fun _ result ↦ ∀ e, result = .error e → e.isRefusal = false) [] := by
  refine (reevaluate_ending h.checkRequest_eq).mono fun log result hend e he ↦ ?_
  subst he
  exact hend.not_isRefusal h

end Reevaluation

end IntentCorrection
