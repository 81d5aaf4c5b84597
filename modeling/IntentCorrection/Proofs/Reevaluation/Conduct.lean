import IntentCorrection.Proofs.Reevaluation.Conclusion
import IntentCorrection.Proofs.Reevaluation.Rules

namespace IntentCorrection

open Reevaluation Program

namespace Job

variable {j : Job} {log : Log} {config : Config} {r : ReevaluationRequest}

theorem mayAsk_of_quiet {c : Call} (hkey : c.key? = none) (hp : c.proposal? = none) : j.MayAsk log c :=
  ⟨by simp [hkey], by simp [hp]⟩

theorem mayAsk_get : j.MayAsk log (.get j.key) :=
  ⟨fun _ h ↦ (Option.some.inj h).symm, by simp [Call.proposal?]⟩

theorem mayAsk_lock {timeout : Duration} : j.MayAsk log (.lock j.key timeout) :=
  ⟨fun _ h ↦ (Option.some.inj h).symm, by simp [Call.proposal?]⟩

/-- The first thing that a job writes is its own making of what it was shown. -/
theorem mayAsk_swap {base next : Intent} {record : CorrectionRecord} (hs : log.shown = some base)
    (hp : j.perform base next.updatedAt = some (next, [record])) :
    j.MayAsk log (.swap j.key next record base.version) :=
  ⟨fun _ h ↦ (Option.some.inj h).symm, fun p h ↦ by
    cases h
    exact ⟨base, hs, rfl, hp⟩⟩

theorem proposal_replace {h : LockedIntent} {next : Intent} {records : List CorrectionRecord} {t : Ticket}
    (hh : h = ⟨t, h.intent, h.intent.version, h.intent.history.length, false⟩)
    (hhist : next.history = h.intent.history ++ records) :
    (Call.commit (h.replace next)).proposal? = some ⟨h.intent.version, next, records⟩ := by
  rw [hh]
  simp [LockedIntent.replace, Call.proposal?, hhist]

theorem mayAsk_commit {h : LockedIntent} {next : Intent} {records : List CorrectionRecord} {t : Ticket}
    (hs : log.shown = some h.intent)
    (hh : h = ⟨t, h.intent, h.intent.version, h.intent.history.length, false⟩)
    (hp : j.perform h.intent next.updatedAt = some (next, records)) :
    j.MayAsk log (.commit (h.replace next)) := by
  refine ⟨by simp [Call.key?], fun p hprop ↦ ⟨h.intent, hs, ?_⟩⟩
  rw [proposal_replace hh (perform_spec hp).2.2.1] at hprop
  cases hprop
  exact ⟨rfl, hp⟩

theorem performed_of_correct (config : Config) {i next : Intent} {now : Timestamp} {record : CorrectionRecord}
    (hkey : i.key = r.intentKey) (h : correct i r now = .ok (.applied next record)) :
    next.key = r.intentKey ∧ record.id = correctionId r.intentKey r.diff ∧
      (correction config r).perform i next.updatedAt = some (next, [record]) := by
  have hp : (correction config r).perform i now = some (next, [record]) := by
    simp only [perform, show i.correct r.diff r.source r.reason r.metadata now = _ from h]
  obtain ⟨hk, -, -, ht, -⟩ := perform_spec hp
  obtain ⟨-, hr, -⟩ := Intent.correct_applied h
  exact ⟨hk.trans hkey, by rw [hr, hkey], by rw [ht]; exact hp⟩

theorem found_of_correct {i : Intent} {now : Timestamp} {record : CorrectionRecord}
    (hkey : i.key = r.intentKey) (h : correct i r now = .ok (.alreadyApplied record)) :
    record.id = correctionId r.intentKey r.diff ∧ record ∈ i.history := by
  obtain ⟨hm, hid⟩ := History.mem_of_find? (Intent.correct_alreadyApplied h).2
  exact ⟨hid.trans (by rw [hkey]), hm⟩

/-- Nothing was written yet, and the handle is as the store gave it. -/
structure Opened (key : String) (h : LockedIntent) (log : Log) : Prop where
  writes : log.writes = []
  key : h.intent.key = key
  shown : log.shown = some h.intent
  fresh : ∃ t, h = ⟨t, h.intent, h.intent.version, h.intent.history.length, false⟩

/-- Nothing was written yet, and this is the intent that was read last. -/
structure Looked (key : String) (i : Intent) (log : Log) : Prop where
  writes : log.writes = []
  key : i.key = key
  shown : log.shown = some i

theorem opened_of_lock {h : LockedIntent} {key : String} {timeout : Duration} (hlog : log.writes = [])
    (hh : Exchange.Honest ⟨.lock key timeout, .ok h⟩) (now : Timestamp) :
    Opened key h (log ++ [⟨.lock key timeout, .ok h⟩] ++ [⟨.now, now⟩]) where
  writes := Log.writes_quiet (Log.writes_quiet hlog rfl) rfl
  key := hh.1
  shown := Log.shown_of_clock _ _ rfl
  fresh := hh.2

theorem looked_of_get {i : Intent} {key : String} (hlog : log.writes = []) (hi : Exchange.Honest ⟨.get key, .ok i⟩)
    (now : Timestamp) : Looked key i (log ++ [⟨.get key, .ok i⟩] ++ [⟨.now, now⟩]) where
  writes := Log.writes_quiet (Log.writes_quiet hlog rfl) rfl
  key := hi
  shown := Log.shown_of_clock _ _ rfl

theorem permits_mayAsk : Permits j.MayAsk where
  now _ := mayAsk_of_quiet rfl rfl
  emit _ _ := mayAsk_of_quiet rfl rfl

theorem quiet_pause {policy : BackoffPolicy} (log : Log) (n : Nat) (h : log.writes = []) :
    j.MayAsk log (.pause policy n) ∧ Log.writes (log ++ [⟨.pause policy n, ()⟩]) = [] :=
  ⟨mayAsk_of_quiet rfl rfl, Log.writes_quiet h rfl⟩

def Settling (r : ReevaluationRequest) (log : Log) : Except ReevaluationError Settled → Prop
  | .ok s => log.Corrects r s.intent s.record s.alreadyApplied
  | .error _ => log.writes = []

theorem lockRules_correction :
    LockRules Exchange.Honest (correction config r).MayAsk (fun log ↦ log.writes = []) (Opened r.intentKey)
      (Settling r) r.intentKey config.lockTimeout (judgeRequest r) where
  lock _ _ := mayAsk_lock
  missed _ _ h := Log.writes_quiet h rfl
  clock _ := mayAsk_of_quiet rfl rfl
  opened _ _ now h hh := opened_of_lock h hh now
  refused _ _ _ _ h _ := ⟨mayAsk_of_quiet rfl rfl, Log.writes_quiet h.writes rfl⟩
  kept log handle now settled h hjudge := by
    obtain ⟨record, rfl, hc⟩ := judgeRequest_keep hjudge
    obtain ⟨hid, hm⟩ := found_of_correct h.key hc
    refine ⟨mayAsk_of_quiet rfl rfl, fun _ ↦ Log.writes_quiet h.writes rfl, fun _ ↦ ?_⟩
    exact ⟨h.key, hid, hm, Log.writes_quiet h.writes rfl, Log.mem_of_shown (Log.shown_quiet h.shown rfl)⟩
  replaced log handle now next a h hjudge := by
    obtain ⟨record, rfl, hc⟩ := judgeRequest_replace hjudge
    obtain ⟨hk, hid, hp⟩ := performed_of_correct config h.key hc
    obtain ⟨t, hh⟩ := h.fresh
    have hhistory := (perform_spec hp).2.2.1
    refine ⟨mayAsk_commit h.shown hh hp, fun _ ↦ Log.writes_quiet h.writes rfl, ?_⟩
    intro stored hstored
    cases hstored
    have hmem : record ∈ next.history := by simp [hhistory]
    have hlanded : Exchange.landed? ⟨.commit (handle.replace next), .ok (handle.replace next).intent⟩ =
        some ⟨handle.intent.version, next, [record]⟩ := proposal_replace hh hhistory
    exact ⟨hk, hid, hmem, handle.intent.version, Log.writes_landed h.writes hlanded⟩

theorem retries_meet (h : log.writes = []) :
    (retryOnDeadlock config.backoff config.deadlockRetries "reevaluate" fun _ ↦ applyLocked config r).Meets
      (correction config r).MayAsk (Settling r) log := by
  apply retryOnDeadlock_obeys quiet_pause _ _ h
  · intro log e hquiet _
    exact ⟨hquiet, hquiet, hquiet⟩
  · intro _ log hquiet
    rw [applyLocked_eq]
    exact lockRules_correction.obeys hquiet

theorem settle_meets {i : Intent} {record : CorrectionRecord} {alreadyApplied : Bool} {attempts : Nat}
    {severity : Severity} (h : log.Corrects r i record alreadyApplied) :
    (settle i record r alreadyApplied attempts severity).Meets (correction config r).MayAsk
      (fun log result ↦ (correction config r).Concludes log (.corrected result)) log :=
  settle_obeys permits_mayAsk fun _ _ ↦ ⟨i, record, attempts, false, rfl, (h.concat rfl).concat rfl⟩

theorem fallbackRules_conclude {attempts : Nat} {correlationId : Option Uuid} :
    FallbackRules Exchange.Honest (correction config r).MayAsk (Settling r) (fun _ log ↦ log.writes = [])
      (fun log result ↦ (correction config r).Concludes log (.corrected result)) r attempts correlationId where
  permits := permits_mayAsk
  settled _ s _ _ h := ⟨s.intent, s.record, attempts, true, rfl, (h.concat rfl).concat rfl⟩
  passed _ _ h _ := h
  known _ _ h _ := h
  read _ _ _ h _ _ := ⟨mayAsk_get, Log.writes_quiet h rfl⟩
  failed _ _ _ _ _ h := Log.writes_quiet (Log.writes_quiet h rfl) rfl

/-- An attempt that loses its swap leaves nothing behind but a longer log, and after one that wins there is no further
attempt. -/
theorem attemptRules_conclude :
    AttemptRules Exchange.Honest (correction config r).MayAsk (fun _ _ _ log ↦ log.writes = [])
      (fun _ _ i log ↦ Looked r.intentKey i log) (fun _ _ _ log ↦ log.writes = [])
      (fun log result ↦ (correction config r).Concludes log (.corrected result)) config r where
  permits := permits_mayAsk
  read _ _ _ _ _ := mayAsk_get
  missing _ _ _ _ _ h := Log.writes_quiet h rfl
  shown _ _ _ _ _ now h hi := looked_of_get h hi now
  refused _ _ _ _ _ _ h _ := h.writes
  found _ _ _ i _ record h hc := by
    obtain ⟨hid, hm⟩ := found_of_correct h.key hc
    exact settle_meets ⟨h.key, hid, hm, h.writes, Log.mem_of_shown h.shown⟩
  swap _ _ _ i _ next record h hc := by
    obtain ⟨-, -, hp⟩ := performed_of_correct config h.key hc
    exact mayAsk_swap h.shown hp
  failed _ _ _ _ _ _ _ _ h _ := Log.writes_quiet h.writes rfl
  won _ _ _ i _ next record h hc := by
    obtain ⟨hk, hid, hp⟩ := performed_of_correct config h.key hc
    have hmem : record ∈ next.history := by simp [(perform_spec hp).2.2.1]
    exact settle_meets ⟨hk, hid, hmem, i.version, Log.writes_landed h.writes rfl⟩
  lose _ _ _ _ _ _ _ h _ := Log.writes_quiet h.writes rfl
  again _ _ _ h := h
  paused log _ made _ h := quiet_pause log made h
  undrawn _ _ _ _ h _ := h
  fallback _ _ _ h _ := fallbackRules_conclude.obeys (retries_meet h)
  overflow _ _ _ h _ := h

variable {key : String} {requested : Status}

def Moving (key : String) (requested : Status) (log : Log) : Except ReevaluationError (Intent × Status) → Prop
  | .ok (i, previous) => log.Moves key requested i previous
  | .error _ => log.writes = []

theorem lockRules_statusChange :
    LockRules Exchange.Honest (statusChange config key requested).MayAsk (fun log ↦ log.writes = []) (Opened key)
      (Moving key requested) key config.lockTimeout (judgeStatus requested) where
  lock _ _ := mayAsk_lock
  missed _ _ h := Log.writes_quiet h rfl
  clock _ := mayAsk_of_quiet rfl rfl
  opened _ _ now h hh := opened_of_lock h hh now
  refused _ _ _ _ h _ := ⟨mayAsk_of_quiet rfl rfl, Log.writes_quiet h.writes rfl⟩
  kept log handle now a h hjudge := by
    obtain ⟨rfl, hsame⟩ := judgeStatus_keep hjudge
    refine ⟨mayAsk_of_quiet rfl rfl, fun _ ↦ Log.writes_quiet h.writes rfl, fun _ ↦ ?_⟩
    obtain ⟨x, hx, hshown⟩ := Log.mem_of_shown (Log.shown_quiet h.shown (x := ⟨.abort handle, .ok ()⟩) rfl)
    refine ⟨h.key, hsame, x, hx, handle.intent, hshown, rfl, ?_⟩
    rw [if_pos hsame]
    exact ⟨rfl, Log.writes_quiet h.writes rfl⟩
  replaced log handle now next a h hjudge := by
    obtain ⟨rfl, hne, ht⟩ := judgeStatus_replace hjudge
    have hp : (statusChange config key requested).perform handle.intent now = some (next, []) := by
      simp only [perform, ht, if_neg hne]
    obtain ⟨hk, -, hhistory, htime, -⟩ := perform_spec hp
    obtain ⟨t, hh⟩ := h.fresh
    refine ⟨mayAsk_commit h.shown hh (by rw [htime]; exact hp), fun _ ↦ Log.writes_quiet h.writes rfl, ?_⟩
    intro stored hstored
    cases hstored
    obtain ⟨-, ⟨he, -⟩ | ⟨-, hnext⟩⟩ := Intent.transition_ok ht
    · exact absurd he hne
    · have hstatus : next.status = requested := by rw [hnext]
      have hlanded : Exchange.landed? ⟨.commit (handle.replace next), .ok (handle.replace next).intent⟩ =
          some ⟨handle.intent.version, next, []⟩ := proposal_replace hh hhistory
      obtain ⟨x, hx, hshown⟩ := Log.mem_of_shown (Log.shown_quiet h.shown
        (x := ⟨.commit (handle.replace next), .ok (handle.replace next).intent⟩) rfl)
      refine ⟨hk.trans h.key, hstatus, x, hx, handle.intent, hshown, rfl, ?_⟩
      rw [if_neg hne]
      exact Log.writes_landed h.writes hlanded

theorem updateStatus_meets :
    (updateStatus config key requested).Meets (statusChange config key requested).MayAsk
      (fun log result ↦ (statusChange config key requested).Concludes log (.statusChanged result)) [] := by
  have hretries : (retryOnDeadlock config.backoff config.deadlockRetries "update_status"
      fun _ ↦ transitionLocked config key requested).Meets (statusChange config key requested).MayAsk
        (Moving key requested) [] := by
    apply retryOnDeadlock_obeys quiet_pause _ _ rfl
    · intro log e hquiet _
      exact ⟨hquiet, hquiet, hquiet⟩
    · intro _ log hquiet
      rw [transitionLocked_eq]
      exact lockRules_statusChange.obeys hquiet
  apply updateStatus_obeys permits_mayAsk hretries
  · intro log e h
    exact h
  · intro log i previous h _
    exact ⟨previous, h⟩
  · intro log i previous now answer h _
    exact ⟨previous, (h.concat rfl).concat rfl⟩

/-- Every job keeps to what it may ask for, and its result is true. -/
theorem program_concludes (j : Job) : j.program.Meets j.MayAsk j.Concludes [] := by
  cases j with
  | correction config r =>
    apply Obeys.bind
    unfold reevaluate
    split
    · rfl
    · exact attemptRules_conclude.obeys rfl
  | statusChange config key requested => exact Obeys.bind updateStatus_meets

theorem program_meets (j : Job) : j.program.Meets j.MayAsk j.MayEnd [] :=
  j.program_concludes.mono fun _ _ ↦ Concludes.mayEnd

end Job

end IntentCorrection
