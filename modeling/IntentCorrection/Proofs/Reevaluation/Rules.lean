import IntentCorrection.Proofs.Intent.Steps
import IntentCorrection.Proofs.Reevaluation.Exchange
import IntentCorrection.Reevaluation.Protocol

namespace IntentCorrection

open Program

inductive Verdict (α : Type) where
  | keep (a : α)
  | replace (next : Intent) (a : Intent → α)

theorem ReevaluationError.passed_ofCorrection (e : CorrectionError) :
    ((ofCorrection e).isClientError || (ofCorrection e).isPanic) = true := by
  cases e <;> rfl

namespace Reevaluation

/-- The form that the locked attempts of corrections and of status changes have in common. -/
def underLock {α : Type} (key : String) (timeout : Duration)
    (judge : Intent → Timestamp → Except CorrectionError (Verdict α)) : Program (Except ReevaluationError α) := do
  match ← .ask (.lock key timeout) with
  | .error e => return .error (.ofStorage e)
  | .ok handle =>
    let now ← .ask .now
    match judge handle.intent now with
    | .error e =>
      .ask (.drop handle)
      return .error (.ofCorrection e)
    | .ok (.keep a) =>
      match ← .ask (.abort handle) with
      | .error e => return .error (.ofStorage e)
      | .ok _ => return .ok a
    | .ok (.replace next a) =>
      match ← .ask (.commit (handle.replace next)) with
      | .error e => return .error (.ofStorage e)
      | .ok stored => return .ok (a stored)

def judgeRequest (r : ReevaluationRequest) (i : Intent) (now : Timestamp) :
    Except CorrectionError (Verdict Settled) :=
  match correct i r now with
  | .error e => .error e
  | .ok (.alreadyApplied record) => .ok (.keep ⟨i, record, true⟩)
  | .ok (.applied next record) => .ok (.replace next fun stored ↦ ⟨stored, record, false⟩)

def judgeStatus (requested : Status) (i : Intent) (now : Timestamp) :
    Except CorrectionError (Verdict (Intent × Status)) :=
  match i.transition requested now with
  | .error e => .error e
  | .ok next =>
    if next.version = i.version then .ok (.keep (next, i.status))
    else .ok (.replace next fun stored ↦ (stored, i.status))

variable {α : Type} {config : Config} {r : ReevaluationRequest} {key : String} {requested : Status}
  {i next : Intent} {now : Timestamp} {e : CorrectionError}

theorem applyLocked_eq :
    applyLocked config r = underLock r.intentKey config.lockTimeout (judgeRequest r) := by
  refine congrArg (Program.call _) (funext fun a ↦ ?_)
  cases a with
  | error e => rfl
  | ok handle =>
    refine congrArg (Program.call _) (funext fun now ↦ ?_)
    simp only [Program.bind, judgeRequest]
    cases correct handle.intent r now with
    | error e => rfl
    | ok outcome => cases outcome <;> rfl

theorem transitionLocked_eq :
    transitionLocked config key requested = underLock key config.lockTimeout (judgeStatus requested) := by
  refine congrArg (Program.call _) (funext fun a ↦ ?_)
  cases a with
  | error e => rfl
  | ok handle =>
    refine congrArg (Program.call _) (funext fun now ↦ ?_)
    simp only [Program.bind, judgeStatus]
    cases handle.intent.transition requested now with
    | error e => rfl
    | ok next =>
      dsimp only
      split <;> rfl

theorem judgeRequest_error (h : judgeRequest r i now = .error e) : correct i r now = .error e := by
  unfold judgeRequest at h
  split at h
  · rename_i hc
    cases h
    exact hc
  · cases h
  · cases h

theorem judgeRequest_keep {settled : Settled} (h : judgeRequest r i now = .ok (.keep settled)) :
    ∃ record, settled = ⟨i, record, true⟩ ∧ correct i r now = .ok (.alreadyApplied record) := by
  unfold judgeRequest at h
  split at h
  · cases h
  · rename_i record hc
    cases h
    exact ⟨record, rfl, hc⟩
  · cases h

theorem judgeRequest_replace {a : Intent → Settled} (h : judgeRequest r i now = .ok (.replace next a)) :
    ∃ record, a = (fun stored ↦ ⟨stored, record, false⟩) ∧ correct i r now = .ok (.applied next record) := by
  unfold judgeRequest at h
  split at h
  · cases h
  · cases h
  · rename_i next' record hc
    cases h
    exact ⟨record, rfl, hc⟩

theorem judgeStatus_error (h : judgeStatus requested i now = .error e) : i.transition requested now = .error e := by
  unfold judgeStatus at h
  split at h
  · rename_i ht
    cases h
    exact ht
  · split at h <;> cases h

theorem judgeStatus_keep {a : Intent × Status} (h : judgeStatus requested i now = .ok (.keep a)) :
    a = (i, i.status) ∧ i.status = requested := by
  unfold judgeStatus at h
  split at h
  · cases h
  · rename_i next ht
    split at h
    · rename_i hversion
      cases h
      obtain ⟨-, ⟨hsame, rfl⟩ | ⟨-, rfl⟩⟩ := Intent.transition_ok ht
      · exact ⟨rfl, hsame⟩
      · exact absurd hversion (Nat.succ_ne_self _)
    · cases h

theorem judgeStatus_replace {a : Intent → Intent × Status} (h : judgeStatus requested i now = .ok (.replace next a)) :
    a = (fun stored ↦ (stored, i.status)) ∧ i.status ≠ requested ∧ i.transition requested now = .ok next := by
  unfold judgeStatus at h
  split at h
  · cases h
  · rename_i next' ht
    split at h
    · cases h
    · rename_i hversion
      cases h
      obtain ⟨-, ⟨-, rfl⟩ | ⟨hne, -⟩⟩ := Intent.transition_ok ht
      · exact absurd rfl hversion
      · exact ⟨rfl, hne, ht⟩

section

variable {trusts : Exchange → Prop} {asks : Log → Call → Prop}

/-- What makes an attempt under a lock keep to a contract, exit by exit. The handle is in hand while `during` holds. -/
structure LockRules (trusts : Exchange → Prop) (asks : Log → Call → Prop) (before : Log → Prop)
    (during : LockedIntent → Log → Prop) (ends : Log → Except ReevaluationError α → Prop) (key : String)
    (timeout : Duration) (judge : Intent → Timestamp → Except CorrectionError (Verdict α)) : Prop where
  lock : ∀ log, before log → asks log (.lock key timeout)
  missed : ∀ log e, before log → ends (log ++ [⟨.lock key timeout, .error e⟩]) (.error (.ofStorage e))
  clock : ∀ log, asks log .now
  opened : ∀ log h now, before log → trusts ⟨.lock key timeout, .ok h⟩ →
    during h (log ++ [⟨.lock key timeout, .ok h⟩] ++ [⟨.now, now⟩])
  refused : ∀ log h now e, during h log → judge h.intent now = .error e →
    asks log (.drop h) ∧ ends (log ++ [⟨.drop h, ()⟩]) (.error (.ofCorrection e))
  kept : ∀ log h now a, during h log → judge h.intent now = .ok (.keep a) →
    asks log (.abort h) ∧ (∀ e, ends (log ++ [⟨.abort h, .error e⟩]) (.error (.ofStorage e))) ∧
      ∀ u, ends (log ++ [⟨.abort h, .ok u⟩]) (.ok a)
  replaced : ∀ log h now next a, during h log → judge h.intent now = .ok (.replace next a) →
    asks log (.commit (h.replace next)) ∧
      (∀ e, ends (log ++ [⟨.commit (h.replace next), .error e⟩]) (.error (.ofStorage e))) ∧
      ∀ stored, trusts ⟨.commit (h.replace next), .ok stored⟩ →
        ends (log ++ [⟨.commit (h.replace next), .ok stored⟩]) (.ok (a stored))

theorem LockRules.obeys {before : Log → Prop} {during : LockedIntent → Log → Prop}
    {ends : Log → Except ReevaluationError α → Prop} {timeout : Duration}
    {judge : Intent → Timestamp → Except CorrectionError (Verdict α)}
    (rules : LockRules trusts asks before during ends key timeout judge) {log : Log} (h : before log) :
    (underLock key timeout judge).Obeys trusts asks ends log := by
  apply Obeys.ask (rules.lock log h)
  intro a ha
  cases a with
  | error e => exact rules.missed log e h
  | ok handle =>
    apply Obeys.ask (rules.clock _)
    intro now _
    have hopened := rules.opened log handle now h ha
    cases hjudge : judge handle.intent now with
    | error e =>
      obtain ⟨hask, hend⟩ := rules.refused _ handle now e hopened hjudge
      exact .ask hask fun _ _ ↦ hend
    | ok verdict =>
      cases verdict with
      | keep a =>
        obtain ⟨hask, hfail, hend⟩ := rules.kept _ handle now a hopened hjudge
        apply Obeys.ask hask
        intro x _
        cases x with
        | error e => exact hfail e
        | ok u => exact hend u
      | replace next a =>
        obtain ⟨hask, hfail, hend⟩ := rules.replaced _ handle now next a hopened hjudge
        apply Obeys.ask hask
        intro x hx
        cases x with
        | error e => exact hfail e
        | ok stored => exact hend stored hx

structure Permits (asks : Log → Call → Prop) : Prop where
  now : ∀ log, asks log .now
  emit : ∀ log e, asks log (.emit e)

theorem Permits.report {ends : Log → α → Prop} (hasks : Permits asks) {event : Timestamp → AuditEvent} {a : α}
    {log : Log} (h : ∀ now answer, ends (log ++ [⟨.now, now⟩] ++ [⟨.emit (event now), answer⟩]) a) :
    (do
      let now ← .ask .now
      let _ ← Program.ask (.emit (event now))
      return a : Program α).Obeys trusts asks ends log :=
  .ask (hasks.now _) fun now _ ↦ .ask (hasks.emit _ _) fun answer _ ↦ h now answer

variable {ends : Log → Except ReevaluationError ReevaluationResponse → Prop} {attempts : Nat}
  {correlationId : Option Uuid} {log : Log}

theorem settle_obeys (hasks : Permits asks) {record : CorrectionRecord} {alreadyApplied : Bool} {severity : Severity}
    (h : ∀ now answer, ends (log ++ [⟨.now, now⟩] ++ [⟨.emit (settledEvent i r
      (.of i record alreadyApplied attempts false) severity now), answer⟩])
      (.ok (.of i record alreadyApplied attempts false))) :
    (settle i record r alreadyApplied attempts severity).Obeys trusts asks ends log := hasks.report h

def starvedEvent (settled : Settled) (r : ReevaluationRequest) (attempts : Nat) (now : Timestamp) : AuditEvent :=
  (settledEvent settled.intent r
      (.of settled.intent settled.record settled.alreadyApplied attempts true) .warning now).withDetail
    "fallback_strategy" (.string "pessimistic")

/-- What makes the locked path keep to a contract: `tried` holds after its retries, and `looked` once the correlation id
for the event of their failure is known. -/
structure FallbackRules (trusts : Exchange → Prop) (asks : Log → Call → Prop)
    (tried : Log → Except ReevaluationError Settled → Prop) (looked : ReevaluationError → Log → Prop)
    (ends : Log → Except ReevaluationError ReevaluationResponse → Prop) (r : ReevaluationRequest) (attempts : Nat)
    (correlationId : Option Uuid) : Prop where
  permits : Permits asks
  settled : ∀ log settled now answer, tried log (.ok settled) →
    ends (log ++ [⟨.now, now⟩] ++ [⟨.emit (starvedEvent settled r attempts now), answer⟩])
      (.ok (.of settled.intent settled.record settled.alreadyApplied attempts true))
  passed : ∀ log e, tried log (.error e) → (e.isClientError || e.isPanic) = true → ends log (.error e)
  known : ∀ log e, tried log (.error e) → (e.isClientError || e.isPanic) = false → looked e log
  read : ∀ log e answer, tried log (.error e) → (e.isClientError || e.isPanic) = false → correlationId = none →
    asks log (.get r.intentKey) ∧ looked e (log ++ [⟨.get r.intentKey, answer⟩])
  failed : ∀ log e id now answer, looked e log →
    ends (log ++ [⟨.now, now⟩] ++ [⟨.emit (failedEvent r id attempts e now), answer⟩])
      (.error (.concurrencyConflict r.intentKey attempts true e.message))

theorem FallbackRules.obeys {tried : Log → Except ReevaluationError Settled → Prop}
    {looked : ReevaluationError → Log → Prop}
    (rules : FallbackRules trusts asks tried looked ends r attempts correlationId)
    (hretries : (retryOnDeadlock config.backoff config.deadlockRetries "reevaluate"
      fun _ ↦ applyLocked config r).Obeys trusts asks tried log) :
    (fallback config r attempts correlationId).Obeys trusts asks ends log := by
  apply Obeys.bind
  apply hretries.mono
  intro log result hresult
  cases result with
  | ok settled => exact rules.permits.report fun now answer ↦ rules.settled log settled now answer hresult
  | error e =>
    dsimp only
    split
    · rename_i hpassed
      exact rules.passed log e hresult hpassed
    · rename_i hpassed
      have hfailed := Bool.eq_false_iff.2 hpassed
      have hreport : ∀ {log : Log} (id : Option Uuid), looked e log →
          (do
            let now ← .ask .now
            let _ ← Program.ask (.emit (failedEvent r id attempts e now))
            return .error (.concurrencyConflict r.intentKey attempts true e.message) :
              Program (Except ReevaluationError ReevaluationResponse)).Obeys trusts asks ends log :=
        fun id hlooked ↦ rules.permits.report fun now answer ↦ rules.failed _ e id now answer hlooked
      apply Obeys.bind
      cases correlationId with
      | some id => exact hreport _ (rules.known log e hresult hfailed)
      | none =>
        apply Obeys.ask (rules.read log e (.error (.notFound "")) hresult hfailed rfl).1
        intro answer _
        have hlooked := (rules.read log e answer hresult hfailed rfl).2
        cases answer with
        | error e' => exact hreport _ hlooked
        | ok i => exact hreport _ hlooked

/-- What makes the optimistic attempts keep to a contract: `before` holds at the start of each, with the attempts that
are left after it, `during` once its intent is read, and `lost` when its swap is lost. -/
structure AttemptRules (trusts : Exchange → Prop) (asks : Log → Call → Prop)
    (before : Nat → Nat → Option Uuid → Log → Prop) (during lost : Nat → Nat → Intent → Log → Prop)
    (ends : Log → Except ReevaluationError ReevaluationResponse → Prop) (config : Config) (r : ReevaluationRequest) :
    Prop where
  permits : Permits asks
  read : ∀ log left made id, before (left + 1) made id log → asks log (.get r.intentKey)
  missing : ∀ log left made id e, before (left + 1) made id log →
    ends (log ++ [⟨.get r.intentKey, .error e⟩]) (.error (.ofStorage e))
  shown : ∀ log left made id i now, before (left + 1) made id log → trusts ⟨.get r.intentKey, .ok i⟩ →
    during left made i (log ++ [⟨.get r.intentKey, .ok i⟩] ++ [⟨.now, now⟩])
  refused : ∀ log left made i now e, during left made i log → correct i r now = .error e →
    ends log (.error (.ofCorrection e))
  found : ∀ log left made i now record, during left made i log → correct i r now = .ok (.alreadyApplied record) →
    (settle i record r true (made + 1) .debug).Obeys trusts asks ends log
  swap : ∀ log left made i now next record, during left made i log → correct i r now = .ok (.applied next record) →
    asks log (.swap r.intentKey next record i.version)
  failed : ∀ log left made i now next record e, during left made i log →
    correct i r now = .ok (.applied next record) →
    ends (log ++ [⟨.swap r.intentKey next record i.version, .error e⟩]) (.error (.ofStorage e))
  won : ∀ log left made i now next record, during left made i log → correct i r now = .ok (.applied next record) →
    (settle next record r false (made + 1) .info).Obeys trusts asks ends
      (log ++ [⟨.swap r.intentKey next record i.version, .ok true⟩])
  lose : ∀ log left made i now next record, during left made i log → correct i r now = .ok (.applied next record) →
    lost left made i (log ++ [⟨.swap r.intentKey next record i.version, .ok false⟩])
  again : ∀ log made i, lost 0 made i log → before 0 (made + 1) (some i.correlationId) log
  paused : ∀ log left made i, lost (left + 1) made i log → asks log (.pause config.backoff made) ∧
    before (left + 1) (made + 1) (some i.correlationId) (log ++ [⟨.pause config.backoff made, ()⟩])
  undrawn : ∀ log left made i, lost (left + 1) made i log → ¬config.backoff.Drawable →
    ends log (.error (.panicked .draw))
  fallback : ∀ log made id, before 0 made id log → made + 1 < Word.size32 →
    (fallback config r (made + 1) id).Obeys trusts asks ends log
  overflow : ∀ log made id, before 0 made id log → Word.size32 ≤ made + 1 → ends log (.error (.panicked .attempts))

theorem AttemptRules.obeys {before : Nat → Nat → Option Uuid → Log → Prop}
    {during lost : Nat → Nat → Intent → Log → Prop} (rules : AttemptRules trusts asks before during lost ends config r)
    {left made : Nat} (h : before left made correlationId log) :
    (attemptFrom config r left made correlationId).Obeys trusts asks ends log := by
  -- By induction on the attempts that are left: one either ends it all or leads to the next.
  induction left generalizing made correlationId log with
  | zero =>
    unfold attemptFrom
    split
    · rename_i hroom
      exact rules.fallback log made _ h hroom
    · rename_i hroom
      exact rules.overflow log made _ h (Nat.le_of_not_lt hroom)
  | succ left ih =>
    apply Obeys.ask (rules.read log left made _ h)
    intro a ha
    cases a with
    | error e => exact rules.missing log left made _ e h
    | ok i =>
      apply Obeys.ask (rules.permits.now _)
      intro now _
      have hshown := rules.shown log left made _ i now h ha
      cases hc : correct i r now with
      | error e => exact rules.refused _ left made i now e hshown hc
      | ok outcome =>
        cases outcome with
        | alreadyApplied record => exact rules.found _ left made i now record hshown hc
        | applied next record =>
          apply Obeys.ask (rules.swap _ left made i now next record hshown hc)
          intro a _
          cases a with
          | error e => exact rules.failed _ left made i now next record e hshown hc
          | ok won =>
            cases won with
            | true => exact rules.won _ left made i now next record hshown hc
            | false =>
              have hlost := rules.lose _ left made i now next record hshown hc
              apply Obeys.afterPause
              · rintro rfl
                exact ih (rules.again _ made i hlost)
              · intro hleft _
                obtain ⟨left, rfl⟩ := Nat.exists_eq_succ_of_ne_zero hleft
                obtain ⟨hask, hbefore⟩ := rules.paused _ left made i hlost
                exact ⟨hask, ih hbefore⟩
              · intro hleft hdrawable
                obtain ⟨left, rfl⟩ := Nat.exists_eq_succ_of_ne_zero hleft
                exact rules.undrawn _ left made i hlost hdrawable

theorem updateStatus_obeys {tried : Log → Except ReevaluationError (Intent × Status) → Prop}
    {ends : Log → Except ReevaluationError Intent → Prop} (hasks : Permits asks)
    (hretries : (retryOnDeadlock config.backoff config.deadlockRetries "update_status"
      fun _ ↦ transitionLocked config key requested).Obeys trusts asks tried log)
    (hfailed : ∀ log e, tried log (.error e) → ends log (.error e))
    (hkept : ∀ log i previous, tried log (.ok (i, previous)) → i.status = previous → ends log (.ok i))
    (hmoved : ∀ log i previous now answer, tried log (.ok (i, previous)) → i.status ≠ previous →
      ends (log ++ [⟨.now, now⟩] ++ [⟨.emit (statusEvent key i previous now), answer⟩]) (.ok i)) :
    (updateStatus config key requested).Obeys trusts asks ends log := by
  apply Obeys.bind
  apply hretries.mono
  intro log result hresult
  cases result with
  | error e => exact hfailed log e hresult
  | ok changed =>
    obtain ⟨i, previous⟩ := changed
    dsimp only
    split
    · rename_i hsame
      exact hkept log i previous hresult hsame
    · rename_i hchanged
      exact hasks.report fun now answer ↦ hmoved log i previous now answer hresult hchanged

end

end Reevaluation

end IntentCorrection
