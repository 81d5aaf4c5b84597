import IntentCorrection.Proofs.Reevaluation.Rules

namespace IntentCorrection

/-- Takes an event or refuses it, and may look at those that it was sent before. -/
abbrev Sink := List AuditEvent → AuditEvent → Except AuditError Unit

namespace Sink

def accepting : Sink := fun _ _ ↦ .ok ()

def broken : Sink := fun _ _ ↦ .error .unavailable

end Sink

namespace Log

def events (log : Log) : List AuditEvent := log.filterMap fun x ↦ x.call.event?

theorem events_silent {log : Log} {x : Exchange} (h : log.events = []) (hx : x.call.event? = none) :
    events (log ++ [x]) = [] := by
  unfold events at h ⊢
  rw [List.filterMap_append, h]
  simp [hx]

theorem events_concat {x : Exchange} (hx : x.call.event? = none) (log : Log) : events (log ++ [x]) = log.events := by
  simp [events, List.filterMap_append, hx]

theorem events_emit {log : Log} (h : log.events = []) (e : AuditEvent) (answer : Except AuditError Unit) :
    events (log ++ [⟨.emit e, answer⟩]) = [e] := by
  unfold events at h ⊢
  rw [List.filterMap_append, h]
  rfl

end Log

namespace Program

variable {α β : Type} {m : Type → Type} [Monad m]

def answerWithin (env : (c : Call) → m c.Answer) (sink : Sink) :
    (c : Call) → List AuditEvent → m (c.Answer × List AuditEvent)
  | .emit e, events => pure (sink events e, events ++ [e])
  | c, events => do return (← env c, events)

/-- Runs a program on an environment that answers its calls and a sink that gets its events. Returns the events, after
those that the sink was sent already, with the result. -/
def within (env : (c : Call) → m c.Answer) (sink : Sink) : Program α → List AuditEvent → m (α × List AuditEvent)
  | .done a, events => pure (a, events)
  | .call c next, events => do
    let x ← answerWithin env sink c events
    (next x.1).within env sink x.2

def Silent : Program α → Prop
  | .done _ => True
  | .call c next => c.event? = none ∧ ∀ a, (next a).Silent

/-- Whatever a sink answers, the program goes on in the same way. -/
def Deaf : Program α → Prop
  | .done _ => True
  | .call c next => (c.event?.isSome → ∀ a b, next a = next b) ∧ ∀ a, (next a).Deaf

variable {p : Program α} {f : α → Program β} {log : Log}

theorem Silent.obeys (hp : p.Silent) (log : Log) :
    p.Obeys (fun _ ↦ True) (fun _ c ↦ c.event? = none) (fun _ _ ↦ True) log := by
  induction p generalizing log with
  | done a => trivial
  | call c next ih => exact ⟨hp.1, fun a _ ↦ ih a (hp.2 a) _⟩

theorem silent_of_obeys {ends : Log → α → Prop} (h : p.Obeys (fun _ ↦ True) (fun _ c ↦ c.event? = none) ends log) :
    p.Silent := by
  induction p generalizing log with
  | done a => trivial
  | call c next ih => exact ⟨h.1, fun a ↦ ih a (h.2 a trivial)⟩

theorem Silent.ends (hp : p.Silent) (h : log.events = []) : p.Ends (fun log _ ↦ log.events = []) log := by
  induction p generalizing log with
  | done a => exact h
  | call c next ih => exact ⟨trivial, fun a _ ↦ ih a (hp.2 a) (Log.events_silent h hp.1)⟩

theorem Silent.deaf (hp : p.Silent) : p.Deaf := by
  induction p with
  | done a => trivial
  | call c next ih => exact ⟨fun hc ↦ by simp [hp.1] at hc, fun a ↦ ih a (hp.2 a)⟩

theorem Deaf.bind (hp : p.Deaf) (hf : ∀ a, (f a).Deaf) : (p >>= f).Deaf := by
  induction p with
  | done a => exact hf a
  | call c next ih =>
    refine ⟨fun hc a b ↦ ?_, fun a ↦ ih a (hp.2 a)⟩
    exact congrArg (· >>= f) (hp.1 hc a b)

theorem Deaf.ask {c : Call} {f : c.Answer → Program α} (hc : c.event? = none) (hf : ∀ a, (f a).Deaf) :
    (Program.ask c >>= f).Deaf :=
  ⟨fun h ↦ by simp [hc] at h, hf⟩

theorem Deaf.emit (e : AuditEvent) (hp : p.Deaf) : (Program.ask (.emit e) >>= fun _ ↦ p).Deaf :=
  ⟨fun _ _ _ ↦ rfl, fun _ ↦ hp⟩

/-- What a deaf program does and what comes of it is the same with every sink. -/
theorem Deaf.within_eq [LawfulMonad m] (hp : p.Deaf) (env : (c : Call) → m c.Answer) (sink sink' : Sink) :
    p.within env sink = p.within env sink' := by
  funext events
  induction p generalizing events with
  | done a => rfl
  | call c next ih =>
    obtain ⟨hdeaf, hnext⟩ := hp
    have hrest : (fun x : c.Answer × List AuditEvent ↦ (next x.1).within env sink x.2) =
        fun x ↦ (next x.1).within env sink' x.2 := funext fun x ↦ ih x.1 (hnext x.1) x.2
    simp only [within, hrest]
    cases c with
    | emit e =>
      -- The only call whose answers may differ.
      have hsame : next (sink events e) = next (sink' events e) := hdeaf rfl _ _
      simp only [answerWithin, LawfulMonad.pure_bind]
      rw [hsame]
    | get _ | swap _ _ _ _ | lock _ _ | commit _ | abort _ | drop _ | pause _ _ | now => rfl

theorem Deaf.afterPause {policy : BackoffPolicy} {attempt left : Nat} {again : Program (Except ReevaluationError α)}
    (h : again.Deaf) : (afterPause policy attempt left again).Deaf := by
  unfold IntentCorrection.afterPause
  split
  · exact h
  · split
    · exact .ask rfl fun _ ↦ h
    · trivial

theorem silent_retryOnDeadlock {policy : BackoffPolicy} {operation : String} {limit : Nat}
    {run : Nat → Program (Except ReevaluationError α)} (hrun : ∀ n, (run n).Silent) :
    (retryOnDeadlock policy limit operation run).Silent := by
  have hobeys : (retryOnDeadlock policy limit operation run).Obeys (fun _ ↦ True) (fun _ c ↦ c.event? = none)
      (fun _ _ ↦ True) [] := by
    have hpause : ∀ (log : Log) (n : Nat), True → (Call.pause policy n).event? = none ∧ True := fun _ _ h ↦ ⟨rfl, h⟩
    exact retryOnDeadlock_obeys hpause (fun _ _ h _ ↦ ⟨h, h, h⟩) (fun n log _ ↦ (hrun n).obeys log) trivial
  exact silent_of_obeys hobeys

end Program

namespace Reevaluation

open Program

variable {config : Config} {r : ReevaluationRequest}

/-- An attempt under a lock leaves the events to whoever makes it. -/
theorem silent_underLock {α : Type} (key : String) (timeout : Duration)
    (judge : Intent → Timestamp → Except CorrectionError (Verdict α)) : (underLock key timeout judge).Silent := by
  have rules : LockRules (fun _ ↦ True) (fun _ c ↦ c.event? = none) (fun _ ↦ True) (fun _ _ ↦ True) (fun _ _ ↦ True)
      key timeout judge :=
    { lock := fun _ _ ↦ rfl
      missed := fun _ _ _ ↦ trivial
      clock := fun _ ↦ rfl
      opened := fun _ _ _ _ _ ↦ trivial
      refused := fun _ _ _ _ _ _ ↦ ⟨rfl, trivial⟩
      kept := fun _ _ _ _ _ _ ↦ ⟨rfl, fun _ ↦ trivial, fun _ ↦ trivial⟩
      replaced := fun _ _ _ _ _ _ _ ↦ ⟨rfl, fun _ ↦ trivial, fun _ _ ↦ trivial⟩ }
  have hobeys : (underLock key timeout judge).Obeys (fun _ ↦ True) (fun _ c ↦ c.event? = none) (fun _ _ ↦ True) [] :=
    rules.obeys trivial
  exact silent_of_obeys hobeys

theorem silent_retries :
    (retryOnDeadlock config.backoff config.deadlockRetries "reevaluate" fun _ ↦ applyLocked config r).Silent := by
  apply silent_retryOnDeadlock
  intro _
  rw [applyLocked_eq]
  exact silent_underLock _ _ _

theorem deaf_settle (i : Intent) (record : CorrectionRecord) (alreadyApplied : Bool) (attempts : Nat)
    (severity : Severity) : (settle i record r alreadyApplied attempts severity).Deaf :=
  .ask rfl fun _ ↦ .emit _ trivial

theorem deaf_fallback (attempts : Nat) (correlationId : Option Uuid) :
    (fallback config r attempts correlationId).Deaf := by
  apply silent_retries.deaf.bind
  intro result
  cases result with
  | ok settled => exact .ask rfl fun _ ↦ .emit _ trivial
  | error e =>
    dsimp only
    split
    · trivial
    · have hcorrelation : (correlationFor r correlationId).Deaf := by
        cases correlationId with
        | some id => trivial
        | none => exact .ask rfl fun a ↦ by cases a <;> trivial
      exact hcorrelation.bind fun _ ↦ .ask rfl fun _ ↦ .emit _ trivial

theorem deaf_attemptFrom (left made : Nat) (correlationId : Option Uuid) :
    (attemptFrom config r left made correlationId).Deaf := by
  -- By induction on the attempts that are left; only the exits of an attempt emit something.
  induction left generalizing made correlationId with
  | zero =>
    unfold attemptFrom
    split
    · exact deaf_fallback _ _
    · trivial
  | succ left ih =>
    refine .ask rfl fun a ↦ ?_
    cases a with
    | error e => trivial
    | ok current =>
      refine .ask rfl fun now ↦ ?_
      cases correct current r now with
      | error e => trivial
      | ok outcome =>
        cases outcome with
        | alreadyApplied record => exact deaf_settle _ _ _ _ _
        | applied next record =>
          refine .ask rfl fun a ↦ ?_
          cases a with
          | error e => trivial
          | ok won =>
            cases won with
            | true => exact deaf_settle _ _ _ _ _
            | false => exact .afterPause (ih _ _)

theorem deaf_reevaluate : (reevaluate config r).Deaf := by
  unfold reevaluate
  split
  · trivial
  · exact deaf_attemptFrom _ _ _

theorem deaf_updateStatus (key : String) (requested : Status) : (updateStatus config key requested).Deaf := by
  have hretries : (retryOnDeadlock config.backoff config.deadlockRetries "update_status"
      fun _ ↦ transitionLocked config key requested).Silent := by
    apply silent_retryOnDeadlock
    intro _
    rw [transitionLocked_eq]
    exact silent_underLock _ _ _
  apply hretries.deaf.bind
  intro result
  cases result with
  | error e => trivial
  | ok changed =>
    dsimp only
    split
    · trivial
    · exact .ask rfl fun _ ↦ .emit _ trivial

end Reevaluation

end IntentCorrection
