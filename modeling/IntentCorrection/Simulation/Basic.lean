import IntentCorrection.Reevaluation.Protocol
import IntentCorrection.Simulation.Script

namespace IntentCorrection

abbrev Moment := Nat

structure Simulation where
  store : Store
  clock : Moment
  /-- What the clock on the wall shows all the time. -/
  date : Timestamp
  script : Simulation.Script
  calls : Simulation.Method → Nat
  sinkBroken : Bool
  events : List AuditEvent
  /-- How many more sleeps and locks a run may have without a wait before it gives way. -/
  allowance : Nat

namespace Simulation

def fullAllowance : Nat := 128

def start (store : Store) (date : Timestamp) (script : Script) (sinkBroken : Bool) : Simulation :=
  ⟨store, 0, date, script, fun _ ↦ 0, sinkBroken, [], fullAllowance⟩

structure Deadline where
  start : Moment
  limit : Duration

def Deadline.moment (d : Deadline) : Moment := d.start + d.limit.nanoseconds

/-- A run under an optional deadline. If it is cut off, it ends with the limit. -/
abbrev Run := ReaderT (Option Deadline) (ExceptT Duration (StateM Simulation))

def onStore {α : Type} (f : Store → α × Store) : Run α :=
  modifyGet fun s ↦
    let (a, store) := f s.store
    (a, { s with store := store })

/-- Uses up one of the allowance. If none is left, the run gives way: it is cut off if its deadline has come,
and otherwise has the full allowance again. -/
def spend : Run Unit := do
  if (← get).allowance = 0 then
    if let some deadline ← read then
      if deadline.moment ≤ (← get).clock then throw deadline.limit
    modify fun s ↦ { s with allowance := fullAllowance }
  modify fun s ↦ { s with allowance := s.allowance - 1 }

/-- Lets the clock go on to a moment. After that the run has the full allowance but for the wait itself. -/
def arrive (t : Moment) : Run Unit := modify fun s ↦ { s with clock := t, allowance := fullAllowance - 1 }

def waitUntil (t : Moment) : Run Unit := do
  let now := (← get).clock
  if now < t then
    match ← read with
    | none => arrive t
    | some deadline =>
      if deadline.moment < t then
        arrive (max now deadline.moment)
        throw deadline.limit
      else arrive t

def wait (d : Duration) : Run Unit := do waitUntil ((← get).clock + d.nanoseconds)

def longestSleep : Duration := .ofSeconds (30 * 365 * 24 * 60 * 60)

def sleepTime (d : Duration) : Duration := ⟨min d.nanoseconds longestSleep.nanoseconds⟩

def sleep (d : Duration) : Run Unit := do
  if d = Duration.zero then spend else wait (sleepTime d)

def lock (key : String) (timeout : Duration) : Run (Except StorageError LockedIntent) := do
  try spend
  catch limit =>
    onStore fun s ↦ ((), s.registerLock key)
    throw limit
  let ticket ← onStore (·.beginLock key)
  if (← get).store.locks.phase? ticket = some .holding then onStore (·.openLocked ticket key)
  else
    try wait timeout
    catch limit =>
      onStore fun s ↦ ((), s.cancelLock ticket)
      throw limit
    return .error (← onStore (·.expireLock ticket key timeout))

def rivalPatience : Duration := .ofSeconds 60

def rivalChanges (key : String) (change : RivalChange) : Run (Except StorageError Unit) := do
  match ← lock key rivalPatience with
  | .error e => return .error e
  | .ok handle =>
    match change.apply? handle.intent (← get).date with
    | none =>
      onStore fun s ↦ ((), s.abort handle)
      return .error (.backend "rival refused")
    | some next =>
      let handle := if next = handle.intent then handle else handle.replace next
      return (← onStore (·.commit handle)).map fun _ ↦ ()

def nextAction (m : Method) : Run Action :=
  modifyGet fun s ↦
    let (a, schedule) := (s.script m).next
    (a, { s with
      script := fun m' ↦ if m' = m then schedule else s.script m'
      calls := fun m' ↦ if m' = m then s.calls m + 1 else s.calls m' })

def get (key : String) : Run (Except StorageError Intent) := do
  match ← nextAction .get with
  | .fail fault => return .error (fault.error key)
  | .delay d =>
    sleep d
    onStore fun s ↦ (s.get key, s)
  | _ => onStore fun s ↦ (s.get key, s)

def swap (key : String) (i : Intent) (r : CorrectionRecord) (expected : Nat) :
    Run (Except StorageError Bool) := do
  let proceed := onStore (·.compareAndSwap key i r expected)
  match ← nextAction .swap with
  | .fail fault => return .error (fault.error key)
  | .refuse => return .ok false
  | .rivalSwap =>
    let _ ← proceed
    proceed
  | .rivalSwapOnly =>
    let _ ← proceed
    return .ok false
  | .rival change =>
    match ← rivalChanges key change with
    | .error e => return .error e
    | .ok () => proceed
  | _ => proceed

def lockScripted (key : String) (timeout : Duration) : Run (Except StorageError LockedIntent) := do
  match ← nextAction .lock with
  | .fail fault => return .error (fault.error key)
  | .delay d =>
    sleep d
    lock key timeout
  | .rival change =>
    match ← rivalChanges key change with
    | .error e => return .error e
    | .ok () => lock key timeout
  | _ => lock key timeout

def finish {α : Type} (m : Method) (handle : LockedIntent)
    (f : Store → Except StorageError α × Store) : Run (Except StorageError α) := do
  match ← nextAction m with
  | .fail fault =>
    onStore fun s ↦ ((), s.abort handle)
    return .error (fault.error handle.intent.key)
  | _ => onStore f

def emit (event : AuditEvent) : Run (Except AuditError Unit) :=
  modifyGet fun s ↦
    if s.sinkBroken then (.error .unavailable, s)
    else (.ok (), { s with events := s.events ++ [event] })

/-- Answers a call. No offset is drawn for a pause. -/
def answer : (c : Call) → Run c.Answer
  | .get key => get key
  | .swap key i r expected => swap key i r expected
  | .lock key timeout => lockScripted key timeout
  | .commit handle => finish .commit handle (·.commit handle)
  | .abort handle => finish .abort handle fun s ↦ (.ok (), s.abort handle)
  | .drop handle => onStore fun s ↦ ((), s.abort handle)
  | .pause policy attempt => sleep (policy.delayWith attempt 0)
  | .now => return (← MonadState.get).date
  | .emit event => emit event

def run {α : Type} : Program α → Run α
  | .done a => pure a
  | .call c next => do run (next (← answer c))

def runWithin {α : Type} (limit : Option Duration) (key : String)
    (p : Program (Except ReevaluationError α)) : StateM Simulation (Except ReevaluationError α) := do
  modify fun s ↦ { s with allowance := fullAllowance }
  let now := (← MonadState.get).clock
  match ← (run p).run (limit.map (⟨now, ·⟩)) with
  | .ok result => return result
  | .error limit => return .error (.deadlineExceeded key limit)

end Simulation

end IntentCorrection
