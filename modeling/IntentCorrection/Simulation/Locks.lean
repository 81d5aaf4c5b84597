import IntentCorrection.Simulation.Basic

namespace IntentCorrection

structure LockTask where
  name : String
  key : String
  timeout : Duration
  start : Moment
  ticket : Ticket
  deriving Repr

def LockTask.deadline (t : LockTask) : Moment := t.start + t.timeout.nanoseconds

structure LockBench where
  locks : LockRegistry
  clock : Moment
  held : Entries String Ticket
  /-- In the order in which they were started. -/
  tasks : List LockTask
  deriving Repr

namespace LockBench

def empty : LockBench := ⟨.empty, 0, [], []⟩

def onLocks {α : Type} (f : LockRegistry → α × LockRegistry) : StateM LockBench α :=
  modifyGet fun b ↦
    let (a, locks) := f b.locks
    (a, { b with locks := locks })

def letGo (t : Ticket) : StateM LockBench Unit := onLocks fun r ↦ ((), r.release t)

def hold (name : String) (t : Ticket) : StateM LockBench Unit := do
  let old := (← get).held.get? name
  modify fun b ↦ { b with held := b.held.insert name t }
  if let some old := old then letGo old

/-- Acquires a lock. A key that is held stays held meanwhile, so the wait lasts as long as it may. -/
def acquire (key : String) (timeout : Duration) : StateM LockBench (Except StorageError Ticket) := do
  let t ← onLocks (·.begin key)
  if (← get).locks.phase? t = some .holding then return .ok t
  else
    modify fun b ↦ { b with clock := b.clock + timeout.nanoseconds, locks := b.locks.expire t }
    return .error (.lockTimeout key timeout)

def acquireAs (name key : String) (timeout : Duration) :
    StateM LockBench (Except StorageError Unit) := do
  match ← acquire key timeout with
  | .error e => return .error e
  | .ok t =>
    hold name t
    return .ok ()

def spawn (name key : String) (timeout : Duration) : StateM LockBench Unit := do
  let t ← onLocks (·.begin key)
  modify fun b ↦ { b with tasks := b.tasks ++ [⟨name, key, timeout, b.clock, t⟩] }

def sleep (d : Duration) : StateM LockBench Unit :=
  modify fun b ↦ { b with clock := b.clock + (Simulation.sleepTime d).nanoseconds }

def release (name : String) : StateM LockBench Bool := do
  match (← get).held.get? name with
  | none => return false
  | some t =>
    modify fun b ↦ { b with held := b.held.erase name }
    letGo t
    return true

def withLock {α : Type} (key : String) (timeout : Duration)
    (body : Bool → Except StorageError α) : StateM LockBench (Except StorageError α) := do
  match ← acquire key timeout with
  | .error e => return .error e
  | .ok t =>
    let result := body ((← get).locks.isLocked key)
    letGo t
    return result

def panicPatience : Duration := .ofMilliseconds 10

def panicHolder (key : String) : StateM LockBench Unit := do
  let _ ← withLock key panicPatience fun _ ↦ (.ok () : Except StorageError Unit)

structure Ended where
  name : String
  outcome : Except StorageError String

def advance? (t : LockTask) : StateM LockBench (Option Ended) := do
  let b ← get
  match b.locks.phase? t.ticket with
  | some .waiting =>
    if t.deadline ≤ b.clock then
      set { b with locks := b.locks.expire t.ticket }
      return some ⟨t.name, .error (.lockTimeout t.key t.timeout)⟩
    else return none
  | _ =>
    set { b with locks := b.locks.resume t.ticket }
    hold t.name t.ticket
    return some ⟨t.name, .ok t.key⟩

def pass : List LockTask → StateM LockBench (List (Ticket × Ended))
  | [] => return []
  | t :: r => do
    match ← advance? t with
    | some ended => return (t.ticket, ended) :: (← pass r)
    | none =>
      modify fun b ↦ { b with tasks := b.tasks ++ [t] }
      pass r

/-- Passes until no task goes on. There are no more passes than tasks. -/
def settleFrom : Nat → StateM LockBench (List (Ticket × Ended))
  | 0 => return []
  | n + 1 => do
    let tasks := (← get).tasks
    modify fun b ↦ { b with tasks := [] }
    let ended ← pass tasks
    if ended.isEmpty then return []
    else return ended ++ (← settleFrom n)

def settle : StateM LockBench (List Ended) := do
  let ended ← settleFrom ((← get).tasks.length + 1)
  return (ended.mergeSort fun a b ↦ a.1 ≤ b.1).map Prod.snd

end LockBench

end IntentCorrection
