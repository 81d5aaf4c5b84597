import IntentCorrection.Conformance.Trial

namespace IntentCorrection.Conformance

open Trial

variable {σ η : Type}

def patience : Duration := .ofSeconds 2

def impatience : Duration := .ofMilliseconds 50

def contenders : Nat := 10

def insertThenGet (s : Subject σ η) : Trial σ Unit := do
  let inserted ← seed s "intent-1"
  let read ← expect "get" (s.get "intent-1")
  if read ≠ inserted then throw (.readBack read inserted)

def startsAtVersionZero (s : Subject σ η) : Trial σ Unit := do
  let _ ← seed s "intent-1"
  let read ← expect "get" (s.get "intent-1")
  if read.version ≠ 0 then fail ("expected version 0, got " ++ toString read.version)
  if read.status ≠ .received then fail ("expected status received, got " ++ read.status.name)

def doubleInsert (s : Subject σ η) : Trial σ Unit := do
  let _ ← seed s "intent-1"
  match ← ask (s.insert (← makeIntent "intent-1")) with
  | .error e =>
    if e ≠ .alreadyExists "intent-1" then fail ("expected AlreadyExists, got: " ++ e.message)
  | .ok () => fail "expected AlreadyExists, got Ok"

def keysAreIndependent (s : Subject σ η) : Trial σ Unit := do
  let a ← seed s "intent-a"
  let b ← seed s "intent-b"
  if a.correlationId = b.correlationId then fail "distinct intents share a correlation id"
  let read ← expect "get b" (s.get "intent-b")
  if read.key ≠ "intent-b" then fail ("get(intent-b) returned " ++ read.key)

def listFilters (s : Subject σ η) : Trial σ Unit := do
  let _ ← seed s "intent-a"
  let b ← makeIntent "intent-b"
  expect "insert b" (s.insert { b with status := .failed })
  let all ← expect "list" (s.list none)
  if all.length ≠ 2 then fail ("expected 2 intents, got " ++ toString all.length)
  let failed ← expect "list failed" (s.list (some .failed))
  if failed.map Intent.key ≠ ["intent-b"] then
    fail ("expected [intent-b], got " ++ toString failed.length ++ " intents")

def getMissing (s : Subject σ η) : Trial σ Unit := do
  match ← ask (s.get "missing") with
  | .error e => if e ≠ .notFound "missing" then fail ("expected NotFound, got: " ++ e.message)
  | .ok i => fail ("expected NotFound, got " ++ i.key)

def isNotFound : StorageError → Bool
  | .notFound _ => true
  | _ => false

def swapMissing (s : Subject σ η) : Trial σ Unit := do
  let (next, record) ← makeCorrection (← makeIntent "missing") 5
  match ← ask (s.swap "missing" next record 0) with
  | .error e => if !isNotFound e then fail ("expected NotFound, got: " ++ e.message)
  | .ok true => fail "expected NotFound, got Ok(true)"
  | .ok false => fail "expected NotFound, got Ok(false)"

def lockMissing (s : Subject σ η) : Trial σ Unit := do
  match ← ask (s.lock "missing" patience) with
  | .error e => if !isNotFound e then fail ("expected NotFound, got: " ++ e.message)
  | .ok _ => fail "expected NotFound, got a lock"
  -- The failed attempt must have left the key free.
  match ← ask (s.lock "missing" patience) with
  | .error e => if !isNotFound e then fail ("second attempt: expected NotFound, got: " ++ e.message)
  | .ok _ => fail "second lock unexpectedly succeeded"

def listEmpty (s : Subject σ η) : Trial σ Unit := do
  let all ← expect "list" (s.list none)
  if !all.isEmpty then fail ("expected empty list, got " ++ toString all.length)

def swapCurrent (s : Subject σ η) : Trial σ Unit := do
  let i ← seed s "intent-1"
  let (next, record) ← makeCorrection i 250
  if !(← expect "cas" (s.swap "intent-1" next record 0)) then fail "cas at current version was refused"
  let read ← expect "get" (s.get "intent-1")
  if read.version ≠ 1 ∨ amount? read ≠ some 250 then
    fail ("expected version 1 with amount 250, got version " ++ toString read.version ++ " amount " ++
      amountText (amount? read))

def swapStale (s : Subject σ η) : Trial σ Unit := do
  let i ← seed s "intent-1"
  let (first, firstRecord) ← makeCorrection i 200
  let _ ← expect "first cas" (s.swap "intent-1" first firstRecord 0)
  let (stale, staleRecord) ← makeCorrection i 300
  if ← expect "stale cas" (s.swap "intent-1" stale staleRecord 0) then
    fail "cas with stale version 0 succeeded"

def refusedSwapChangesNothing (s : Subject σ η) : Trial σ Unit := do
  let i ← seed s "intent-1"
  let (next, record) ← makeCorrection i 999
  if ← expect "cas" (s.swap "intent-1" next record 7) then fail "cas with wrong version succeeded"
  let read ← expect "get" (s.get "intent-1")
  if read ≠ i then throw (.changed read)

def swapInTurn (s : Subject σ η) : List Nat → Intent → Trial σ Unit
  | [], _ => return
  | amount :: rest, current => do
    let (next, record) ← makeCorrection current amount
    if !(← expect ("cas " ++ toString amount) (s.swap "intent-1" next record current.version)) then
      fail ("cas " ++ toString amount ++ " at version " ++ toString current.version ++ " refused")
    let current ← expect ("get " ++ toString amount) (s.get "intent-1")
    if current.version ≠ amount then
      fail ("expected version " ++ toString amount ++ ", got " ++ toString current.version)
    swapInTurn s rest current

def swapsCount (s : Subject σ η) : Trial σ Unit := do
  swapInTurn s [1, 2, 3, 4, 5] (← seed s "intent-1")

def swapKeepsHistory (s : Subject σ η) : Trial σ Unit := do
  let i ← seed s "intent-1"
  let (next, record) ← makeCorrection i 42
  let _ ← expect "cas" (s.swap "intent-1" next record 0)
  let read ← expect "get" (s.get "intent-1")
  if read.history.map CorrectionRecord.id ≠ [record.id] then
    fail ("expected one history entry " ++ String.ofList record.id.text ++ ", got " ++
      toString read.history.length ++ " entries")

def lockShowsCurrent (s : Subject σ η) : Trial σ Unit := do
  let i ← seed s "intent-1"
  let locked ← expect "lock" (s.lock "intent-1" patience)
  if s.shown locked ≠ i then fail "locked intent differs from stored intent"
  if s.isDirty locked then fail "fresh lock reports dirty"
  expect "abort" (s.abort locked)

def stage (s : Subject σ η) (amount : Int) : Trial σ η := do
  let locked ← expect "lock" (s.lock "intent-1" patience)
  let (next, _) ← makeCorrection (s.shown locked) amount
  return s.replace locked next

def commitWrites (s : Subject σ η) : Trial σ Unit := do
  let _ ← seed s "intent-1"
  let committed ← expect "commit" (s.commit (← stage s 77))
  let read ← expect "get" (s.get "intent-1")
  if read ≠ committed ∨ read.version ≠ 1 ∨ amount? read ≠ some 77 then
    fail ("expected committed version 1 with amount 77, got version " ++ toString read.version ++
      " amount " ++ amountText (amount? read))

def commitUnreplaced (s : Subject σ η) : Trial σ Unit := do
  let i ← seed s "intent-1"
  let locked ← expect "lock" (s.lock "intent-1" patience)
  let committed ← expect "commit" (s.commit locked)
  if committed ≠ i then fail "commit without replace changed the record"

def abortDiscards (s : Subject σ η) : Trial σ Unit := do
  let i ← seed s "intent-1"
  expect "abort" (s.abort (← stage s 5))
  let read ← expect "get" (s.get "intent-1")
  if read ≠ i then fail "aborted replacement was persisted"

def dropDiscards (s : Subject σ η) : Trial σ Unit := do
  let i ← seed s "intent-1"
  ask (s.drop (← stage s 5))
  let read ← expect "get" (s.get "intent-1")
  if read ≠ i then fail "dropped replacement was persisted"
  let relocked ← expect "relock after drop" (s.lock "intent-1" impatience)
  expect "abort" (s.abort relocked)

def secondLockFault? (s : Subject σ η) : Except StorageError η → Trial σ (Option String)
  | .error e =>
    match e with
    | .lockTimeout "intent-1" _ => return none
    | e => return some ("expected LockTimeout, got: " ++ e.message)
  | .ok second => do
    ask (s.drop second)
    return some "second lock acquired while first was held"

def secondLockTimesOut (s : Subject σ η) : Trial σ Unit := do
  let _ ← seed s "intent-1"
  let held ← expect "lock" (s.lock "intent-1" patience)
  let fault ← secondLockFault? s (← ask (s.lock "intent-1" impatience))
  expect "abort" (s.abort held)
  if let some text := fault then fail text

def commitReleases (s : Subject σ η) : Trial σ Unit := do
  let _ ← seed s "intent-1"
  let _ ← expect "commit" (s.commit (← stage s 11))
  let relocked ← expect "relock after commit" (s.lock "intent-1" impatience)
  let version := (s.shown relocked).version
  if version ≠ 1 then fail ("relocked intent at version " ++ toString version ++ ", expected 1")
  expect "abort" (s.abort relocked)

def swapRefusedWhileLocked (s : Subject σ η) : Trial σ Unit := do
  let i ← seed s "intent-1"
  let held ← expect "lock" (s.lock "intent-1" patience)
  let (next, record) ← makeCorrection i 500
  let swapped ← expect "cas" (s.swap "intent-1" next record 0)
  expect "abort" (s.abort held)
  if swapped then fail "cas succeeded while the intent was locked"

def countWinners (s : Subject σ η) : List (Intent × CorrectionRecord) → Trial σ Nat
  | [] => return 0
  | (next, record) :: rest => do
    let won ← expect "storage error" (s.swap "intent-1" next record 0)
    return (if won then 1 else 0) + (← countWinners s rest)

def oneSwapWins (s : Subject σ η) : Trial σ Unit := do
  let i ← seed s "intent-1"
  let swaps ← (List.range contenders).mapM fun (n : Nat) ↦ makeCorrection i (1000 + n)
  let winners ← countWinners s swaps
  if winners ≠ 1 then fail ("expected exactly 1 winner, got " ++ toString winners)
  let read ← expect "get" (s.get "intent-1")
  if read.version ≠ 1 ∨ read.history.length ≠ 1 then
    fail ("expected version 1 with one correction, got version " ++ toString read.version ++ " with " ++
      toString read.history.length)

def swapsOfOthersSucceed (s : Subject σ η) : Trial σ Unit := do
  let swaps ← (List.range contenders).mapM fun (n : Nat) ↦ do
    let key := "intent-" ++ toString n
    let (next, record) ← makeCorrection (← seed s key) n
    return (key, next, record)
  swaps.forM fun (key, next, record) ↦ do
    if !(← expect "storage error" (s.swap key next record 0)) then
      fail ("swap on independent " ++ key ++ " was refused")

def increment (s : Subject σ η) : Trial σ Unit := do
  let locked ← expect "lock" (s.lock "intent-1" (.ofSeconds 10))
  match amount? (s.shown locked) with
  | none => fail "locked intent has no amount"
  | some current =>
    let (next, _) ← makeCorrection (s.shown locked) (current + 1)
    let _ ← expect "commit" (s.commit (s.replace locked next))

def locksSerialize (s : Subject σ η) : Trial σ Unit := do
  let i ← seed s "intent-1"
  match amount? i with
  | none => fail "seed intent has no amount"
  | some start =>
    (List.range contenders).forM fun _ ↦ increment s
    let read ← expect "get" (s.get "intent-1")
    let expected := start + contenders
    if amount? read ≠ some expected ∨ read.version ≠ contenders then
      fail ("expected amount " ++ toString expected ++ " at version " ++ toString contenders ++
        ", got amount " ++ amountText (amount? read) ++ " at version " ++ toString read.version)

end IntentCorrection.Conformance
