import IntentCorrection.Conformance.Subject

namespace IntentCorrection.Conformance

inductive Defect where
  | insertFails | insertFailsForB | insertNoop | insertBumpsVersion | insertSetsFailed
  | insertIgnoresDuplicate | duplicateAsBackend
  | getFails | getInvents | getRenames | getDropsHistory
  | notFoundAsBackend
  | listFails | filteredListFails | listPhantom | listUnfiltered
  | casFails | casRefuses | casClaims | casIgnoresVersion | casClaimsAfterTrying
  | casWritesButRefuses
  | lockFails | lockShared | lockInvents | timeoutAsBackend | lockShowsOther | lockStartsDirty
  | replaceIgnored | dropLeaksLock
  | commitFails | commitDiscards | commitKeepsLock | commitReturnsBumped
  | abortFails | abortCommits
  deriving DecidableEq, Repr

structure DefectiveHandle where
  /-- The handle with the lock, if there is one. -/
  inner : Option LockedIntent
  shown : Intent
  dirty : Bool

namespace Defect

def name : Defect → String
  | .insertFails => "insert_fails"
  | .insertFailsForB => "insert_fails_for_b"
  | .insertNoop => "insert_noop"
  | .insertBumpsVersion => "insert_bumps_version"
  | .insertSetsFailed => "insert_sets_failed"
  | .insertIgnoresDuplicate => "insert_ignores_duplicate"
  | .duplicateAsBackend => "duplicate_as_backend"
  | .getFails => "get_fails"
  | .getInvents => "get_invents"
  | .getRenames => "get_renames"
  | .getDropsHistory => "get_drops_history"
  | .notFoundAsBackend => "not_found_as_backend"
  | .listFails => "list_fails"
  | .filteredListFails => "filtered_list_fails"
  | .listPhantom => "list_phantom"
  | .listUnfiltered => "list_unfiltered"
  | .casFails => "cas_fails"
  | .casRefuses => "cas_refuses"
  | .casClaims => "cas_claims"
  | .casIgnoresVersion => "cas_ignores_version"
  | .casClaimsAfterTrying => "cas_claims_after_trying"
  | .casWritesButRefuses => "cas_writes_but_refuses"
  | .lockFails => "lock_fails"
  | .lockShared => "lock_shared"
  | .lockInvents => "lock_invents"
  | .timeoutAsBackend => "timeout_as_backend"
  | .lockShowsOther => "lock_shows_other"
  | .lockStartsDirty => "lock_starts_dirty"
  | .replaceIgnored => "replace_ignored"
  | .dropLeaksLock => "drop_leaks_lock"
  | .commitFails => "commit_fails"
  | .commitDiscards => "commit_discards"
  | .commitKeepsLock => "commit_keeps_lock"
  | .commitReturnsBumped => "commit_returns_bumped"
  | .abortFails => "abort_fails"
  | .abortCommits => "abort_commits"

def all : List Defect :=
  [.insertFails, .insertFailsForB, .insertNoop, .insertBumpsVersion, .insertSetsFailed,
    .insertIgnoresDuplicate, .duplicateAsBackend, .getFails, .getInvents, .getRenames, .getDropsHistory,
    .notFoundAsBackend, .listFails, .filteredListFails, .listPhantom, .listUnfiltered, .casFails,
    .casRefuses, .casClaims, .casIgnoresVersion, .casClaimsAfterTrying, .casWritesButRefuses, .lockFails,
    .lockShared, .lockInvents, .timeoutAsBackend, .lockShowsOther, .lockStartsDirty, .replaceIgnored,
    .dropLeaksLock, .commitFails, .commitDiscards, .commitKeepsLock, .commitReturnsBumped, .abortFails,
    .abortCommits]

def ofName? (name : String) : Option Defect := all.find? (·.name = name)

end Defect

section

variable (ds : List Defect) (date : Timestamp)

def failing (d : Defect) : StorageError := .backend d.name

/-- An intent that nobody inserted; its id is that of no intent of a test. -/
def invented (key : String) : Intent := .received key "payment" [] (.ofRandom Word.size64) date

/-- An error as a store shows it that cannot tell a missing record. -/
def mapError {α : Type} (r : Except StorageError α) : Except StorageError α :=
  if ds.contains .notFoundAsBackend then r.mapError fun _ ↦ .backend "no row" else r

def defectiveInsert (i : Intent) : StateM Store (Except StorageError Unit) := do
  if ds.contains .insertFails then return .error (failing .insertFails)
  else if ds.contains .insertFailsForB ∧ i.key = "intent-b" then
    return .error (failing .insertFailsForB)
  else if ds.contains .insertNoop then return .ok ()
  else
    let i := if ds.contains .insertBumpsVersion then { i with version := 1 } else i
    let i := if ds.contains .insertSetsFailed then { i with status := .failed } else i
    match ← memory.insert i with
    | .error (.alreadyExists key) =>
      if ds.contains .insertIgnoresDuplicate then return .ok ()
      else if ds.contains .duplicateAsBackend then return .error (.backend "duplicate row")
      else return .error (.alreadyExists key)
    | r => return r

def defectiveGet (key : String) : StateM Store (Except StorageError Intent) := do
  if ds.contains .getFails then return .error (failing .getFails)
  else
    match ← memory.get key with
    | .ok i =>
      let i := if ds.contains .getRenames then { i with key := "renamed" } else i
      return .ok (if ds.contains .getDropsHistory then { i with history := [] } else i)
    | .error (.notFound key) =>
      if ds.contains .getInvents then return .ok (invented date key)
      else return mapError ds (.error (.notFound key))
    | r => return mapError ds r

def defectiveList (status : Option Status) : StateM Store (Except StorageError (List Intent)) := do
  if ds.contains .listFails then return .error (failing .listFails)
  else if ds.contains .filteredListFails ∧ status.isSome then
    return .error (failing .filteredListFails)
  else
    let status := if ds.contains .listUnfiltered then none else status
    return (← memory.list status).map fun is ↦
      if ds.contains .listPhantom then is ++ [invented date "phantom"] else is

def swapAtStored (key : String) (i : Intent) (r : CorrectionRecord) :
    StateM Store (Except StorageError Bool) := do
  match ← memory.get key with
  | .error e => return .error e
  | .ok current => memory.swap key i r current.version

def defectiveSwap (key : String) (i : Intent) (r : CorrectionRecord) (expected : Nat) :
    StateM Store (Except StorageError Bool) := do
  if ds.contains .casFails then return .error (failing .casFails)
  else if ds.contains .casRefuses then return .ok false
  else if ds.contains .casClaims then return .ok true
  else
    let swapped ←
      if ds.contains .casIgnoresVersion ∨ ds.contains .casWritesButRefuses then swapAtStored key i r
      else memory.swap key i r expected
    return mapError ds (swapped.map fun b ↦
      if ds.contains .casWritesButRefuses then false
      else if ds.contains .casClaimsAfterTrying then true
      else b)

def unlocked (i : Intent) : DefectiveHandle := ⟨none, i, ds.contains .lockStartsDirty⟩

def defectiveLock (key : String) (timeout : Duration) :
    StateM Store (Except StorageError DefectiveHandle) := do
  if ds.contains .lockFails then return .error (failing .lockFails)
  else
    let locked ←
      if ds.contains .lockShared then
        pure ((← memory.get key).map (unlocked ds))
      else
        pure ((← memory.lock key timeout).map fun h ↦
          ⟨some h, h.intent, ds.contains .lockStartsDirty⟩)
    match locked with
    | .ok h =>
      return .ok (if ds.contains .lockShowsOther then { h with shown := invented date key } else h)
    | .error (.notFound key) =>
      if ds.contains .lockInvents then return .ok (unlocked ds (invented date key))
      else return mapError ds (.error (.notFound key))
    | .error (.lockTimeout key timeout) =>
      if ds.contains .timeoutAsBackend then return .error (.backend "busy")
      else return mapError ds (.error (.lockTimeout key timeout))
    | .error e => return mapError ds (.error e)

def defectiveReplace (h : DefectiveHandle) (i : Intent) : DefectiveHandle :=
  if ds.contains .replaceIgnored then h else ⟨h.inner.map (·.replace i), i, true⟩

def defectiveDrop (h : DefectiveHandle) : StateM Store Unit :=
  match h.inner with
  | some inner => if ds.contains .dropLeaksLock then return else memory.drop inner
  | none => return

/-- Writes what a handle has staged. A handle without a lock takes it for that. -/
def commitInner (h : DefectiveHandle) : StateM Store (Except StorageError Intent) :=
  match h.inner with
  | some inner => memory.commit inner
  | none => do
    match ← memory.lock h.shown.key (.ofSeconds 1) with
    | .error e => return .error e
    | .ok inner => memory.commit (if h.dirty then inner.replace h.shown else inner)

def defectiveCommit (h : DefectiveHandle) : StateM Store (Except StorageError Intent) := do
  if ds.contains .commitFails then
    defectiveDrop ds h
    return .error (failing .commitFails)
  else if ds.contains .commitDiscards then
    if let some inner := h.inner then memory.drop inner
    return .ok h.shown
  else
    match ← commitInner h with
    | .error e => return .error e
    | .ok i =>
      if ds.contains .commitKeepsLock then
        let _ ← memory.lock i.key (.ofSeconds 1)
      return .ok (if ds.contains .commitReturnsBumped then { i with version := 99 } else i)

def defectiveAbort (h : DefectiveHandle) : StateM Store (Except StorageError Unit) := do
  if ds.contains .abortFails then
    defectiveDrop ds h
    return .error (failing .abortFails)
  else if ds.contains .abortCommits then return (← commitInner h).map fun _ ↦ ()
  else
    match h.inner with
    | some inner => memory.abort inner
    | none => return .ok ()

def defective : Subject Store DefectiveHandle where
  fresh := .empty
  insert := defectiveInsert ds
  get := defectiveGet ds date
  list := defectiveList ds date
  swap := defectiveSwap ds
  lock := defectiveLock ds date
  commit := defectiveCommit ds
  abort := defectiveAbort ds
  drop := defectiveDrop ds
  shown := DefectiveHandle.shown
  replace := defectiveReplace ds
  isDirty := DefectiveHandle.dirty

end

end IntentCorrection.Conformance
