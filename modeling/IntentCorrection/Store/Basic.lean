import IntentCorrection.Intent.Record
import IntentCorrection.Lock.Registry
import IntentCorrection.Store.Error

namespace IntentCorrection

/-- Intents in memory, with a journal of the corrections written for each and the locks on their keys. A swap writes if
the stored version is the expected one and nobody has the lock, a locked handle if it is still the one that was read. -/
structure Store where
  intents : Entries String Intent
  journal : Entries String (List CorrectionRecord)
  locks : LockRegistry
  deriving DecidableEq, Repr

structure LockedIntent where
  ticket : Ticket
  /-- As read, or the staged replacement. -/
  intent : Intent
  readVersion : Nat
  readHistoryLength : Nat
  dirty : Bool
  deriving DecidableEq, Repr

def LockedIntent.replace (h : LockedIntent) (i : Intent) : LockedIntent :=
  { h with intent := i, dirty := true }

namespace Store

def empty : Store := ⟨[], [], .empty⟩

def get (s : Store) (key : String) : Except StorageError Intent :=
  match s.intents.get? key with
  | some i => .ok i
  | none => .error (.notFound key)

def precedes (a b : Intent) : Bool :=
  a.createdAt.instant < b.createdAt.instant ||
    (a.createdAt.instant = b.createdAt.instant && a.key ≤ b.key)

def listing (is : List Intent) : List Intent := is.mergeSort precedes

def snapshot (s : Store) : List Intent := listing (s.intents.map Prod.snd)

def list (s : Store) (status : Option Status) : List Intent :=
  listing ((s.intents.map Prod.snd).filter fun i ↦ status.all (i.status = ·))

def log (s : Store) (key : String) : List CorrectionRecord := (s.journal.get? key).getD []

def write (s : Store) (i : Intent) (journal : List CorrectionRecord) : Store :=
  { s with intents := s.intents.insert i.key i, journal := s.journal.insert i.key journal }

def insert (s : Store) (i : Intent) : Except StorageError Store :=
  if s.intents.contains i.key then .error (.alreadyExists i.key) else .ok (s.write i i.history)

def ofIntents (is : List Intent) : Except StorageError Store := is.foldlM insert empty

/-- Writes an intent and a correction if the stored version is the expected one and the key is not locked. -/
def compareAndSwap (s : Store) (key : String) (i : Intent) (r : CorrectionRecord) (expected : Nat) :
    Except StorageError Bool × Store :=
  if i.key ≠ key then
    (.error (.backend ("record key " ++ i.key ++ " does not match " ++ key)), s)
  else if s.locks.isLocked key then (.ok false, s)
  else
    match s.get key with
    | .error e => (.error e, s)
    | .ok current =>
      if current.version ≠ expected then (.ok false, s)
      else (.ok true, s.write i (s.log key ++ [r]))

def beginLock (s : Store) (key : String) : Ticket × Store :=
  let (t, locks) := s.locks.begin key
  (t, { s with locks := locks })

/-- Someone who wants to lock a key has looked it up, and gives up before asking for the lock. -/
def registerLock (s : Store) (key : String) : Store := { s with locks := (s.locks.slotFor key).2 }

def release (s : Store) (t : Ticket) : Store := { s with locks := s.locks.release t }

/-- Opens the intent for a ticket that has the lock; without an intent the lock is let go. -/
def openLocked (s : Store) (t : Ticket) (key : String) : Except StorageError LockedIntent × Store :=
  match s.get key with
  | .error e => (.error e, s.release t)
  | .ok i => (.ok ⟨t, i, i.version, i.history.length, false⟩, s)

def expireLock (s : Store) (t : Ticket) (key : String) (timeout : Duration) : StorageError × Store :=
  (.lockTimeout key timeout, { s with locks := s.locks.expire t })

def cancelLock (s : Store) (t : Ticket) : Store := { s with locks := s.locks.cancel t }

/-- Locks a key while nobody else runs, so that a key that is held stays held for the whole wait. -/
def lockAlone (s : Store) (key : String) (timeout : Duration) :
    Except StorageError LockedIntent × Store :=
  let (t, s) := s.beginLock key
  if s.locks.phase? t = some .holding then s.openLocked t key
  else
    let (e, s) := s.expireLock t key timeout
    (.error e, s)

/-- Writes the staged intent, and to the journal what its history has beyond the one that was read; the lock is
let go in any case. -/
def commit (s : Store) (h : LockedIntent) : Except StorageError Intent × Store :=
  if !h.dirty then (.ok h.intent, s.release h.ticket)
  else
    match s.get h.intent.key with
    | .error e => (.error e, s.release h.ticket)
    | .ok current =>
      if current.version ≠ h.readVersion then
        (.error (.conflict h.intent.key h.readVersion current.version), s.release h.ticket)
      else
        let journal := s.log h.intent.key ++ h.intent.history.drop h.readHistoryLength
        (.ok h.intent, (s.write h.intent journal).release h.ticket)

def abort (s : Store) (h : LockedIntent) : Store := s.release h.ticket

end Store

end IntentCorrection
