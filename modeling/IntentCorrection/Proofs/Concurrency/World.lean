import IntentCorrection.Proofs.Reevaluation.Job
import IntentCorrection.Proofs.Store.Contents

namespace IntentCorrection

/-- How the store may answer a call that needs no lock, and the store afterwards. The clock may show any time,
and the sink may take an event or refuse it. -/
def Store.Answers (s : Store) : (c : Call) → c.Answer → Store → Prop
  | .get key, a, s' => a = s.get key ∧ s' = s
  | .swap key i r expected, a, s' => s.compareAndSwap key i r expected = (a, s')
  | .lock .., _, _ => False
  | .commit h, a, s' => s.commit h = (a, s')
  | .abort h, a, s' => a = .ok () ∧ s' = s.abort h
  | .drop h, _, s' => s' = s.abort h
  | .pause .., _, s' | .now, _, s' | .emit _, _, s' => s' = s

inductive Progress where
  | running (rest : Program Outcome)
  | locking (ticket : Ticket) (key : String) (timeout : Duration)
      (next : Except StorageError LockedIntent → Program Outcome)
  | abandoned

def Progress.rest? : Progress → Option (Program Outcome)
  | .running p => some p
  | .locking _ key timeout next => some (.call (.lock key timeout) next)
  | .abandoned => none

structure Task where
  job : Job
  log : Log
  progress : Progress

structure Write where
  task : Nat
  job : Job
  /-- The intent that the task was shown last. -/
  base : Option Intent
  intent : Intent
  corrections : List CorrectionRecord

structure World where
  store : Store
  tasks : List Task
  /-- The writes that took effect, oldest first. -/
  landed : List Write

namespace World

def start (s : Store) : World := ⟨s, [], []⟩

def landedOn (w : World) (key : String) : List Write := w.landed.filter (·.intent.key = key)

def moved (w : World) (n : Nat) (task : Task) (progress : Progress) (s : Store) : World :=
  { w with store := s, tasks := w.tasks.set n { task with progress := progress } }

def answered (w : World) (n : Nat) (task : Task) (x : Exchange) (rest : Program Outcome) (s : Store) :
    World where
  store := s
  tasks := w.tasks.set n { task with log := task.log ++ [x], progress := .running rest }
  landed := w.landed ++
    (x.landed?.map fun p ↦ ⟨n, task.job, task.log.shown, p.intent, p.corrections⟩).toList

/-- Where a job can be waiting: for a slow answer, for a lock, for a pause to end, or for the sink. -/
def suspends : Call → Bool
  | .get _ | .lock .. | .pause .. | .emit _ => true
  | _ => false

inductive Step (w : World) : World → Prop
  | start (job : Job) : Step w { w with tasks := w.tasks ++ [⟨job, [], .running job.program⟩] }
  | answer {n : Nat} {task : Task} {c : Call} {next : c.Answer → Program Outcome} {a : c.Answer} {s : Store} :
      w.tasks[n]? = some task → task.progress = .running (.call c next) → w.store.Answers c a s →
      Step w (w.answered n task ⟨c, a⟩ (next a) s)
  /-- Takes a free lock or joins its queue. -/
  | queue {n : Nat} {task : Task} {key : String} {timeout : Duration}
      {next : Except StorageError LockedIntent → Program Outcome} :
      w.tasks[n]? = some task → task.progress = .running (.call (.lock key timeout) next) →
      Step w (w.moved n task (.locking (w.store.beginLock key).1 key timeout next) (w.store.beginLock key).2)
  /-- Runs again after it was handed the lock. -/
  | resume {n : Nat} {task : Task} {t : Ticket} {key : String} {timeout : Duration}
      {next : Except StorageError LockedIntent → Program Outcome} :
      w.tasks[n]? = some task → task.progress = .locking t key timeout next →
      w.store.locks.phase? t = some .granted →
      Step w (w.moved n task (.locking t key timeout next)
        { w.store with locks := w.store.locks.resume t })
  /-- Reads the intent under the lock. -/
  | openLock {n : Nat} {task : Task} {t : Ticket} {key : String} {timeout : Duration}
      {next : Except StorageError LockedIntent → Program Outcome} :
      w.tasks[n]? = some task → task.progress = .locking t key timeout next →
      w.store.locks.phase? t = some .holding →
      Step w (w.answered n task ⟨.lock key timeout, (w.store.openLocked t key).1⟩
        (next (w.store.openLocked t key).1) (w.store.openLocked t key).2)
  /-- Has waited for too long. -/
  | expire {n : Nat} {task : Task} {t : Ticket} {key : String} {timeout : Duration}
      {next : Except StorageError LockedIntent → Program Outcome} :
      w.tasks[n]? = some task → task.progress = .locking t key timeout next →
      w.store.locks.phase? t = some .waiting →
      Step w (w.answered n task ⟨.lock key timeout, .error (w.store.expireLock t key timeout).1⟩
        (next (.error (w.store.expireLock t key timeout).1)) (w.store.expireLock t key timeout).2)
  | abandon {n : Nat} {task : Task} {c : Call} {next : c.Answer → Program Outcome} :
      w.tasks[n]? = some task → task.progress = .running (.call c next) → suspends c = true →
      Step w (w.moved n task .abandoned w.store)
  | abandonLock {n : Nat} {task : Task} {t : Ticket} {key : String} {timeout : Duration}
      {next : Except StorageError LockedIntent → Program Outcome} :
      w.tasks[n]? = some task → task.progress = .locking t key timeout next →
      w.store.locks.phase? t ≠ some .holding →
      Step w (w.moved n task .abandoned (w.store.cancelLock t))

inductive Run (w : World) : World → Prop
  | nil : Run w w
  | snoc {u v : World} : Run w u → Step u v → Run w v

end World

end IntentCorrection
