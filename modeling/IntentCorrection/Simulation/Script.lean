import IntentCorrection.Intent.Correction
import IntentCorrection.Store.Error

namespace IntentCorrection.Simulation

inductive Fault where
  | deadlock | backend | notFound | alreadyExists | timeout | conflict
  deriving DecidableEq, Repr

def Fault.error (key : String) : Fault → StorageError
  | .deadlock => .deadlock key "injected lock cycle"
  | .backend => .backend "disk full"
  | .notFound => .notFound key
  | .alreadyExists => .alreadyExists key
  | .timeout => .lockTimeout key (.ofMilliseconds 20)
  | .conflict => .conflict key 1 2

inductive RivalChange where
  | correct (diff : Diff) (source : Actor) (reason : String) (time : Timestamp)
  | transition (requested : Status)
  deriving Repr

/-- The changed intent, or nothing if the change is refused. A correction made already changes nothing. -/
def RivalChange.apply? (change : RivalChange) (i : Intent) (now : Timestamp) : Option Intent :=
  match change with
  | .correct diff source reason time =>
    match i.correct diff source reason none time with
    | .ok (.applied next _) => some next
    | .ok (.alreadyApplied _) => some i
    | .error _ => none
  | .transition requested => (i.transition requested now).toOption

/-- What happens at a call. An action that the method has no use for lets the call proceed. -/
inductive Action where
  | proceed
  | fail (fault : Fault)
  | delay (d : Duration)
  /-- A swap answers that it lost. -/
  | refuse
  /-- The same swap is done by someone else before. -/
  | rivalSwap
  /-- The same swap is done by someone else in place of this one. -/
  | rivalSwapOnly
  /-- Someone else changes the intent under its lock before. -/
  | rival (change : RivalChange)
  deriving Repr

structure Schedule where
  actions : List Action
  rest : Action
  deriving Repr

namespace Schedule

def quiet : Schedule := ⟨[], .proceed⟩

def next (s : Schedule) : Action × Schedule :=
  match s.actions with
  | [] => (s.rest, s)
  | a :: r => (a, ⟨r, s.rest⟩)

end Schedule

inductive Method where
  | get | swap | lock | commit | abort
  deriving DecidableEq, Repr

def Method.all : List Method := [.get, .swap, .lock, .commit, .abort]

abbrev Script := Method → Schedule

end IntentCorrection.Simulation
