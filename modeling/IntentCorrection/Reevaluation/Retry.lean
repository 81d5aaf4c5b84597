import IntentCorrection.Reevaluation.Error
import IntentCorrection.Reevaluation.Program

namespace IntentCorrection

variable {α : Type}

/-- Goes on after a pause, or at once if no attempt is left. Without an offset to draw the pause panics. -/
def afterPause (policy : BackoffPolicy) (attempt left : Nat) (again : Program (Except ReevaluationError α)) :
    Program (Except ReevaluationError α) :=
  if left = 0 then again
  else if policy.Drawable then do
    .ask (.pause policy attempt)
    again
  else return .error (.panicked .draw)

def retryFrom (policy : BackoffPolicy) (operation : String) (limit : Nat)
    (run : Nat → Program (Except ReevaluationError α)) :
    Nat → Nat → String → Program (Except ReevaluationError α)
  | 0, _, lastError => return .error (.deadlock operation limit lastError)
  | left + 1, attempt, _ => do
    match ← run attempt with
    | .ok a => return .ok a
    | .error e =>
      if e.isDeadlock then
        afterPause policy attempt left (retryFrom policy operation limit run left (attempt + 1) e.message)
      else return .error e

/-- Runs attempts numbered from zero, at most `limit` and at least one, until one does not end in a deadlock. -/
def retryOnDeadlock (policy : BackoffPolicy) (limit : Nat) (operation : String)
    (run : Nat → Program (Except ReevaluationError α)) : Program (Except ReevaluationError α) :=
  retryFrom policy operation (max limit 1) run (max limit 1) 0 ""

end IntentCorrection
