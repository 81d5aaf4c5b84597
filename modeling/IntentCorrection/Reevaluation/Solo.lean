import IntentCorrection.Reevaluation.Program

namespace IntentCorrection

/-- The store's own answer to a call; events are let go. -/
def Store.answerAlone (date : Timestamp) : (c : Call) → StateM Store c.Answer
  | .get key => return (← MonadState.get).get key
  | .swap key i r expected => modifyGet (·.compareAndSwap key i r expected)
  | .lock key timeout => modifyGet (·.lockAlone key timeout)
  | .commit handle => modifyGet (·.commit handle)
  | .abort handle => modifyGet fun s ↦ (.ok (), s.abort handle)
  | .drop handle => modify (·.abort handle)
  | .pause .. => return ()
  | .now => return date
  | .emit _ => return .ok ()

namespace Program

variable {α : Type}

def alone (date : Timestamp) : Program α → StateM Store α
  | .done a => return a
  | .call c next => do alone date (next (← Store.answerAlone date c))

def runAlone (p : Program α) (date : Timestamp) (s : Store) : α × Store := (p.alone date).run s

end Program

end IntentCorrection
