import IntentCorrection.Diff.Application
import IntentCorrection.Intent.History
import IntentCorrection.Number.Word

namespace IntentCorrection

inductive CorrectionOutcome where
  /-- The next version, and the record that was added to its history. -/
  | applied (intent : Intent) (record : CorrectionRecord)
  /-- The record of the same correction, found in the history. -/
  | alreadyApplied (record : CorrectionRecord)
  deriving DecidableEq, Repr

def CorrectionOutcome.record : CorrectionOutcome → CorrectionRecord
  | .applied _ r | .alreadyApplied r => r

def maxReasonLength : Nat := 1000

def validateReason (reason : String) : Except CorrectionError Unit :=
  if reason.length = 0 ∨ maxReasonLength < reason.length then
    .error (.invalidReason reason.length maxReasonLength)
  else .ok ()

def validateTransition (current requested : Status) : Except CorrectionError Unit :=
  if current.canBecome requested then .ok () else .error (.invalidTransition current requested)

namespace Intent

def corrected (i : Intent) (payload : ValueMap) (record : CorrectionRecord) : Intent :=
  { i with
    payload := payload
    history := i.history ++ [record]
    status := .corrected
    version := i.version + 1
    updatedAt := record.appliedAt }

/-- The version is not the largest that its word has room for. -/
def HasRoom (i : Intent) : Prop := i.version + 1 < Word.size64

instance (i : Intent) : Decidable i.HasRoom := inferInstanceAs (Decidable (_ < _))

/-- Applies a diff at a given time. A terminal intent takes none; a correction found in the history is not
applied again. -/
def correct (i : Intent) (diff : Diff) (source : Actor) (reason : String)
    (metadata : Option ValueMap) (now : Timestamp) : Except CorrectionError CorrectionOutcome :=
  if i.status.isTerminal then .error (.terminal i.status)
  else
    match diff.payload with
    | .error e => .error e
    | .ok changes =>
      let id := correctionId i.key diff
      match History.find? i.history id with
      | some record => .ok (.alreadyApplied record)
      | none =>
        match Diff.apply i.payload changes with
        | .error e => .error e
        | .ok payload =>
          let record := ⟨id, source, reason, diff, now, metadata⟩
          if i.HasRoom then .ok (.applied (i.corrected payload record) record)
          else .error (.panicked .version)

/-- Moves to a status that the lifecycle allows; the version counts real changes only. -/
def transition (i : Intent) (requested : Status) (now : Timestamp) : Except CorrectionError Intent :=
  match validateTransition i.status requested with
  | .error e => .error e
  | .ok () =>
    if i.status = requested then .ok i
    else if i.HasRoom then .ok { i with status := requested, version := i.version + 1, updatedAt := now }
    else .error (.panicked .version)

end Intent

end IntentCorrection
