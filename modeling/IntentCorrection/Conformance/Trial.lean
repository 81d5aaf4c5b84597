import IntentCorrection.Conformance.Subject
import IntentCorrection.Intent.Codec
import IntentCorrection.Intent.Correction
import IntentCorrection.Json.Writer

namespace IntentCorrection.Conformance

inductive Finding where
  | complaint (text : String)
  /-- An intent was read back other than it was inserted. -/
  | readBack (read inserted : Intent)
  /-- A refused swap changed an intent. -/
  | changed (read : Intent)
  deriving DecidableEq, Repr

def dump (i : Intent) : String := String.ofList i.toJson.compact

def Finding.message : Finding → String
  | .complaint text => text
  | .readBack read inserted => "read back " ++ dump read ++ ", inserted " ++ dump inserted
  | .changed read => "record changed after refused cas: " ++ dump read

/-- The state of a test: the store, and what intents are made from. -/
structure Bench (σ : Type) where
  store : σ
  date : Timestamp
  made : Nat

abbrev Trial (σ : Type) := ExceptT Finding (StateM (Bench σ))

namespace Trial

variable {σ η α : Type}

def fail (text : String) : Trial σ α := throw (.complaint text)

def ask (x : StateM σ α) : Trial σ α :=
  modifyGet fun b ↦
    let (a, store) := x.run b.store
    (a, { b with store := store })

def expect (what : String) (x : StateM σ (Except StorageError α)) : Trial σ α := do
  match ← ask x with
  | .ok a => return a
  | .error e => fail (what ++ ": " ++ e.message)

def samplePayload : ValueMap :=
  [("amount", .ofInt 100), ("currency", .string "USD"), ("customer", .map [("id", .string "c-1")])]

def makeIntent (key : String) : Trial σ Intent :=
  modifyGet fun b ↦
    (.received key "payment" samplePayload (.ofRandom b.made) b.date, { b with made := b.made + 1 })

def makeCorrection (i : Intent) (amount : Int) : Trial σ (Intent × CorrectionRecord) := do
  match i.correct (.ofPayload [("amount", .ofInt amount)]) .yuno "conformance correction" none
      (← get).date with
  | .error e => fail ("apply_correction: " ++ e.message)
  | .ok (.applied next record) => return (next, record)
  | .ok (.alreadyApplied _) => fail ("correction to " ++ toString amount ++ " was already applied")

def seed (s : Subject σ η) (key : String) : Trial σ Intent := do
  let i ← makeIntent key
  expect ("insert " ++ key) (s.insert i)
  return i

def amount? (i : Intent) : Option Int := (i.payload.get? "amount").bind Value.int64?

def amountText : Option Int → String
  | some n => "Some(" ++ toString n ++ ")"
  | none => "None"

end Trial

end IntentCorrection.Conformance
