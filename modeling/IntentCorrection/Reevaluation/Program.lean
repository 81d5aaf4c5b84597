import IntentCorrection.Audit
import IntentCorrection.Backoff
import IntentCorrection.Store.Basic

namespace IntentCorrection

inductive Call where
  | get (key : String)
  | swap (key : String) (intent : Intent) (record : CorrectionRecord) (expected : Nat)
  | lock (key : String) (timeout : Duration)
  | commit (handle : LockedIntent)
  | abort (handle : LockedIntent)
  /-- Lets a handle go unasked. -/
  | drop (handle : LockedIntent)
  /-- Waits for the delay of a policy before the retry of that number. -/
  | pause (policy : BackoffPolicy) (attempt : Nat)
  | now
  | emit (event : AuditEvent)

def Call.Answer : Call → Type
  | .get _ => Except StorageError Intent
  | .swap .. => Except StorageError Bool
  | .lock .. => Except StorageError LockedIntent
  | .commit _ => Except StorageError Intent
  | .abort _ => Except StorageError Unit
  | .drop _ => Unit
  | .pause .. => Unit
  | .now => Timestamp
  | .emit _ => Except AuditError Unit

/-- A program makes a call and goes on according to the answer. What the answers are, and what happens between the calls,
is up to whoever runs it. -/
inductive Program (α : Type) : Type where
  | done (a : α)
  | call (c : Call) (next : c.Answer → Program α)

namespace Program

variable {α β γ : Type}

def bind : Program α → (α → Program β) → Program β
  | .done a, f => f a
  | .call c next, f => .call c fun x ↦ (next x).bind f

instance : Monad Program where
  pure := .done
  bind := bind

def ask (c : Call) : Program c.Answer := .call c .done

@[simp] theorem pure_eq (a : α) : (pure a : Program α) = .done a := rfl

@[simp] theorem done_bind (a : α) (f : α → Program β) : (Program.done a >>= f) = f a := rfl

@[simp] theorem call_bind (c : Call) (next : c.Answer → Program α) (f : α → Program β) :
    (Program.call c next >>= f) = .call c fun x ↦ next x >>= f := rfl

@[simp] theorem ask_bind (c : Call) (f : c.Answer → Program β) : (ask c >>= f) = .call c f := rfl

theorem bind_done (p : Program α) : (p >>= Program.done) = p := by
  induction p with
  | done a => rfl
  | call c next ih => exact congrArg (Program.call c) (funext ih)

theorem bind_assoc (p : Program α) (f : α → Program β) (g : β → Program γ) :
    (p >>= f >>= g) = p >>= fun a ↦ f a >>= g := by
  induction p with
  | done a => rfl
  | call c next ih => exact congrArg (Program.call c) (funext ih)

instance : LawfulMonad Program :=
  LawfulMonad.mk' Program bind_done (fun _ _ ↦ rfl) bind_assoc

end Program

end IntentCorrection
