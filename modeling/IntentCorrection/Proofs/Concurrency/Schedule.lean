import IntentCorrection.Proofs.Concurrency.World
import IntentCorrection.Reevaluation.Solo

namespace IntentCorrection

theorem Store.answers_answerAlone {c : Call} (h : ∀ key timeout, c ≠ .lock key timeout) (now : Timestamp)
    (s : Store) : s.Answers c (answerAlone now c s).1 (answerAlone now c s).2 := by
  cases c with
  | lock key timeout => exact absurd rfl (h key timeout)
  | get _ | abort _ => exact ⟨rfl, rfl⟩
  | swap _ _ _ _ | commit _ | drop _ | pause _ _ | now | emit _ => rfl

namespace World

def advance (now : Timestamp) (w : World) (n : Nat) : World :=
  match w.tasks[n]? with
  | none => w
  | some task =>
    match task.progress with
    | .running (.done _) | .abandoned => w
    | .running (.call (.lock key timeout) next) =>
      w.moved n task (.locking (w.store.beginLock key).1 key timeout next) (w.store.beginLock key).2
    | .running (.call c next) =>
      w.answered n task ⟨c, (Store.answerAlone now c w.store).1⟩ (next (Store.answerAlone now c w.store).1)
        (Store.answerAlone now c w.store).2
    | .locking t key timeout next =>
      match w.store.locks.phase? t with
      | some .holding =>
        w.answered n task ⟨.lock key timeout, (w.store.openLocked t key).1⟩
          (next (w.store.openLocked t key).1) (w.store.openLocked t key).2
      | some .granted =>
        w.moved n task (.locking t key timeout next) { w.store with locks := w.store.locks.resume t }
      | _ => w

def scheduled (s : Store) (jobs : List Job) (now : Timestamp) (turns : List Nat) : World :=
  turns.foldl (advance now)
    (jobs.foldl (fun w job ↦ { w with tasks := w.tasks ++ [⟨job, [], .running job.program⟩] }) (start s))

variable {u w : World}

theorem Run.advance (h : u.Run w) (now : Timestamp) (n : Nat) : u.Run (w.advance now n) := by
  unfold World.advance
  split
  · exact h
  · rename_i task hn
    split
    · exact h
    · exact h
    · rename_i hp
      exact h.snoc (.queue hn hp)
    · rename_i c next hc hp
      have hlock : ∀ key timeout, c ≠ .lock key timeout := by
        rintro key timeout rfl
        exact hc key timeout next rfl .rfl
      exact h.snoc (.answer hn hp (Store.answers_answerAlone hlock now w.store))
    · rename_i hp
      split
      · rename_i hphase
        exact h.snoc (.openLock hn hp hphase)
      · rename_i hphase
        exact h.snoc (.resume hn hp hphase)
      · exact h

theorem run_scheduled (s : Store) (jobs : List Job) (now : Timestamp) (turns : List Nat) :
    (start s).Run (scheduled s jobs now turns) := by
  have hjobs : ∀ w, (start s).Run w → (start s).Run
      (jobs.foldl (fun w job ↦ { w with tasks := w.tasks ++ [⟨job, [], .running job.program⟩] }) w) := by
    induction jobs with
    | nil => exact fun w hw ↦ hw
    | cons job jobs ih => exact fun w hw ↦ ih _ (hw.snoc (.start job))
  have hturns : ∀ w, (start s).Run w → (start s).Run (turns.foldl (World.advance now) w) := by
    induction turns with
    | nil => exact fun w hw ↦ hw
    | cons n turns ih => exact fun w hw ↦ ih _ (hw.advance now n)
  exact hturns _ (hjobs _ .nil)

end World

namespace Race

open World

def noon : Timestamp := ⟨⟨2024, 1, 1, by decide⟩, ⟨12, 0, 0, 0, by decide⟩, 0, by decide⟩

def payment : Intent := .received "order-1" "payment" [("amount", .ofInt 100)] (.ofRandom 0) noon

def request : ReevaluationRequest :=
  ⟨"order-1", .ofPayload [("amount", .ofInt 90)], .yuno, "wrong amount", none⟩

def jobs : List Job :=
  [.correction .default request, .correction .default request, .statusChange .default "order-1" .completed]

def store : Store := ⟨[("order-1", payment)], [("order-1", [])], .empty⟩

theorem ofIntents_payment : Store.ofIntents [payment] = .ok store := rfl

def world : World := scheduled store jobs noon [0, 1, 0, 1, 0, 1, 0, 0, 2, 2, 2, 2, 2, 2]

theorem run_world : (start store).Run world := run_scheduled store jobs noon _

end Race

end IntentCorrection
