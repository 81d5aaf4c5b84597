import IntentCorrection.Simulation.Basic

namespace IntentCorrection.Simulation

variable {α β : Type}

section

variable (d : Option Deadline) (s : Simulation)

def play (x : Run α) : Except Duration α × Simulation := StateT.run (ExceptT.run (ReaderT.run x d)) s

@[simp] theorem play_pure (a : α) : play d s (pure a) = (.ok a, s) := rfl

@[simp] theorem play_get : play d s MonadState.get = (.ok s, s) := rfl

@[simp] theorem play_read : play d s read = (.ok d, s) := rfl

@[simp] theorem play_modify (f : Simulation → Simulation) : play d s (modify f) = (.ok (), f s) := rfl

theorem play_modifyGet (g : Simulation → α × Simulation) : play d s (modifyGet g) = (.ok (g s).1, (g s).2) := rfl

theorem play_onStore (g : Store → α × Store) :
    play d s (onStore g) = (.ok (g s.store).1, { s with store := (g s.store).2 }) := rfl

@[simp] theorem play_throw (limit : Duration) : play d s (throw limit : Run α) = (.error limit, s) := rfl

theorem play_bind (x : Run α) (f : α → Run β) : play d s (x >>= f) =
    match play d s x with
    | (.ok a, s') => play d s' (f a)
    | (.error limit, s') => (.error limit, s') := by
  change (match play d s x with | (a, s') => StateT.run (ExceptT.bindCont (fun a ↦ f a d) a) s') = _
  rcases play d s x with ⟨a | a, s'⟩ <;> rfl

theorem play_tryCatch (x : Run α) (f : Duration → Run α) : play d s (tryCatch x f) =
    match play d s x with
    | (.ok a, s') => (.ok a, s')
    | (.error limit, s') => play d s' (f limit) := by
  change ExceptT.tryCatch (x d) (fun limit ↦ f limit d) s = match x d s with
    | (.ok a, s') => (.ok a, s')
    | (.error limit, s') => f limit d s'
  unfold ExceptT.tryCatch ExceptT.mk
  simp only [bind, StateT.bind]
  rcases x d s with ⟨a | a, s'⟩ <;> rfl

end

variable {d : Deadline} {s s' : Simulation} {x : Run α} {f : α → Run β}

/-- A run comes to an end as `ends` says, or it is cut off as `cuts` says. -/
def Plays (d : Deadline) (s : Simulation) (x : Run α) (ends : α → Simulation → Prop) (cuts : Simulation → Prop) :
    Prop :=
  match play (some d) s x with
  | (.ok a, s') => ends a s'
  | (.error limit, s') => limit = d.limit ∧ cuts s'

namespace Plays

variable {ends ends' : α → Simulation → Prop} {cuts cuts' : Simulation → Prop}

theorem of_play {a : α} (h : play (some d) s x = (.ok a, s')) (hends : ends a s') : Plays d s x ends cuts := by
  unfold Plays
  rw [h]
  exact hends

theorem changes {g : Store → α × Store} (h : ends (g s.store).1 { s with store := (g s.store).2 }) :
    Plays d s (onStore g) ends cuts := of_play (play_onStore _ _ _) h

theorem bind {ends : β → Simulation → Prop} (h : Plays d s x (fun a s ↦ Plays d s (f a) ends cuts) cuts) :
    Plays d s (x >>= f) ends cuts := by
  unfold Plays at h ⊢
  rw [play_bind]
  rcases hx : play (some d) s x with ⟨limit | a, s'⟩
  all_goals
    rw [hx] at h
    exact h

theorem mono (h : Plays d s x ends cuts) (hends : ∀ a s, ends a s → ends' a s) (hcuts : ∀ s, cuts s → cuts' s) :
    Plays d s x ends' cuts' := by
  unfold Plays at h ⊢
  rcases hx : play (some d) s x with ⟨limit | a, s'⟩
  all_goals rw [hx] at h
  · exact ⟨h.1, hcuts s' h.2⟩
  · exact hends a s' h

theorem cleanUp {g : Store → Store} (h : Plays d s x ends fun s ↦ cuts { s with store := g s.store }) :
    Plays d s (tryCatch x fun limit ↦ do onStore fun s ↦ ((), g s); throw limit) ends cuts := by
  unfold Plays at h ⊢
  rw [play_tryCatch]
  rcases hx : play (some d) s x with ⟨limit | a, s'⟩
  all_goals
    rw [hx] at h
    exact h

end Plays

structure Waited (s s' : Simulation) : Prop where
  clock : s.clock ≤ s'.clock
  rest : s' = { s with clock := s'.clock, allowance := s'.allowance }

/-- Only time goes by, and a cut comes only after the deadline. -/
def Waits (x : Run Unit) : Prop :=
  ∀ d s, Plays d s x (fun _ s' ↦ s.Waited s') fun s' ↦ s.Waited s' ∧ d.moment ≤ s'.clock

theorem waits_spend : Waits spend := by
  intro d s
  have hsame : s.Waited s := ⟨Nat.le_refl _, rfl⟩
  have hspent : ∀ n, s.Waited { s with allowance := n } := fun n ↦ ⟨Nat.le_refl _, rfl⟩
  unfold Plays spend
  by_cases h : s.allowance = 0
  · by_cases hd : d.moment ≤ s.clock
    · simp [play_bind, h, hd, hsame]
    · simp [play_bind, h, hd, hspent]
  · simp [play_bind, h, hspent]

theorem waits_waitUntil (t : Moment) : Waits (waitUntil t) := by
  intro d s
  have hsame : s.Waited s := ⟨Nat.le_refl _, rfl⟩
  have harrived : ∀ t n, s.clock ≤ t → s.Waited { s with clock := t, allowance := n } := fun t n h ↦ ⟨h, rfl⟩
  unfold Plays waitUntil arrive
  by_cases h : s.clock < t
  · by_cases hd : d.moment < t
    · have hmax : s.clock ≤ max s.clock d.moment := Nat.le_max_left _ _
      have hlate : d.moment ≤ max s.clock d.moment := Nat.le_max_right _ _
      simp [play_bind, h, hd, harrived, hmax, hlate]
    · simp [play_bind, h, hd, harrived, Nat.le_of_lt h]
  · simp [play_bind, h, hsame]

theorem waits_wait (t : Duration) : Waits (wait t) := fun d s ↦
  .bind (.of_play (play_get _ _) (waits_waitUntil _ d s))

theorem waits_sleep (t : Duration) : Waits (sleep t) := by
  unfold sleep
  split
  · exact waits_spend
  · exact waits_wait _

/-- Without a deadline the run comes to an end, and under a deadline to the same end; or it is cut off, and the end
would not have come before the deadline. -/
def Heeds (x : Run α) : Prop :=
  ∀ s, ∃ a s', play none s x = (.ok a, s') ∧ s.clock ≤ s'.clock ∧
    ∀ d, Plays d s x (fun b t ↦ b = a ∧ t = s') fun _ ↦ d.moment ≤ s'.clock

/-- What takes no time does not heed the deadline. -/
theorem heeds_of_play {g : Simulation → α × Simulation} (h : ∀ d s, play d s x = (.ok (g s).1, (g s).2))
    (hclock : ∀ s, s.clock ≤ (g s).2.clock) : Heeds x := fun s ↦
  ⟨(g s).1, (g s).2, h none s, hclock s, fun d ↦ .of_play (h (some d) s) ⟨rfl, rfl⟩⟩

theorem heeds_pure (a : α) : Heeds (pure a) := heeds_of_play (g := fun s ↦ (a, s)) (fun _ _ ↦ rfl) fun _ ↦ Nat.le_refl _

theorem heeds_onStore (g : Store → α × Store) : Heeds (onStore g) :=
  heeds_of_play (g := fun s ↦ ((g s.store).1, { s with store := (g s.store).2 })) (fun d s ↦ play_onStore d s g)
    fun _ ↦ Nat.le_refl _

theorem heeds_modifyGet {g : Simulation → α × Simulation} (h : ∀ s, s.clock ≤ (g s).2.clock) : Heeds (modifyGet g) :=
  heeds_of_play (fun d s ↦ play_modifyGet d s g) h

theorem heeds_get : Heeds (MonadState.get : Run Simulation) :=
  heeds_of_play (g := fun s ↦ (s, s)) (fun _ _ ↦ rfl) fun _ ↦ Nat.le_refl _

theorem Heeds.bind (hx : Heeds x) (hf : ∀ a, Heeds (f a)) : Heeds (x >>= f) := by
  intro s
  obtain ⟨a, s₁, hplay, hclock, hdeadline⟩ := hx s
  obtain ⟨b, s₂, hplay', hclock', hdeadline'⟩ := hf a s₁
  refine ⟨b, s₂, by rw [play_bind, hplay]; exact hplay', Nat.le_trans hclock hclock', fun d ↦ ?_⟩
  refine .bind ((hdeadline d).mono ?_ fun _ h ↦ Nat.le_trans h hclock')
  rintro _ _ ⟨rfl, rfl⟩
  exact hdeadline' d

theorem Heeds.cleanUp {g : Store → Store} (hx : Heeds x) :
    Heeds (tryCatch x fun limit ↦ do onStore fun s ↦ ((), g s); throw limit) := by
  intro s
  obtain ⟨a, s', hplay, hclock, hdeadline⟩ := hx s
  exact ⟨a, s', by rw [play_tryCatch, hplay], hclock, fun d ↦ .cleanUp (hdeadline d)⟩

theorem heeds_spend : Heeds spend := by
  intro s
  by_cases h : s.allowance = 0
  · refine ⟨(), { s with allowance := fullAllowance - 1 }, by simp [spend, play_bind, h], Nat.le_refl _, fun d ↦ ?_⟩
    unfold Plays spend
    by_cases hd : d.moment ≤ s.clock
    · simp [play_bind, h, hd]
    · simp [play_bind, h, hd]
  · refine ⟨(), { s with allowance := s.allowance - 1 }, by simp [spend, play_bind, h], Nat.le_refl _, fun d ↦ ?_⟩
    simp [Plays, spend, play_bind, h]

theorem heeds_waitUntil (t : Moment) : Heeds (waitUntil t) := by
  intro s
  by_cases h : s.clock < t
  · refine ⟨(), { s with clock := t, allowance := fullAllowance - 1 }, by simp [waitUntil, arrive, play_bind, h],
      Nat.le_of_lt h, fun d ↦ ?_⟩
    unfold Plays waitUntil arrive
    by_cases hd : d.moment < t
    · simp [play_bind, h, hd, Nat.le_of_lt hd]
    · simp [play_bind, h, hd]
  · exact ⟨(), s, by simp [waitUntil, play_bind, h], Nat.le_refl _, fun d ↦ by simp [Plays, waitUntil, play_bind, h]⟩

theorem heeds_sleep (t : Duration) : Heeds (sleep t) := by
  unfold sleep wait
  split
  · exact heeds_spend
  · exact heeds_get.bind fun _ ↦ heeds_waitUntil _

theorem heeds_lock (key : String) (timeout : Duration) : Heeds (lock key timeout) := by
  unfold lock wait
  refine heeds_spend.cleanUp.bind fun _ ↦ (heeds_onStore _).bind fun ticket ↦ heeds_get.bind fun s ↦ ?_
  split
  · exact heeds_onStore _
  · refine (heeds_get.bind fun _ ↦ heeds_waitUntil _).cleanUp.bind fun _ ↦ (heeds_onStore _).bind fun e ↦ ?_
    exact heeds_pure _

theorem heeds_rivalChanges (key : String) (change : RivalChange) : Heeds (rivalChanges key change) := by
  refine (heeds_lock key rivalPatience).bind fun a ↦ ?_
  cases a with
  | error e => exact heeds_pure _
  | ok handle =>
    refine heeds_get.bind fun s ↦ ?_
    cases change.apply? handle.intent s.date with
    | none => exact (heeds_onStore _).bind fun _ ↦ heeds_pure _
    | some next => exact (heeds_onStore _).bind fun _ ↦ heeds_pure _

theorem heeds_nextAction (m : Method) : Heeds (nextAction m) :=
  heeds_modifyGet fun _ ↦ Nat.le_refl _

theorem heeds_finish {γ : Type} (m : Method) (handle : LockedIntent) (g : Store → Except StorageError γ × Store) :
    Heeds (finish m handle g) := by
  refine (heeds_nextAction m).bind fun action ↦ ?_
  cases action with
  | fail fault => exact (heeds_onStore _).bind fun _ ↦ heeds_pure _
  | _ => exact heeds_onStore _

theorem heeds_answer (c : Call) : Heeds (answer c) := by
  cases c with
  | get key =>
    refine (heeds_nextAction .get).bind fun action ↦ ?_
    cases action with
    | fail fault => exact heeds_pure _
    | delay t => exact (heeds_sleep t).bind fun _ ↦ heeds_onStore _
    | _ => exact heeds_onStore _
  | swap key i r expected =>
    refine (heeds_nextAction .swap).bind fun action ↦ ?_
    cases action with
    | fail _ | refuse => exact heeds_pure _
    | rivalSwap => exact (heeds_onStore _).bind fun _ ↦ heeds_onStore _
    | rivalSwapOnly => exact (heeds_onStore _).bind fun _ ↦ heeds_pure _
    | rival change =>
      refine (heeds_rivalChanges key change).bind fun a ↦ ?_
      cases a with
      | error e => exact heeds_pure _
      | ok _ => exact heeds_onStore _
    | _ => exact heeds_onStore _
  | lock key timeout =>
    refine (heeds_nextAction .lock).bind fun action ↦ ?_
    cases action with
    | fail fault => exact heeds_pure _
    | delay t => exact (heeds_sleep t).bind fun _ ↦ heeds_lock key timeout
    | rival change =>
      refine (heeds_rivalChanges key change).bind fun a ↦ ?_
      cases a with
      | error e => exact heeds_pure _
      | ok _ => exact heeds_lock key timeout
    | _ => exact heeds_lock key timeout
  | commit handle => exact heeds_finish .commit handle _
  | abort handle => exact heeds_finish .abort handle _
  | drop handle => exact heeds_onStore fun s ↦ ((), s.abort handle)
  | pause policy attempt => exact heeds_sleep _
  | now => exact heeds_get.bind fun _ ↦ heeds_pure _
  | emit event =>
    refine heeds_modifyGet (α := Except AuditError Unit) fun s ↦ ?_
    split <;> exact Nat.le_refl _

theorem heeds_run (p : Program α) : Heeds (run p) := by
  induction p with
  | done a => exact heeds_pure a
  | call c next ih => exact (heeds_answer c).bind ih

def reported (key : String) :
    Except Duration (Except ReevaluationError α) × Simulation → Except ReevaluationError α × Simulation
  | (.ok result, s) => (result, s)
  | (.error limit, s) => (.error (.deadlineExceeded key limit), s)

theorem run_runWithin (limit : Option Duration) (key : String) (p : Program (Except ReevaluationError α))
    (s : Simulation) : (runWithin limit key p).run s =
      reported key (play (limit.map (⟨s.clock, ·⟩)) { s with allowance := fullAllowance } (run p)) := by
  rcases hplay : play (limit.map (⟨s.clock, ·⟩)) { s with allowance := fullAllowance } (run p) with ⟨a | a, s'⟩
  all_goals
    unfold play ExceptT.run at hplay
    simp only [runWithin, StateT.run_bind, StateT.run_modify, StateT.run_get, pure_bind, hplay]
    rfl

/-- With a deadline a run gives what it gives without one, unless that would take until the deadline at least. -/
theorem runWithin_eq_or (limit : Duration) (key : String) (p : Program (Except ReevaluationError α)) (s : Simulation) :
    (runWithin (some limit) key p).run s = (runWithin none key p).run s ∨
      s.clock + limit.nanoseconds ≤ ((runWithin none key p).run s).2.clock ∧
        ((runWithin (some limit) key p).run s).1 = .error (.deadlineExceeded key limit) := by
  obtain ⟨result, s', hplay, -, hdeadline⟩ := heeds_run p { s with allowance := fullAllowance }
  have hplays := hdeadline ⟨s.clock, limit⟩
  unfold Plays at hplays
  rw [run_runWithin, run_runWithin, Option.map_none, hplay, Option.map_some]
  rcases hcut : play (some ⟨s.clock, limit⟩) { s with allowance := fullAllowance } (run p) with ⟨limit' | a, s''⟩
  all_goals rw [hcut] at hplays
  · obtain ⟨rfl, hlate⟩ := hplays
    exact .inr ⟨hlate, rfl⟩
  · obtain ⟨rfl, rfl⟩ := hplays
    exact .inl rfl

end IntentCorrection.Simulation
