import IntentCorrection.Proofs.Concurrency.Schedule
import IntentCorrection.Proofs.Concurrency.Served
import IntentCorrection.Proofs.Reevaluation.Conduct

namespace IntentCorrection

/-- One job after the other leads from `i` by the writes to the last intent. Each writes what it makes of the
intent that the one before left, and that is the intent that it was shown. -/
inductive Serial (i : Intent) : List Write → Intent → Prop
  | nil : Serial i [] i
  | snoc {ws : List Write} {j : Intent} {w : Write} : Serial i ws j → w.base = some j →
      w.job.perform j w.intent.updatedAt = some (w.intent, w.corrections) →
      w.intent.version = j.version + 1 → Serial i (ws ++ [w]) w.intent

/-- The writes to a key account for what is stored under it and for its journal. -/
inductive Accounted : Option Intent → List Write → Option Intent → List CorrectionRecord → Prop
  | absent : Accounted none [] none []
  | present {i j : Intent} {ws : List Write} : Serial i ws j →
      Accounted (some i) ws (some j) (i.history ++ ws.flatMap Write.corrections)

namespace Serial

variable {i j : Intent} {ws : List Write}

theorem history_eq (h : Serial i ws j) : j.history = i.history ++ ws.flatMap Write.corrections := by
  induction h with
  | nil => simp
  | snoc _ _ hp _ ih =>
    obtain ⟨-, -, hhist, -⟩ := Job.perform_spec hp
    rw [hhist, ih, List.flatMap_append, List.append_assoc]
    simp

theorem past_le (h : Serial i ws j) {a : Intent} (ha : a = i ∨ ∃ w ∈ ws, w.intent = a) :
    a.version ≤ j.version ∧ (a.version = j.version → a = j) ∧ a.history <+: j.history := by
  induction h with
  | nil =>
    rcases ha with rfl | ⟨w, hw, -⟩
    · exact ⟨Nat.le_refl _, fun _ ↦ rfl, List.prefix_rfl⟩
    · simp at hw
  | @snoc ws j w _ _ hp hv ih =>
    obtain ⟨-, -, hhist, -⟩ := Job.perform_spec hp
    have hold : (a = i ∨ ∃ w ∈ ws, w.intent = a) ∨ a = w.intent := by
      rcases ha with ha | ⟨u, hu, ha⟩
      · exact .inl (.inl ha)
      · rcases List.mem_append.1 hu with hu | hu
        · exact .inl (.inr ⟨u, hu, ha⟩)
        · exact .inr (by rw [← ha, List.mem_singleton.1 hu])
    rcases hold with hold | rfl
    · obtain ⟨hle, -, hpre⟩ := ih hold
      refine ⟨by omega, fun he ↦ by omega, ?_⟩
      rw [hhist]
      exact hpre.trans (List.prefix_append _ _)
    · exact ⟨Nat.le_refl _, fun _ ↦ rfl, List.prefix_rfl⟩

end Serial

theorem Serial.last_mem {i j : Intent} {ws : List Write} (h : Serial i ws j) :
    j = i ∨ ∃ w ∈ ws, w.intent = j := by
  cases h with
  | nil => exact .inl rfl
  | @snoc ws j w => exact .inr ⟨w, by simp, rfl⟩

theorem Accounted.snoc {first : Option Intent} {ws : List Write} {j : Intent}
    {journal : List CorrectionRecord} {w : Write} (h : Accounted first ws (some j) journal)
    (hb : w.base = some j)
    (hp : w.job.perform j w.intent.updatedAt = some (w.intent, w.corrections)) :
    Accounted first (ws ++ [w]) (some w.intent) (journal ++ w.corrections) := by
  cases h with
  | @present i j ws hs =>
    obtain ⟨-, hv, -⟩ := Job.perform_spec hp
    have hacc := Accounted.present (hs.snoc hb hp hv)
    rw [List.flatMap_append, ← List.append_assoc] at hacc
    simpa using hacc

theorem Accounted.cases {first last : Option Intent} {ws : List Write} {journal : List CorrectionRecord}
    (h : Accounted first ws last journal) :
    (first = none ∧ ws = [] ∧ last = none ∧ journal = []) ∨
      ∃ i j, first = some i ∧ last = some j ∧ Serial i ws j ∧ journal = j.history := by
  cases h with
  | absent => exact .inl ⟨rfl, rfl, rfl, rfl⟩
  | present hs => exact .inr ⟨_, _, rfl, rfl, hs, hs.history_eq.symm⟩

theorem Log.exists_of_shown {log : Log} {i : Intent} (h : log.shown = some i) :
    ∃ x ∈ log, x.shown? = some i :=
  List.mem_filterMap.1 (List.mem_of_getLast? h)

namespace World

def Stored (initial : Store) (landed : List Write) (i : Intent) : Prop :=
  initial.intents.get? i.key = some i ∨ ∃ w ∈ landed, w.intent = i

theorem Stored.append {initial : Store} {landed : List Write} {i : Intent}
    (h : Stored initial landed i) (ws : List Write) : Stored initial (landed ++ ws) i :=
  h.imp_right fun ⟨w, hw, he⟩ ↦ ⟨w, List.mem_append_left _ hw, he⟩

/-- What holds of one task: it is where its program leads it, it was shown what was stored at some time, and its
own writes are among those that landed. -/
structure TaskInv (initial : Store) (landed : List Write) (n : Nat) (task : Task) : Prop where
  leads : ∀ p, task.progress.rest? = some p → task.job.program.Leads task.log p
  honest : ∀ x ∈ task.log, x.Honest
  shown : ∀ x ∈ task.log, ∀ i, x.shown? = some i → Stored initial landed i
  wrote : ∀ x ∈ task.log, ∀ p, x.landed? = some p → ∃ w ∈ landed,
    w.task = n ∧ w.job = task.job ∧ w.intent = p.intent ∧ w.corrections = p.corrections

theorem TaskInv.append {initial : Store} {landed : List Write} {n : Nat} {task : Task}
    (h : TaskInv initial landed n task) (ws : List Write) : TaskInv initial (landed ++ ws) n task where
  leads := h.leads
  honest := h.honest
  shown x hx i hi := (h.shown x hx i hi).append ws
  wrote x hx p hp :=
    let ⟨w, hw, he⟩ := h.wrote x hx p hp
    ⟨w, List.mem_append_left _ hw, he⟩

theorem TaskInv.exchanged {initial : Store} {landed : List Write} {n : Nat} {task : Task} {c : Call}
    {next : c.Answer → Program Outcome} {a : c.Answer} (h : TaskInv initial landed n task)
    (hrest : task.progress.rest? = some (.call c next)) (hh : Exchange.Honest ⟨c, a⟩)
    (hs : ∀ i, Exchange.shown? ⟨c, a⟩ = some i → Stored initial landed i) :
    TaskInv initial (landed ++ ((Exchange.landed? ⟨c, a⟩).map fun p ↦
        (⟨n, task.job, task.log.shown, p.intent, p.corrections⟩ : Write)).toList) n
      { task with log := task.log ++ [⟨c, a⟩], progress := .running (next a) } := by
  refine ⟨?_, ?_, ?_, ?_⟩
  · rintro p ⟨⟩
    exact .snoc a (h.leads _ hrest)
  all_goals
    intro x hx
    rcases List.mem_append.1 hx with hx | hx
  · exact h.honest x hx
  · rw [List.mem_singleton.1 hx]
    exact hh
  · exact (h.append _).shown x hx
  · rw [List.mem_singleton.1 hx]
    exact fun i hi ↦ (hs i hi).append _
  · exact (h.append _).wrote x hx
  · rw [List.mem_singleton.1 hx]
    intro p hp
    exact ⟨⟨n, task.job, task.log.shown, p.intent, p.corrections⟩, by simp [hp], rfl, rfl, rfl, rfl⟩

structure Inv (initial : Store) (w : World) : Prop where
  keyed : w.store.Keyed
  accounted : ∀ key, Accounted (initial.intents.get? key) (w.landedOn key)
    (w.store.intents.get? key) (w.store.log key)
  tasks : ∀ n task, w.tasks[n]? = some task → TaskInv initial w.landed n task

variable {initial : Store} {w v : World}

theorem inv_start (hk : initial.Keyed) (hj : initial.Journaled) : Inv initial (start initial) where
  keyed := hk
  accounted key := by
    change Accounted _ [] (initial.intents.get? key) (initial.log key)
    rw [hj key]
    cases initial.intents.get? key with
    | none => exact .absent
    | some i => simpa using Accounted.present (Serial.nil (i := i))
  tasks n task h := by simp [start] at h

/-- What was ever stored has a smaller version than what is stored now, or is that. -/
theorem Inv.stored_le (h : Inv initial w) {a : Intent} (ha : Stored initial w.landed a) :
    ∃ j, w.store.intents.get? a.key = some j ∧ a.version ≤ j.version ∧
      (a.version = j.version → a = j) ∧ a.history <+: j.history := by
  have hmem : initial.intents.get? a.key = some a ∨ ∃ u ∈ w.landedOn a.key, u.intent = a := by
    rcases ha with ha | ⟨u, hu, rfl⟩
    · exact .inl ha
    · exact .inr ⟨u, List.mem_filter.2 ⟨hu, by simp⟩, rfl⟩
  rcases (h.accounted a.key).cases with ⟨hfirst, hws, -, -⟩ | ⟨i, j, hfirst, hlast, hs, -⟩
  · simp [hfirst, hws] at hmem
  · refine ⟨j, hlast, hs.past_le (hmem.imp_left fun hi ↦ ?_)⟩
    exact (Option.some.inj (hfirst.symm.trans hi)).symm

theorem Inv.stored_of_get? (h : Inv initial w) {key : String} {j : Intent}
    (hj : w.store.intents.get? key = some j) : Stored initial w.landed j := by
  rcases (h.accounted key).cases with ⟨-, -, hlast, -⟩ | ⟨i, j', hfirst, hlast, hs, -⟩
  · rw [hlast] at hj
    cases hj
  · obtain rfl := Option.some.inj (hlast.symm.trans hj)
    rcases hs.last_mem with rfl | ⟨u, hu, he⟩
    · exact .inl (by rw [h.keyed key _ hj]; exact hfirst)
    · exact .inr ⟨u, (List.mem_filter.1 hu).1, he⟩

theorem getElem?_set_cases {tasks : List Task} {n m : Nat} {task other : Task}
    (h : (tasks.set n task)[m]? = some other) : m = n ∧ other = task ∨ tasks[m]? = some other := by
  rw [List.getElem?_set] at h
  split at h
  · rename_i he
    split at h
    · exact .inl ⟨he.symm, (Option.some.inj h).symm⟩
    · cases h
  · exact .inr h

theorem Inv.sameContents (h : Inv initial w) {s : Store} (hs : w.store.SameContents s)
    (tasks : List Task)
    (ht : ∀ n task, tasks[n]? = some task → TaskInv initial w.landed n task) :
    Inv initial ⟨s, tasks, w.landed⟩ where
  keyed := h.keyed.sameContents hs
  accounted key := by
    have hacc := h.accounted key
    rw [← hs.1, ← hs.log key] at hacc
    exact hacc
  tasks := ht

theorem Inv.moved (h : Inv initial w) {n : Nat} {task : Task} {progress : Progress} {s : Store}
    (hn : w.tasks[n]? = some task) (hs : w.store.SameContents s)
    (hp : ∀ p, progress.rest? = some p → task.progress.rest? = some p) :
    Inv initial (w.moved n task progress s) := by
  refine h.sameContents hs _ fun m other hm ↦ ?_
  rcases getElem?_set_cases hm with ⟨rfl, rfl⟩ | hm
  · have ht := h.tasks m task hn
    exact ⟨fun p hrest ↦ ht.leads p (hp p hrest), ht.honest, ht.shown, ht.wrote⟩
  · exact h.tasks m other hm

/-- A proposal that lands was made of the intent that it replaces. -/
theorem Inv.base_eq (h : Inv initial w) {n : Nat} {task : Task} {c : Call}
    {next : c.Answer → Program Outcome} {a : c.Answer} {p : Proposal} {current : Intent}
    (hn : w.tasks[n]? = some task) (hrest : task.progress.rest? = some (.call c next))
    (hl : Exchange.landed? ⟨c, a⟩ = some p) (hcurrent : w.store.intents.get? p.intent.key = some current)
    (hv : current.version = p.expected) :
    task.log.shown = some current ∧
      task.job.perform current p.intent.updatedAt = some (p.intent, p.corrections) := by
  have ht := h.tasks n task hn
  have hmeets := (ht.leads _ hrest).obeys (Job.program_meets task.job) ht.honest
  obtain ⟨base, hbase, hexp, hp⟩ := hmeets.1.2 p (by
    unfold Exchange.landed? at hl
    split at hl
    · exact hl
    · cases hl)
  -- The base was stored at some time and has the version that is stored now, so nothing came in between.
  have hcb : base = current := by
    obtain ⟨x, hx, hshown⟩ := Log.exists_of_shown hbase
    obtain ⟨j, hj, -, heq, -⟩ := h.stored_le (ht.shown x hx base hshown)
    rw [← (Job.perform_spec hp).1, hcurrent] at hj
    cases hj
    exact heq (by omega)
  subst hcb
  exact ⟨hbase, hp⟩

theorem Inv.answered (h : Inv initial w) {n : Nat} {task : Task} {c : Call}
    {next : c.Answer → Program Outcome} {a : c.Answer} {s : Store} (hn : w.tasks[n]? = some task)
    (hrest : task.progress.rest? = some (.call c next)) (hs : w.store.Served ⟨c, a⟩ s) :
    Inv initial (w.answered n task ⟨c, a⟩ (next a) s) := by
  have ht := h.tasks n task hn
  refine ⟨?_, ?_, ?_⟩
  · rcases hs.effect with ⟨-, hsame⟩ | ⟨p, current, -, -, -, hsame⟩
    · exact h.keyed.sameContents hsame
    · exact (h.keyed.write _ _).sameContents hsame
  · intro key
    have hacc := h.accounted key
    rcases hs.effect with ⟨hl, hsame⟩ | ⟨p, current, hl, hcurrent, hv, hsame⟩
    · rw [← hsame.1, ← hsame.log key] at hacc
      simpa [landedOn, World.answered, hl] using hacc
    · obtain ⟨hbase, hp⟩ := h.base_eq hn hrest hl hcurrent hv
      change Accounted _ (List.filter _ (w.landed ++ _)) (s.intents.get? key) (s.log key)
      rw [hsame.1, hsame.log, Store.get?_write, Store.log_write, List.filter_append, hl]
      -- The key of the proposal has one more write, and all other keys have the same writes as before.
      by_cases hk : key = p.intent.key
      · subst hk
        rw [hcurrent] at hacc
        simpa [landedOn] using
          hacc.snoc (w := ⟨n, task.job, task.log.shown, p.intent, p.corrections⟩) hbase hp
      · simpa [landedOn, hk, Ne.symm hk] using hacc
  · intro m other hm
    rcases getElem?_set_cases hm with ⟨rfl, rfl⟩ | hm
    · exact ht.exchanged hrest (hs.honest h.keyed) fun i hi ↦ by
        obtain ⟨key, hkey⟩ := hs.shown i hi
        exact h.stored_of_get? hkey
    · exact (h.tasks m other hm).append _

theorem Inv.step (h : Inv initial w) (hs : w.Step v) : Inv initial v := by
  rcases hs.cases with ⟨job, rfl⟩ | ⟨n, task, progress, s, hn, hsame, ⟨c, next, hc, hp⟩, rfl⟩ |
    ⟨n, task, c, next, a, s, hn, hrest, hserved, rfl⟩
  · refine h.sameContents .rfl _ fun n task hn ↦ ?_
    rw [List.getElem?_append] at hn
    split at hn
    · exact h.tasks n task hn
    · obtain rfl := List.mem_singleton.1 (List.mem_of_getElem? hn)
      refine ⟨?_, by simp, by simp, by simp⟩
      rintro p ⟨⟩
      exact .nil
  · exact h.moved hn hsame fun p hrest ↦ by rw [hc, hp p hrest]
  · exact h.answered hn hrest hserved

theorem Inv.run (h : Inv initial w) (hr : w.Run v) : Inv initial v := by
  induction hr with
  | nil => exact h
  | snoc _ hs ih => exact ih.step hs

/-- However jobs run at the same time on a store of any intents, the writes to each key that landed are a
sequence of the jobs' own operations: each was made of the intent that it replaced, the last one is stored, and
the journal is the history at the start with the corrections written since, which is the stored history. -/
theorem run_serial {is : List Intent} {s : Store} (hs : Store.ofIntents is = .ok s) {w : World}
    (hr : (start s).Run w) (key : String) :
    Accounted (s.intents.get? key) (w.landedOn key) (w.store.intents.get? key) (w.store.log key) ∧
      ∀ i, w.store.intents.get? key = some i → w.store.log key = i.history := by
  obtain ⟨hk, hj⟩ := Store.ofIntents_keyed hs
  have hacc := ((inv_start hk hj).run hr).accounted key
  refine ⟨hacc, fun i hi ↦ ?_⟩
  rcases hacc.cases with ⟨-, -, hlast, -⟩ | ⟨_, j, -, hlast, -, hjournal⟩
  · rw [hlast] at hi
    cases hi
  · rw [hjournal, Option.some.inj (hlast.symm.trans hi)]

/-- In the race the first job and the last one write. -/
theorem run_serial_race :
    (Race.world.landedOn "order-1").map Write.task = [0, 2] ∧
      Accounted (Race.store.intents.get? "order-1") (Race.world.landedOn "order-1")
        (Race.world.store.intents.get? "order-1") (Race.world.store.log "order-1") :=
  ⟨rfl, (run_serial Race.ofIntents_payment Race.run_world "order-1").1⟩

end World

end IntentCorrection
