import IntentCorrection.Proofs.Concurrency.Serial

namespace IntentCorrection

def Status.rank : Status → Nat
  | .received => 0
  | .normalized => 1
  | .processed => 2
  | .corrected => 3
  | .completed | .failed => 4

theorem Status.rank_le_of_mem_successors {s t : Status} (h : t ∈ s.successors) : s.rank ≤ t.rank := by
  cases s <;> cases t <;> simp_all [successors, rank]

theorem Status.rank_le_of_not_terminal {s : Status} (h : s.isTerminal = false) : s.rank ≤ corrected.rank := by
  cases s <;> simp_all [isTerminal, rank]

theorem Status.not_terminal_of_mem_successors {s t : Status} (h : t ∈ s.successors) (hne : s ≠ t) :
    s.isTerminal = false := by
  cases s <;> cases t <;> simp_all [successors, isTerminal]

theorem Status.mem_successors_of_canBecome {s t : Status} (h : s.canBecome t = true) : t ∈ s.successors := by
  cases s <;> cases t <;> simp_all [canBecome, successors]

namespace Job

variable {j : Job} {i next : Intent} {now : Timestamp} {records : List CorrectionRecord}

inductive Moves (i next : Intent) : Job → List CorrectionRecord → Prop
  | along {config : Config} {requested : Status} : requested ∈ i.status.successors → i.status ≠ requested →
      next.status = requested → Moves i next (.statusChange config i.key requested) []
  | corrected {config : Config} {r : ReevaluationRequest} {record : CorrectionRecord} :
      r.intentKey = i.key → i.status.isTerminal = false → next.status = .corrected →
      Reevaluation.correct i r next.updatedAt = .ok (.applied next record) →
      Moves i next (.correction config r) [record]

theorem moves_of_perform (hkey : i.key = j.key) (h : j.perform i next.updatedAt = some (next, records)) :
    Moves i next j records := by
  cases j with
  | correction config r =>
    obtain ⟨record, rfl, hc⟩ := perform_correction h
    obtain ⟨hs, -, -, changes, payload, -, -, hn⟩ := Intent.correct_applied hc
    exact .corrected hkey.symm hs (by rw [hn]; rfl) hc
  | statusChange config key requested =>
    obtain ⟨hs, rfl, ht⟩ := perform_statusChange h
    obtain ⟨hc, ⟨he, -⟩ | ⟨-, hn⟩⟩ := Intent.transition_ok ht
    · exact absurd he hs
    · obtain rfl : i.key = key := hkey
      exact .along (Status.mem_successors_of_canBecome hc) hs (by rw [hn])

theorem Moves.not_terminal (h : Moves i next j records) : i.status.isTerminal = false := by
  cases h with
  | along hm hne _ => exact Status.not_terminal_of_mem_successors hm hne
  | corrected _ hs _ _ => exact hs

theorem Moves.rank_le (h : Moves i next j records) : i.status.rank ≤ next.status.rank := by
  cases h with
  | along hm _ hn => exact hn ▸ Status.rank_le_of_mem_successors hm
  | corrected _ hs hn _ => exact hn ▸ Status.rank_le_of_not_terminal hs

end Job

namespace Store

variable {s s' : Store}

def rejournaled (s : Store) (journal : Entries String (List CorrectionRecord)) : Store :=
  { s with journal := journal }

theorem get?_map_history (m : Entries String Intent) (key : String) :
    Entries.get? (m.map fun x ↦ (x.1, x.2.history)) key = (m.get? key).map Intent.history := by
  induction m with
  | nil => rfl
  | cons x m ih =>
    simp only [List.map_cons, Entries.get?_cons, ih]
    split <;> rfl

theorem exists_journaled (s : Store) : ∃ journal, (s.rejournaled journal).Journaled := by
  refine ⟨s.intents.map fun x ↦ (x.1, x.2.history), fun key ↦ ?_⟩
  simp only [rejournaled, log, get?_map_history]

/-- An exchange goes the same way whatever the journal is. -/
theorem Served.rejournaled {x : Exchange} (h : s.Served x s') (journal : Entries String (List CorrectionRecord)) :
    ∃ journal', (s.rejournaled journal).Served x (s'.rejournaled journal') := by
  rcases h.effect with ⟨hl, hsame⟩ | ⟨p, current, hl, hcurrent, hv, hsame⟩
  · exact ⟨journal, h.honest, h.shown, .inl ⟨hl, hsame.1, rfl⟩⟩
  · let written := (s.rejournaled journal).write p.intent ((s.rejournaled journal).log p.intent.key ++ p.corrections)
    exact ⟨written.journal, h.honest, h.shown, .inr ⟨p, current, hl, hcurrent, hv, hsame.1, rfl⟩⟩

end Store

namespace World

variable {initial : Store} {w v : World}

def rejournaled (w : World) (journal : Entries String (List CorrectionRecord)) : World :=
  { w with store := w.store.rejournaled journal }

/-- The invariant of runs, whatever the journal of the store is. -/
def Sound (initial : Store) (w : World) : Prop := ∃ journal, Inv initial (w.rejournaled journal)

theorem sound_start {s : Store} (hs : s.Keyed) : Sound s (start s) := by
  obtain ⟨journal, hj⟩ := s.exists_journaled
  refine ⟨journal, ?_⟩
  have h : Inv (s.rejournaled journal) (start (s.rejournaled journal)) := inv_start hs hj
  exact ⟨h.keyed, h.accounted, by simp [start, rejournaled]⟩

/-- A step leaves the contents, or one task writes in place of the stored intent what its job makes of that. -/
theorem Sound.step_cases (h : Sound initial w) (hs : w.Step v) :
    (v.landed = w.landed ∧ w.store.SameContents v.store) ∨
    ∃ u current, v.landed = w.landed ++ [u] ∧ w.store.intents.get? u.intent.key = some current ∧
      u.base = some current ∧ current.key = u.job.key ∧
      u.job.perform current u.intent.updatedAt = some (u.intent, u.corrections) ∧
      (w.store.write u.intent (w.store.log u.intent.key ++ u.corrections)).SameContents v.store := by
  obtain ⟨journal, hinv⟩ := h
  rcases hs.cases with ⟨job, rfl⟩ | ⟨n, task, progress, s, -, hsame, -, rfl⟩ |
    ⟨n, task, c, next, a, s, hn, hrest, hserved, rfl⟩
  · exact .inl ⟨rfl, .rfl⟩
  · exact .inl ⟨rfl, hsame⟩
  · rcases hserved.effect with ⟨hl, hsame⟩ | ⟨p, current, hl, hcurrent, hv, hsame⟩
    · exact .inl ⟨by simp [answered, hl], hsame⟩
    · obtain ⟨hbase, hp⟩ := hinv.base_eq hn hrest hl hcurrent hv
      refine .inr ⟨⟨n, task.job, task.log.shown, p.intent, p.corrections⟩, current, by simp [answered, hl],
        hcurrent, hbase, ?_, hp, hsame⟩
      -- The intent was shown to the task for the key of its job.
      obtain ⟨x, hx, hshown⟩ := Log.exists_of_shown hbase
      have ht := hinv.tasks n task hn
      obtain ⟨before, hasked⟩ := (ht.leads _ hrest).asked (Job.program_meets task.job) ht.honest x hx
      exact hasked.1 _ (Exchange.key_of_shown (ht.honest x hx) hshown)

theorem Sound.step (h : Sound initial w) (hs : w.Step v) : Sound initial v := by
  obtain ⟨journal, hinv⟩ := h
  rcases hs.cases with ⟨job, rfl⟩ | ⟨n, task, progress, s, hn, hsame, ⟨c, next, hc, hp⟩, rfl⟩ |
    ⟨n, task, c, next, a, s, hn, hrest, hserved, rfl⟩
  · exact ⟨journal, hinv.step (.start job)⟩
  · refine ⟨journal, hinv.moved hn ⟨hsame.1, rfl⟩ fun p hrest ↦ by rw [hc, hp p hrest]⟩
  · obtain ⟨journal', hserved'⟩ := hserved.rejournaled journal
    exact ⟨journal', hinv.answered hn hrest hserved'⟩

theorem Sound.run (h : Sound initial w) (hr : w.Run v) : Sound initial v := by
  induction hr with
  | nil => exact h
  | snoc _ hs ih => exact ih.step hs

theorem Sound.step_moves (h : Sound initial w) (hs : w.Step v) {key : String} {i : Intent}
    (hi : w.store.intents.get? key = some i) :
    ∃ j, v.store.intents.get? key = some j ∧
      (j = i ∧ v.store.log key = w.store.log key ∨
        ∃ u, v.landed = w.landed ++ [u] ∧ u.base = some i ∧ u.intent = j ∧ Job.Moves i j u.job u.corrections) := by
  rcases h.step_cases hs with ⟨-, hsame⟩ | ⟨u, current, hl, hcurrent, hbase, hkey, hp, hsame⟩
  · exact ⟨i, by rw [hsame.1, hi], .inl ⟨rfl, hsame.log key⟩⟩
  · rw [hsame.1, hsame.log, Store.get?_write, Store.log_write]
    by_cases hk : key = u.intent.key
    · obtain rfl : i = current := Option.some.inj (hi.symm.trans (hk ▸ hcurrent))
      refine ⟨u.intent, if_pos hk, .inr ⟨u, hl, hbase, rfl, Job.moves_of_perform hkey hp⟩⟩
    · exact ⟨i, by rw [if_neg hk, hi], .inl ⟨rfl, if_neg hk⟩⟩

/-- A stored intent goes up in rank only, and stays as it is once it is terminal. -/
theorem Sound.run_rank_le (h : Sound initial w) (hr : w.Run v) {key : String} {i : Intent}
    (hi : w.store.intents.get? key = some i) :
    ∃ j, v.store.intents.get? key = some j ∧ i.status.rank ≤ j.status.rank ∧
      (i.status.isTerminal = true → j = i ∧ v.store.log key = w.store.log key) := by
  induction hr with
  | nil => exact ⟨i, hi, Nat.le_refl _, fun _ ↦ ⟨rfl, rfl⟩⟩
  | snoc hr hs ih =>
    obtain ⟨j, hj, hle, hkeep⟩ := ih
    obtain ⟨k, hk, ⟨rfl, hlog⟩ | ⟨u, -, -, -, hmoves⟩⟩ := (h.run hr).step_moves hs hj
    · exact ⟨k, hk, hle, fun ht ↦ ⟨(hkeep ht).1, hlog.trans (hkeep ht).2⟩⟩
    · refine ⟨k, hk, Nat.le_trans hle hmoves.rank_le, fun ht ↦ ?_⟩
      have hj := hmoves.not_terminal
      rw [(hkeep ht).1, ht] at hj
      cases hj

/-- However jobs run at the same time on a store: what is stored under a key changes only by a job for that key.
A status change leads along an edge of the lifecycle, and an accepted correction from a status that is not
terminal to the corrected one. So no status ever goes back, and a terminal intent and its journal stay as they
are. -/
theorem run_lifecycle {s : Store} (hs : s.Keyed) {w : World} (hr : (start s).Run w) {key : String} {i : Intent}
    (hi : w.store.intents.get? key = some i) :
    (∀ v, w.Step v → ∃ j, v.store.intents.get? key = some j ∧
      (j = i ∧ v.store.log key = w.store.log key ∨
        ∃ u, v.landed = w.landed ++ [u] ∧ u.base = some i ∧ u.intent = j ∧ Job.Moves i j u.job u.corrections)) ∧
    ∀ v, w.Run v → ∃ j, v.store.intents.get? key = some j ∧ i.status.rank ≤ j.status.rank ∧
      (i.status.isTerminal = true → j = i ∧ v.store.log key = w.store.log key) := by
  have h := (sound_start hs).run hr
  exact ⟨fun v hv ↦ h.step_moves hv hi, fun v hv ↦ h.run_rank_le hv hi⟩

/-- The race ends with a completed payment, and that stays as it is. -/
theorem run_lifecycle_race :
    ∃ i, Race.world.store.intents.get? "order-1" = some i ∧ i.status = .completed ∧
      ∀ v, Race.world.Run v → v.store.intents.get? "order-1" = some i ∧
        v.store.log "order-1" = Race.world.store.log "order-1" := by
  obtain ⟨i, hi, hs⟩ : ∃ i, Race.world.store.intents.get? "order-1" = some i ∧ i.status = .completed :=
    ⟨_, rfl, rfl⟩
  have h := run_lifecycle (Store.ofIntents_keyed Race.ofIntents_payment).1 Race.run_world hi
  refine ⟨i, hi, hs, fun v hv ↦ ?_⟩
  obtain ⟨j, hj, -, hkeep⟩ := h.2 v hv
  obtain ⟨rfl, hlog⟩ := hkeep (by rw [hs]; rfl)
  exact ⟨hj, hlog⟩

end World

end IntentCorrection
