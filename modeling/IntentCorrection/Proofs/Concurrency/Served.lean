import IntentCorrection.Proofs.Concurrency.World

namespace IntentCorrection

structure Store.Served (s : Store) (x : Exchange) (s' : Store) : Prop where
  honest : s.Keyed → x.Honest
  shown : ∀ i, x.shown? = some i → ∃ key, s.intents.get? key = some i
  effect : x.landed? = none ∧ s.SameContents s' ∨
    ∃ p current, x.landed? = some p ∧ s.intents.get? p.intent.key = some current ∧
      current.version = p.expected ∧
      (s.write p.intent (s.log p.intent.key ++ p.corrections)).SameContents s'

namespace Store

variable {s s' : Store}

/-- A call that shows nothing and proposes nothing leaves the contents alone. -/
theorem served_of_quiet {c : Call} {a : c.Answer} (hh : Exchange.Honest ⟨c, a⟩)
    (hs : Exchange.shown? ⟨c, a⟩ = none) (hl : Exchange.landed? ⟨c, a⟩ = none) (h : s.SameContents s') :
    s.Served ⟨c, a⟩ s' :=
  ⟨fun _ ↦ hh, by simp [hs], .inl ⟨hl, h⟩⟩

theorem served_get (s : Store) (key : String) : s.Served ⟨.get key, s.get key⟩ s := by
  cases hg : s.get key with
  | error e => exact served_of_quiet trivial rfl rfl .rfl
  | ok i =>
    have hi := get_eq_ok.1 hg
    exact ⟨fun hk ↦ hk key i hi, fun i' h ↦ ⟨key, by cases h; exact hi⟩, .inl ⟨rfl, .rfl⟩⟩

theorem served_swap {key : String} {i : Intent} {r : CorrectionRecord} {expected : Nat}
    {a : Except StorageError Bool} (h : s.compareAndSwap key i r expected = (a, s')) :
    s.Served ⟨.swap key i r expected, a⟩ s' := by
  rcases s.compareAndSwap_cases key i r expected with ⟨hs, ha⟩ | ⟨rfl, -, ⟨current, hc, hv⟩, he⟩
  · rw [h] at hs ha
    refine ⟨fun _ ↦ trivial, nofun, .inl ⟨?_, hs ▸ .rfl⟩⟩
    rcases a with e | _ | _
    · rfl
    · rfl
    · exact absurd rfl ha
  · cases h.symm.trans he
    exact ⟨fun _ ↦ trivial, nofun, .inr ⟨⟨expected, i, [r]⟩, current, rfl, hc, hv, .rfl⟩⟩

theorem served_commit {h : LockedIntent} {a : Except StorageError Intent} (hc : s.commit h = (a, s')) :
    s.Served ⟨.commit h, a⟩ s' := by
  rcases s.commit_cases h with ⟨hs, ha⟩ | ⟨hd, ⟨current, hg, hv⟩, he⟩
  · rw [hc] at hs ha
    dsimp only at hs ha
    subst hs
    rcases ha with ⟨hd, rfl⟩ | ⟨e, rfl⟩
    · exact ⟨fun _ ↦ rfl, nofun, .inl ⟨by simp [Exchange.landed?, Call.proposal?, hd],
        sameContents_release s h.ticket⟩⟩
    · exact served_of_quiet trivial rfl rfl (sameContents_release s h.ticket)
  · cases hc.symm.trans he
    refine ⟨fun _ ↦ rfl, nofun, .inr
      ⟨⟨h.readVersion, h.intent, h.intent.history.drop h.readHistoryLength⟩, current, ?_, hg, hv,
        sameContents_release _ h.ticket⟩⟩
    simp [Exchange.landed?, Exchange.accepted, Call.proposal?, hd]

theorem served_openLocked (s : Store) (t : Ticket) (key : String) (timeout : Duration) :
    s.Served ⟨.lock key timeout, (s.openLocked t key).1⟩ (s.openLocked t key).2 := by
  have hsame := s.sameContents_openLocked t key
  rcases s.openLocked_cases t key with ⟨e, -, he⟩ | ⟨i, hget, he⟩
  · rw [he] at hsame ⊢
    exact served_of_quiet trivial rfl rfl hsame
  · have hi := get_eq_ok.1 hget
    rw [he] at hsame ⊢
    exact ⟨fun hk ↦ ⟨hk key i hi, t, rfl⟩, fun i' h ↦ ⟨key, by cases h; exact hi⟩, .inl ⟨rfl, hsame⟩⟩

theorem Answers.served {c : Call} {a : c.Answer} (h : s.Answers c a s') : s.Served ⟨c, a⟩ s' := by
  cases c with
  | get key =>
    obtain ⟨rfl, rfl⟩ := h
    exact served_get s' key
  | swap key i r expected => exact served_swap h
  | lock key timeout => exact h.elim
  | commit handle => exact served_commit h
  | abort handle =>
    obtain ⟨rfl, rfl⟩ := h
    exact served_of_quiet trivial rfl rfl (sameContents_release s handle.ticket)
  | drop handle =>
    obtain rfl : s' = _ := h
    exact served_of_quiet trivial rfl rfl (sameContents_release s handle.ticket)
  | pause _ _ | now | emit _ =>
    obtain rfl : s' = s := h
    exact served_of_quiet trivial rfl rfl .rfl

end Store

namespace World

variable {w v : World}

/-- A step brings in a job, moves a task that has a call to make without an answer, or serves that call. -/
theorem Step.cases (h : w.Step v) :
    (∃ job, v = { w with tasks := w.tasks ++ [⟨job, [], .running job.program⟩] }) ∨
    (∃ n task progress s, w.tasks[n]? = some task ∧ w.store.SameContents s ∧
      (∃ c next, task.progress.rest? = some (.call c next) ∧
        ∀ p, progress.rest? = some p → p = .call c next) ∧
      v = w.moved n task progress s) ∨
    ∃ n task c next a s, w.tasks[n]? = some task ∧ task.progress.rest? = some (.call c next) ∧
      w.store.Served ⟨c, a⟩ s ∧ v = w.answered n task ⟨c, a⟩ (next a) s := by
  cases h with
  | start job => exact .inl ⟨job, rfl⟩
  | @answer n task c next a s hn hp ha =>
    exact .inr (.inr ⟨n, task, c, next, a, s, hn, by rw [hp]; rfl, ha.served, rfl⟩)
  | @queue n task key timeout next hn hp =>
    refine .inr (.inl ⟨n, task, .locking (w.store.beginLock key).1 key timeout next, (w.store.beginLock key).2, hn,
      w.store.sameContents_beginLock key, ⟨.lock key timeout, next, by rw [hp]; rfl, ?_⟩, rfl⟩)
    exact fun p h ↦ (Option.some.inj h).symm
  | @resume n task t key timeout next hn hp _ =>
    refine .inr (.inl ⟨n, task, .locking t key timeout next, { w.store with locks := w.store.locks.resume t },
      hn, ⟨rfl, rfl⟩, ⟨.lock key timeout, next, by rw [hp]; rfl, ?_⟩, rfl⟩)
    exact fun p h ↦ (Option.some.inj h).symm
  | @openLock n task t key timeout next hn hp _ =>
    exact .inr (.inr ⟨n, task, .lock key timeout, next, _, _, hn, by rw [hp]; rfl,
      w.store.served_openLocked t key timeout, rfl⟩)
  | @expire n task t key timeout next hn hp _ =>
    refine .inr (.inr ⟨n, task, .lock key timeout, next, _, _, hn, by rw [hp]; rfl, ?_, rfl⟩)
    exact Store.served_of_quiet trivial rfl rfl ⟨rfl, rfl⟩
  | @abandon n task c next hn hp _ =>
    exact .inr (.inl ⟨n, task, .abandoned, w.store, hn, .rfl, ⟨c, next, by rw [hp]; rfl, fun _ h ↦ nomatch h⟩,
      rfl⟩)
  | @abandonLock n task t key timeout next hn hp _ =>
    exact .inr (.inl ⟨n, task, .abandoned, w.store.cancelLock t, hn, ⟨rfl, rfl⟩,
      ⟨.lock key timeout, next, by rw [hp]; rfl, fun _ h ↦ nomatch h⟩, rfl⟩)

end World

end IntentCorrection
