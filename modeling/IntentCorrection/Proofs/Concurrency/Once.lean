import IntentCorrection.Proofs.Concurrency.Serial

namespace IntentCorrection

def History.Distinct (history : List CorrectionRecord) : Prop := (history.map (·.id)).Nodup

namespace History.Distinct

variable {history : List CorrectionRecord}

theorem append {records : List CorrectionRecord} (h : Distinct history) (hr : Distinct records)
    (hnew : ∀ r ∈ records, r.id ∉ history.map (·.id)) : Distinct (history ++ records) := by
  unfold Distinct at h hr ⊢
  rw [List.map_append, List.nodup_append]
  refine ⟨h, hr, ?_⟩
  intro id hid id' hid' he
  obtain ⟨r, hr, rfl⟩ := List.mem_map.1 hid'
  exact hnew r hr (he ▸ hid)

theorem eq_of_id (h : Distinct history) {r r' : CorrectionRecord} (hr : r ∈ history) (hr' : r' ∈ history)
    (he : r.id = r'.id) : r = r' := by
  unfold Distinct at h
  induction history with
  | nil => cases hr
  | cons a history ih =>
    obtain ⟨hfresh, h⟩ := List.nodup_cons.1 h
    rcases List.mem_cons.1 hr with hra | hm <;> rcases List.mem_cons.1 hr' with hra' | hm'
    · rw [hra, hra']
    · exact absurd (List.mem_map.2 ⟨r', hm', by rw [← he, hra]⟩) hfresh
    · exact absurd (List.mem_map.2 ⟨r, hm, by rw [he, hra']⟩) hfresh
    · exact ih h hm hm'

end History.Distinct

namespace Serial

variable {i j : Intent} {ws : List Write}

theorem write_unique (h : Serial i ws j) {u v : Write} (hu : u ∈ ws) (hv : v ∈ ws)
    {r r' : CorrectionRecord} (hr : r ∈ u.corrections) (hr' : r' ∈ v.corrections) (he : r.id = r'.id) :
    u = v := by
  induction h with
  | nil => cases hu
  | @snoc ws j w hs _ hp _ ih =>
    obtain ⟨-, -, -, -, -, hnew⟩ := Job.perform_spec hp
    -- What earlier writes added is in the history that the last one was made of.
    have hold : ∀ u ∈ ws, ∀ r ∈ u.corrections, r.id ∈ j.history.map (·.id) := by
      intro u hu r hr
      rw [hs.history_eq]
      exact List.mem_map.2 ⟨r, List.mem_append_right _ (List.mem_flatMap.2 ⟨u, hu, hr⟩), rfl⟩
    rcases List.mem_append.1 hu with hmu | hmu <;> rcases List.mem_append.1 hv with hmv | hmv
    · exact ih hmu hmv
    · rw [List.mem_singleton.1 hmv] at hr'
      exact absurd (he ▸ hold u hmu r hr) (hnew r' hr')
    · rw [List.mem_singleton.1 hmu] at hr
      exact absurd (he ▸ hold v hmv r' hr') (hnew r hr)
    · rw [List.mem_singleton.1 hmu, List.mem_singleton.1 hmv]

theorem distinct (h : Serial i ws j) (hi : History.Distinct i.history) : History.Distinct j.history := by
  induction h with
  | nil => exact hi
  | snoc _ _ hp _ ih =>
    obtain ⟨-, -, hhist, -, hnodup, hnew⟩ := Job.perform_spec hp
    rw [hhist]
    exact ih.append hnodup hnew

end Serial

namespace World

variable {initial : Store} {w v : World} {n m : Nat} {r r' : ReevaluationRequest}
  {a b : ReevaluationResponse}

def Responded (w : World) (n : Nat) (r : ReevaluationRequest) (a : ReevaluationResponse) : Prop :=
  ∃ config log, w.tasks[n]? = some ⟨.correction config r, log, .running (.done (.corrected (.ok a)))⟩

/-- The correction that a response tells of is in the stored history. -/
def Keeps (w : World) (a : ReevaluationResponse) : Prop :=
  ∃ i, w.store.intents.get? a.intentKey = some i ∧
    ∃ record ∈ i.history, record.id = a.correctionId ∧ record.appliedAt = a.appliedAt

theorem Responded.step (h : w.Responded n r a) (hs : w.Step v) : v.Responded n r a := by
  obtain ⟨config, log, hn⟩ := h
  refine ⟨config, log, ?_⟩
  have hset : ∀ (m : Nat) (task other : Task), w.tasks[m]? = some task →
      (∃ c next, task.progress.rest? = some (.call c next)) →
      (w.tasks.set m other)[n]? = w.tasks[n]? := by
    rintro m task other hm ⟨c, next, hrest⟩
    refine List.getElem?_set_ne fun he ↦ ?_
    rw [he, hn] at hm
    cases hm
    cases hrest
  rcases hs.cases with ⟨job, rfl⟩ | ⟨m, task, progress, s, hm, -, ⟨c, next, hrest, -⟩, rfl⟩ |
    ⟨m, task, c, next, answer, s, hm, hrest, -, rfl⟩
  · have hlt : n < w.tasks.length := (List.getElem?_eq_some_iff.1 hn).1
    exact (List.getElem?_append_left hlt).trans hn
  · exact (hset m task _ hm ⟨c, next, hrest⟩).trans hn
  · exact (hset m task _ hm ⟨c, next, hrest⟩).trans hn

theorem Responded.run (h : w.Responded n r a) (hr : w.Run v) : v.Responded n r a := by
  induction hr with
  | nil => exact h
  | snoc _ hs ih => exact ih.step hs

theorem Run.trans {u : World} (h : u.Run w) (h' : w.Run v) : u.Run v := by
  induction h' with
  | nil => exact h
  | snoc _ hs ih => exact ih.snoc hs

/-- Every record of an intent that was ever stored is in the stored history of its key. -/
theorem Inv.mem_history (h : Inv initial w) {i : Intent} (hi : Stored initial w.landed i)
    {record : CorrectionRecord} (hm : record ∈ i.history) :
    ∃ j, w.store.intents.get? i.key = some j ∧ record ∈ j.history := by
  obtain ⟨j, hj, -, -, hpre⟩ := h.stored_le hi
  exact ⟨j, hj, hpre.subset hm⟩

theorem Inv.serial_of_mem (h : Inv initial w) {u : Write} {key : String} (hu : u ∈ w.landedOn key) :
    ∃ i j, w.store.intents.get? key = some j ∧ Serial i (w.landedOn key) j := by
  rcases (h.accounted key).cases with ⟨-, hws, -, -⟩ | ⟨i, j, -, hlast, hs, -⟩
  · rw [hws] at hu
    cases hu
  · exact ⟨i, j, hlast, hs⟩

theorem Inv.responded (h : Inv initial w) (ha : w.Responded n r a) :
    a.intentKey = r.intentKey ∧ a.correctionId = correctionId r.intentKey r.diff ∧ w.Keeps a ∧
      (a.alreadyApplied = false → ∃ u ∈ w.landedOn a.intentKey, u.task = n ∧
        ∃ record ∈ u.corrections, record.id = a.correctionId) := by
  obtain ⟨config, log, hn⟩ := ha
  have ht := h.tasks n _ hn
  obtain ⟨record, hid, htime, hkey, hrid, hlog⟩ :=
    (ht.leads _ rfl).obeys (Job.program_meets (.correction config r)) ht.honest
  refine ⟨hkey, hid.trans hrid, ?_⟩
  cases happ : a.alreadyApplied with
  | true =>
    rw [happ, if_pos rfl] at hlog
    obtain ⟨x, hx, i, hi, hik, hm⟩ := hlog
    obtain ⟨j, hj, hmj⟩ := h.mem_history (ht.shown x hx i hi) hm
    exact ⟨⟨j, hik ▸ hj, record, hmj, hid.symm, htime.symm⟩, nofun⟩
  | false =>
    rw [happ, if_neg (by decide)] at hlog
    obtain ⟨x, hx, p, hp, hpk, hm⟩ := hlog
    obtain ⟨u, hu, hun, -, hui, huc⟩ := ht.wrote x hx p hp
    have hmu : record ∈ u.corrections := huc ▸ hm
    have hon : u ∈ w.landedOn a.intentKey := List.mem_filter.2 ⟨hu, by simp [hui, hpk]⟩
    obtain ⟨i, j, hj, hs⟩ := h.serial_of_mem hon
    refine ⟨⟨j, hj, record, ?_, hid.symm, htime.symm⟩, fun _ ↦ ⟨u, hon, hun, record, hmu, hid.symm⟩⟩
    rw [hs.history_eq]
    exact List.mem_append_right _ (List.mem_flatMap.2 ⟨u, hon, hmu⟩)

theorem Inv.applied_once (h : Inv initial w) (ha : w.Responded n r a) (hb : w.Responded m r' b)
    (hna : a.alreadyApplied = false) (hnb : b.alreadyApplied = false) (hkey : a.intentKey = b.intentKey)
    (hid : a.correctionId = b.correctionId) : n = m := by
  obtain ⟨-, -, -, hwa⟩ := h.responded ha
  obtain ⟨-, -, -, hwb⟩ := h.responded hb
  obtain ⟨u, hu, rfl, record, hr, hrid⟩ := hwa hna
  obtain ⟨u', hu', rfl, record', hr', hrid'⟩ := hwb hnb
  rw [← hkey] at hu'
  obtain ⟨i, j, -, hs⟩ := h.serial_of_mem hu
  rw [hs.write_unique hu hu' hr hr' (by rw [hrid, hrid', hid])]

theorem Inv.distinct (h : Inv initial w)
    (hd : ∀ key i, initial.intents.get? key = some i → History.Distinct i.history) (key : String) :
    (∀ j, w.store.intents.get? key = some j → History.Distinct j.history) ∧
      History.Distinct (w.store.log key) := by
  rcases (h.accounted key).cases with ⟨-, -, hlast, hjournal⟩ | ⟨i, j, hfirst, hlast, hs, hjournal⟩
  · rw [hlast, hjournal]
    exact ⟨nofun, List.nodup_nil⟩
  · have hj := hs.distinct (hd key i hfirst)
    rw [hlast, hjournal]
    exact ⟨fun j' hj' ↦ Option.some.inj hj' ▸ hj, hj⟩

theorem Inv.same_time (h : Inv initial w)
    (hd : ∀ key i, initial.intents.get? key = some i → History.Distinct i.history)
    (ha : w.Responded n r a) (hb : w.Responded m r' b) (hkey : a.intentKey = b.intentKey)
    (hid : a.correctionId = b.correctionId) : a.appliedAt = b.appliedAt := by
  obtain ⟨-, -, ⟨i, hi, record, hm, hrid, htime⟩, -⟩ := h.responded ha
  obtain ⟨-, -, ⟨i', hi', record', hm', hrid', htime'⟩, -⟩ := h.responded hb
  rw [← hkey, hi] at hi'
  cases hi'
  have he := ((h.distinct hd _).1 i hi).eq_of_id hm hm' (by rw [hrid, hrid', hid])
  rw [← htime, ← htime', he]

/-- However jobs run at the same time, a correction of an intent is applied for one job at most. A response is
the response to its own request, and from then on the history has the correction that it tells of. Where no
history has an id twice at the start, none ever has, and all responses that tell of one correction tell the same
time. -/
theorem run_exactly_once {is : List Intent} {s : Store} (hs : Store.ofIntents is = .ok s) {w : World}
    (hr : (start s).Run w) :
    (∀ n m r r' a b, w.Responded n r a → w.Responded m r' b →
        a.alreadyApplied = false → b.alreadyApplied = false →
        a.intentKey = b.intentKey → a.correctionId = b.correctionId → n = m) ∧
      (∀ n r a, w.Responded n r a →
        a.intentKey = r.intentKey ∧ a.correctionId = correctionId r.intentKey r.diff ∧
          ∀ v, w.Run v → v.Responded n r a ∧ v.Keeps a) ∧
      ((∀ i ∈ is, History.Distinct i.history) →
        (∀ key i, w.store.intents.get? key = some i → History.Distinct i.history) ∧
          (∀ key, History.Distinct (w.store.log key)) ∧
          ∀ n m r r' a b, w.Responded n r a → w.Responded m r' b →
            a.intentKey = b.intentKey → a.correctionId = b.correctionId → a.appliedAt = b.appliedAt) := by
  obtain ⟨hk, hj⟩ := Store.ofIntents_keyed hs
  have hinv := inv_start hk hj
  have h := hinv.run hr
  refine ⟨fun n m r r' a b ha hb ↦ h.applied_once ha hb, fun n r a ha ↦ ?_, fun hd ↦ ?_⟩
  · obtain ⟨hkey, hid, -⟩ := h.responded ha
    refine ⟨hkey, hid, fun v hv ↦ ⟨ha.run hv, ?_⟩⟩
    exact ((hinv.run (hr.trans hv)).responded (ha.run hv)).2.2.1
  · have hd : ∀ key i, s.intents.get? key = some i → History.Distinct i.history :=
      fun key i hi ↦ hd i (Store.mem_of_ofIntents hs hi)
    exact ⟨fun key ↦ (h.distinct hd key).1, fun key ↦ (h.distinct hd key).2,
      fun n m r r' a b ha hb ↦ h.same_time hd ha hb⟩

/-- In the race the first job applies the correction, and whatever comes then, its record stays. -/
theorem run_exactly_once_race :
    (∃ a, Race.world.Responded 0 Race.request a ∧ a.alreadyApplied = false ∧
      (∀ n r b, Race.world.Responded n r b → b.alreadyApplied = false → b.intentKey = a.intentKey →
        b.correctionId = a.correctionId → n = 0) ∧
      ∀ v, Race.world.Run v → v.Keeps a) ∧
    ∀ key i, Race.world.store.intents.get? key = some i → History.Distinct i.history := by
  have h := run_exactly_once Race.ofIntents_payment Race.run_world
  have hdistinct : ∀ i ∈ [Race.payment], History.Distinct i.history := by
    intro i hi
    rw [List.mem_singleton.1 hi]
    exact List.nodup_nil
  obtain ⟨a, ha, happ⟩ : ∃ a, Race.world.Responded 0 Race.request a ∧ a.alreadyApplied = false :=
    ⟨_, ⟨_, _, rfl⟩, rfl⟩
  refine ⟨⟨a, ha, happ, fun n r b hb hnb hkey hid ↦ ?_, fun v hv ↦ ?_⟩, (h.2.2 hdistinct).1⟩
  · exact h.1 n 0 r _ b a hb ha hnb happ hkey hid
  · exact ((h.2.1 0 _ a ha).2.2 v hv).2

end World

end IntentCorrection
