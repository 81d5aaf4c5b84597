import IntentCorrection.Proofs.Concurrency.Deadline
import IntentCorrection.Proofs.Simulation.Play

namespace IntentCorrection

theorem LockRegistry.holding_or_waiting_begin (r : LockRegistry) (key : String) :
    (r.begin key).2.phase? (r.begin key).1 = some .holding ∨
      (r.begin key).2.phase? (r.begin key).1 = some .waiting := by
  unfold LockRegistry.begin phase?
  simp only [Entries.get?_insert, if_true, Option.map_some]
  split
  · exact .inl rfl
  · exact .inr rfl

theorem Simulation.RivalChange.key_eq {change : RivalChange} {i next : Intent} {now : Timestamp}
    (h : change.apply? i now = some next) : next.key = i.key := by
  cases change with
  | correct diff source reason time =>
    unfold RivalChange.apply? at h
    dsimp only at h
    split at h
    · rename_i hc
      cases h
      obtain ⟨-, -, -, changes, payload, -, -, rfl⟩ := Intent.correct_applied hc
      rfl
    · cases h
      rfl
    · cases h
  | transition requested =>
    obtain ⟨j, hj, rfl⟩ : ∃ j, i.transition requested now = .ok j ∧ j = next := by
      unfold RivalChange.apply? at h
      dsimp only at h
      cases ht : i.transition requested now with
      | error e =>
        rw [ht] at h
        cases h
      | ok j =>
        rw [ht] at h
        cases h
        exact ⟨_, rfl, rfl⟩
    obtain ⟨-, ⟨-, rfl⟩ | ⟨-, rfl⟩⟩ := Intent.transition_ok hj
    · rfl
    · rfl

namespace Desk

variable {d : Desk} {t : Ticket}

/-- All that is out is as it was, except for what belongs to one ticket. -/
def Beside (d d' : Desk) (t : Ticket) : Prop :=
  ∀ t', t' ≠ t → d'.pending.get? t' = d.pending.get? t' ∧ d'.handles.get? t' = d.handles.get? t'

theorem beside_asked (d : Desk) (key : String) (timeout : Duration) :
    d.Beside (d.asked key timeout) (d.store.beginLock key).1 :=
  fun t' hne ↦ ⟨by rw [asked, Entries.get?_insert, if_neg hne], rfl⟩

theorem beside_served (d : Desk) (t : Ticket) (result : Except StorageError LockedIntent × Store) :
    d.Beside (d.served t result) t := by
  refine fun t' hne ↦ ⟨by rw [served, Entries.get?_erase, if_neg hne], ?_⟩
  unfold served
  dsimp only
  split
  · rw [Entries.get?_insert, if_neg hne]
  · rfl

theorem beside_cancelled (d : Desk) (t : Ticket) (s : Store) :
    d.Beside { d with store := s, pending := d.pending.erase t } t :=
  fun t' hne ↦ ⟨by rw [Entries.get?_erase, if_neg hne], rfl⟩

theorem beside_replaced (d : Desk) (t : Ticket) (h : LockedIntent) :
    d.Beside { d with handles := d.handles.insert t h } t :=
  fun t' hne ↦ ⟨rfl, by rw [Entries.get?_insert, if_neg hne]⟩

theorem handle_of_openLocked {key : String} {h : LockedIntent} (ho : (d.store.openLocked t key).1 = .ok h) :
    h.ticket = t ∧ (d.served t (d.store.openLocked t key)).handles.get? t = some h := by
  unfold served
  rcases d.store.openLocked_cases t key with ⟨e, -, he⟩ | ⟨i, -, he⟩
  · rw [he] at ho
    cases ho
  · rw [he] at ho ⊢
    cases ho
    exact ⟨rfl, by rw [Entries.get?_insert, if_pos rfl]⟩

theorem beside_returned (d : Desk) (t : Ticket) (s : Store) : d.Beside (d.returned t s) t :=
  fun t' hne ↦ ⟨rfl, by rw [returned, Entries.get?_erase, if_neg hne]⟩

end Desk

namespace Simulation

open Program Reevaluation

/-- A correction under a deadline, with the desk that it begins at and the events that were sent before. -/
structure Setting where
  desk : Desk
  config : Config
  request : ReevaluationRequest
  deadline : Deadline
  sent : List AuditEvent

/-- A run of the correction has come to where the simulation is. -/
structure Mirrors (u : Setting) (s : Simulation) (a : Attempt) : Prop where
  reach : (Attempt.start u.desk u.config u.request).Run u.deadline.limit u.request.intentKey a
  store : a.desk.store = s.store
  clock : s.clock = u.deadline.start + a.elapsed
  events : s.events = u.sent ++ if s.sinkBroken then [] else a.log.events

structure Works (u : Setting) (q : Progress) (s : Simulation) (a : Attempt) : Prop extends Mirrors u s a where
  result : a.result? = none
  progress : a.progress = q

def Ended (u : Setting) (s : Simulation) : Prop :=
  ∃ a, Mirrors u s a ∧ a.result? = some (.error (.deadlineExceeded u.request.intentKey u.deadline.limit))

variable {is : List Intent} {s₀ st : Store} {u : Setting} {s s' : Simulation} {a : Attempt} {p : Program Outcome}
  {q q' : Progress} {c : Call} {next : c.Answer → Program Outcome} {ans : c.Answer}
  {x : Except ReevaluationError ReevaluationResponse}

namespace Works

theorem waited (h : Works u q s a) (hw : s.Waited s') : ∃ n, Works u q s' (a.later n) := by
  obtain ⟨n, hn⟩ := Nat.le.dest hw.clock
  refine ⟨n, ⟨h.reach.snoc (.pass n h.result), ?_, ?_, ?_⟩, h.result, h.progress⟩
  · rw [hw.rest]
    exact h.store
  · rw [← hn, h.clock, Nat.add_assoc]
    rfl
  · rw [hw.rest]
    exact h.events

theorem plays_wait (h : Works u q s a) {x : Run Unit} (hx : Waits x) :
    Plays u.deadline s x (fun _ s' ↦ ∃ n, Works u q s' (a.later n))
      fun s' ↦ (∃ n, Works u q s' (a.later n)) ∧ u.deadline.moment ≤ s'.clock :=
  (hx u.deadline s).mono (fun _ _ hw ↦ h.waited hw) fun _ hw ↦ ⟨h.waited hw.1, hw.2⟩

theorem plays_nextAction (h : Works u q s a) (m : Method) {cuts : Simulation → Prop} :
    Plays u.deadline s (nextAction m) (fun _ s' ↦ Works u q s' a) cuts :=
  .of_play rfl ⟨⟨h.reach, h.store, h.clock, h.events⟩, h.result, h.progress⟩

theorem others (h : Works u q s a) {desk : Desk} (hd : a.desk.Step desk) {t : Ticket} (hbeside : a.desk.Beside desk t)
    (hne : ∀ t', a.ticket? = some t' → t' ≠ t) (hst : desk.store = st) :
    Works u q { s with store := st } (a.meanwhile desk) :=
  ⟨⟨h.reach.snoc (.others hd fun t' ht ↦ hbeside t' (hne t' ht)), hst, h.clock, h.events⟩, h.result, h.progress⟩

theorem advanced (h : Works u q s a) {e : Errand} (he : a.toErrand.Step e) (hown : a.Advances e) (hp : e.progress = q')
    (hevents : Log.events e.log = a.log.events) (hst : e.desk.store = st) :
    Works u q' { s with store := st } (a.advanced e) := by
  refine ⟨⟨h.reach.snoc (.own h.result he hown), hst, h.clock, ?_⟩, h.result, hp⟩
  have hsent := h.events
  rw [← hevents] at hsent
  exact hsent

theorem answered (h : Works u (.running (.call c next)) s a) (ha : s.store.Answers c ans st) (hc : c.event? = none) :
    ∃ a', Works u (.running (next ans)) { s with store := st } a' := by
  rw [← h.store] at ha
  exact ⟨_, h.advanced (.visit (.answer h.progress ha)) (Errand.advances_answered _ _ _ _) rfl
    (Log.events_concat hc a.log) (Desk.store_settled _ _ _)⟩

theorem failed (h : Works u (.running (.call c next)) s a) (ha : c.FailsWith ans) (hc : c.event? = none)
    (hst : s.store.failed c = st) : ∃ a', Works u (.running (next ans)) { s with store := st } a' := by
  refine ⟨_, h.advanced (.fail h.progress ha) (Errand.advances_answered _ _ _ _) rfl
    (Log.events_concat hc a.log) ?_⟩
  rw [← hst, ← h.store]
  exact Desk.store_settled _ _ _

theorem plays_finish {γ : Type} (m : Method) (handle : LockedIntent) {g : Store → Except StorageError γ × Store}
    (h : Works u (.running p) s a) {ends : Except StorageError γ → Simulation → Prop} {cuts : Simulation → Prop}
    (hdone : ∀ s', Works u (.running p) s' a → ends (g s'.store).1 { s' with store := (g s'.store).2 })
    (hfail : ∀ e s', Works u (.running p) s' a → ends (.error e) { s' with store := s'.store.abort handle }) :
    Plays u.deadline s (finish m handle g) ends cuts := by
  refine .bind ((h.plays_nextAction m).mono (fun action s' h' ↦ ?_) fun _ h ↦ h)
  cases action with
  | fail fault => exact .bind (.changes (.of_play (play_pure _ _ _) (hfail _ _ h')))
  | _ => exact .changes (hdone s' h')

theorem emitted {event : AuditEvent} {next : Except AuditError Unit → Program Outcome}
    (h : Works u (.running (.call (.emit event) next)) s a) :
    Plays u.deadline s (emit event) (fun ans s' ↦ ∃ a', Works u (.running (next ans)) s' a') (Ended u) := by
  have hsent := h.events
  cases hbroken : s.sinkBroken with
  | true =>
    have hplay : play (some u.deadline) s (emit event) = (.ok (.error .unavailable), s) := by
      rw [emit, play_modifyGet]
      simp [hbroken]
    refine .of_play hplay ⟨_, ⟨h.reach.snoc (.own h.result (.visit (.answer h.progress rfl))
      (Errand.advances_answered _ _ _ _)), h.store, h.clock, ?_⟩, h.result, rfl⟩
    simpa [hbroken] using hsent
  | false =>
    have hplay : play (some u.deadline) s (emit event) = (.ok (.ok ()), { s with events := s.events ++ [event] }) := by
      rw [emit, play_modifyGet]
      simp [hbroken]
    refine .of_play hplay ⟨_, ⟨h.reach.snoc (.own h.result (.visit (.answer h.progress rfl))
      (Errand.advances_answered _ _ _ _)), h.store, h.clock, ?_⟩, h.result, rfl⟩
    have hevents : Log.events (a.log ++ [⟨.emit event, .ok ()⟩]) = a.log.events ++ [event] := by
      simp [Log.events, List.filterMap_append, Call.event?]
    simp only [hbroken, Bool.false_eq_true, if_false] at hsent ⊢
    rw [hsent, List.append_assoc, ← hevents]
    rfl

theorem cut (h : Works u q s a) {v : Visit} (hv : a.toVisit.Cut v) (hlog : v.log = a.log) (hst : v.desk.store = st)
    (hlate : u.deadline.moment ≤ s.clock) : Ended u { s with store := st } := by
  have hlimit : u.deadline.limit.nanoseconds ≤ a.elapsed := by
    rw [h.clock] at hlate
    exact Nat.le_of_add_le_add_left hlate
  refine ⟨_, ⟨h.reach.snoc (.cut h.result hv hlimit), hst, h.clock, ?_⟩, rfl⟩
  have hevents := h.events
  rw [← hlog] at hevents
  exact hevents

theorem plays_ownLock {key : String} {timeout : Duration} {next : Except StorageError LockedIntent → Program Outcome}
    (h : Works u (.running (.call (.lock key timeout) next)) s a) :
    Plays u.deadline s (lock key timeout) (fun ans s' ↦ ∃ a', Works u (.running (next ans)) s' a') (Ended u) := by
  unfold lock
  refine .bind (.cleanUp ((h.plays_wait waits_spend).mono ?_ ?_))
  · rintro _ s₁ ⟨n, h₁⟩
    have h₂ := h₁.advanced (.visit (.ask h₁.progress)) (.inr (by simp [h₁.progress, Errand.next])) rfl rfl rfl
    refine .bind (.changes ?_)
    rw [← h₁.store]
    refine .bind (.of_play (play_get _ _) ?_)
    split
    · rename_i hphase
      exact .changes ⟨_, h₂.advanced (.visit (.openLocked h₂.progress hphase))
        (Errand.advances_answered _ _ _ _) rfl (Log.events_concat rfl _) rfl⟩
    · rename_i hphase
      have hwaiting := ((a.later n).desk.store.locks.holding_or_waiting_begin key).resolve_left hphase
      refine .bind (.cleanUp ((h₂.plays_wait (waits_wait timeout)).mono ?_ ?_))
      · rintro _ s₂ ⟨m, h₃⟩
        refine .bind (.changes (.of_play (play_pure _ _ _) ?_))
        refine ⟨_, h₃.advanced (.visit (.expire h₃.progress hwaiting)) (Errand.advances_answered _ _ _ _) rfl
          (Log.events_concat rfl _) ?_⟩
        rw [← h₃.store]
        rfl
      · rintro s₂ ⟨⟨m, h₃⟩, hlate⟩
        refine h₃.cut (.locking h₃.progress hphase) rfl ?_ hlate
        rw [← h₃.store]
  · rintro s₁ ⟨⟨n, h₁⟩, hlate⟩
    exact h₁.cut (.lookUp h₁.progress) rfl (congrArg (Store.registerLock · key) h₁.store) hlate

end Works

section

variable (hs : Store.ofIntents is = .ok s₀) (hd : (Desk.start s₀).Run u.desk)

include hs hd

namespace Works

theorem inv (h : Works u (.running p) s a) : a.Inv s₀ u.config u.request u.deadline.limit u.desk :=
  (Attempt.inv_start hd).run hs h.reach

/-- Whoever asks for a lock now gets another ticket than the correction has. -/
theorem fresh (h : Works u (.running p) s a) (key : String) :
    ∀ t, a.ticket? = some t → t ≠ (a.desk.store.beginLock key).1 := by
  intro t ht
  have hsound := (h.inv hs hd).errand.sound
  have hg := hsound.guarded hs
  have hticket : (a.desk.store.beginLock key).1 = a.desk.store.locks.nextTicket := (hg.locks.begin key).2.1
  obtain ⟨held, hheld, rfl⟩ : ∃ held, a.log.held = some held ∧ held.ticket = t := by
    simpa [Visit.ticket?, h.progress] using ht
  rw [hticket]
  exact Nat.ne_of_lt (hg.lt_of_handle (hsound.running _ h.progress held hheld))

/-- A call that is made with empty hands is cut off in a wait. -/
theorem cut_idle (h : Works u (.running (.call c next)) s a) (hc : c.mayWait = true)
    (hidle : a.log.Waits c → a.log.Idle) (hlate : u.deadline.moment ≤ s.clock) : Ended u s := by
  have hwaits := Job.waits_of_leads ((h.inv hs hd).errand.sound.leads _ (by rw [h.progress]; rfl))
  have hst : a.letGo.store = s.store := by
    rw [Visit.letGo, (hidle hwaits).held]
    exact h.store
  exact h.cut (.before h.progress hc) rfl hst hlate

theorem plays_idle (h : Works u (.running (.call c next)) s a) (hc : c.mayWait = true)
    (hidle : ∀ log : Log, log.Waits c → log.Idle) {x : Run Unit} (hx : Waits x) :
    Plays u.deadline s x (fun _ s' ↦ ∃ a', Works u (.running (.call c next)) s' a') (Ended u) := by
  refine (h.plays_wait hx).mono (fun _ _ ⟨n, h'⟩ ↦ ⟨_, h'⟩) ?_
  rintro s' ⟨⟨n, h'⟩, hlate⟩
  exact h'.cut_idle hs hd hc (hidle _) hlate

theorem plays_lock (h : Works u (.running p) s a) (key : String) (timeout : Duration) :
    Plays u.deadline s (lock key timeout)
      (fun result s' ↦ ∃ a', Works u (.running p) s' a' ∧ ∀ handle, result = .ok handle →
        a'.desk.handles.get? handle.ticket = some handle ∧ ∀ t, a'.ticket? = some t → t ≠ handle.ticket)
      fun s' ↦ (∃ a', Works u (.running p) s' a') ∧ u.deadline.moment ≤ s'.clock := by
  unfold lock
  refine .bind (.cleanUp ((h.plays_wait waits_spend).mono ?_ ?_))
  · rintro _ s₁ ⟨n, h₁⟩
    have hne := h₁.fresh hs hd key
    have h₂ := h₁.others (.ask key timeout) (Desk.beside_asked _ key timeout) hne rfl
    have hpending : ((a.later n).desk.asked key timeout).pending.get? ((a.later n).desk.store.beginLock key).1 =
        some (key, timeout) := by rw [Desk.asked, Entries.get?_insert, if_pos rfl]
    refine .bind (.changes ?_)
    rw [← h₁.store]
    refine .bind (.of_play (play_get _ _) ?_)
    split
    · rename_i hphase
      have h₃ := h₂.others (.openLocked hpending hphase) (Desk.beside_served _ _ _) hne rfl
      refine .changes ⟨_, h₃, fun handle ho ↦ ?_⟩
      obtain ⟨hticket, hhandle⟩ := Desk.handle_of_openLocked (d := (a.later n).desk.asked key timeout) ho
      rw [hticket]
      exact ⟨hhandle, hne⟩
    · rename_i hphase
      have hwaiting := ((a.later n).desk.store.locks.holding_or_waiting_begin key).resolve_left hphase
      refine .bind (.cleanUp ((h₂.plays_wait (waits_wait timeout)).mono ?_ ?_))
      · rintro _ s₂ ⟨m, h₃⟩
        refine .bind (.changes (.of_play (play_pure _ _ _) ?_))
        refine ⟨_, h₃.others (.expire hpending hwaiting) (Desk.beside_served _ _ _) hne ?_, by simp⟩
        rw [← h₃.store]
        rfl
      · rintro s₂ ⟨⟨m, h₃⟩, hlate⟩
        refine ⟨⟨_, h₃.others (.cancel hpending hphase) (Desk.beside_cancelled _ _ _) hne ?_⟩, hlate⟩
        rw [← h₃.store]
  · rintro s₁ ⟨⟨n, h₁⟩, hlate⟩
    have hne := h₁.fresh hs hd key
    have hst := congrArg (Store.registerLock · key) h₁.store
    exact ⟨⟨_, h₁.others (.lookUp key) (fun _ _ ↦ ⟨rfl, rfl⟩) hne hst⟩, hlate⟩

theorem plays_rivalChanges (h : Works u (.running p) s a) (key : String) (change : RivalChange) :
    Plays u.deadline s (rivalChanges key change) (fun _ s' ↦ ∃ a', Works u (.running p) s' a')
      fun s' ↦ (∃ a', Works u (.running p) s' a') ∧ u.deadline.moment ≤ s'.clock := by
  refine .bind ((h.plays_lock hs hd key rivalPatience).mono ?_ fun _ h ↦ h)
  rintro result s₁ ⟨a₁, h₁, hhandle⟩
  cases result with
  | error e => exact .of_play (play_pure _ _ _) ⟨a₁, h₁⟩
  | ok handle =>
    obtain ⟨hout, hne⟩ := hhandle handle rfl
    refine .bind (.of_play (play_get _ _) ?_)
    cases hchange : change.apply? handle.intent s₁.date with
    | none =>
      refine .bind (.changes (.of_play (play_pure _ _ _) ?_))
      rw [← h₁.store]
      exact ⟨_, h₁.others (.abort hout) (Desk.beside_returned _ _ _) hne rfl⟩
    | some next =>
      refine .bind (.changes (.of_play (play_pure _ _ _) ?_))
      rw [← h₁.store]
      split
      · exact ⟨_, h₁.others (.commit hout) (Desk.beside_returned _ _ _) hne rfl⟩
      · have h₂ := h₁.others (.replace hout (RivalChange.key_eq hchange)) (Desk.beside_replaced _ _ _) hne h₁.store
        have hout₂ := Entries.get?_insert handle.ticket handle.ticket (handle.replace next) a₁.desk.handles
        rw [if_pos rfl] at hout₂
        exact ⟨_, h₂.others (.commit hout₂) (Desk.beside_returned _ _ _) hne rfl⟩

theorem plays_rival (h : Works u (.running (.call c next)) s a) (hc : c.mayWait = true)
    (hidle : ∀ log : Log, log.Waits c → log.Idle) (key : String) (change : RivalChange) :
    Plays u.deadline s (rivalChanges key change) (fun _ s' ↦ ∃ a', Works u (.running (.call c next)) s' a')
      (Ended u) := by
  refine (h.plays_rivalChanges hs hd key change).mono (fun _ _ h' ↦ h') ?_
  rintro s' ⟨⟨a', h'⟩, hlate⟩
  exact h'.cut_idle hs hd hc (hidle _) hlate

theorem plays_answer (h : Works u (.running (.call c next)) s a) :
    Plays u.deadline s (answer c) (fun ans s' ↦ ∃ a', Works u (.running (next ans)) s' a') (Ended u) := by
  cases c with
  | get key =>
    refine .bind ((h.plays_nextAction .get).mono (fun action s₁ h₁ ↦ ?_) fun _ h ↦ h)
    cases action with
    | fail fault => exact .of_play (play_pure _ _ _) (h₁.failed ⟨_, rfl⟩ rfl rfl)
    | delay t =>
      refine .bind ((h₁.plays_idle hs hd rfl (fun _ h ↦ h) (waits_sleep t)).mono ?_ fun _ h ↦ h)
      rintro _ s₂ ⟨a₂, h₂⟩
      exact .changes (h₂.answered ⟨rfl, rfl⟩ rfl)
    | _ => exact .changes (h₁.answered ⟨rfl, rfl⟩ rfl)
  | swap key i record expected =>
    refine .bind ((h.plays_nextAction .swap).mono (fun action s₁ h₁ ↦ ?_) fun _ h ↦ h)
    have hrival := h₁.others (.swap key i record expected) (t := (a.desk.store.beginLock key).1) (fun _ _ ↦ ⟨rfl, rfl⟩)
      (h₁.fresh hs hd key) (congrArg (fun st ↦ (st.compareAndSwap key i record expected).2) h₁.store)
    cases action with
    | fail fault => exact .of_play (play_pure _ _ _) (h₁.failed (.inr ⟨_, rfl⟩) rfl rfl)
    | refuse => exact .of_play (play_pure _ _ _) (h₁.failed (.inl rfl) rfl rfl)
    | rivalSwap => exact .bind (.changes (.changes (hrival.answered rfl rfl)))
    | rivalSwapOnly => exact .bind (.changes (.of_play (play_pure _ _ _) (hrival.failed (.inl rfl) rfl rfl)))
    | rival change =>
      refine .bind ((h₁.plays_rival hs hd rfl (fun _ h ↦ h) key change).mono ?_ fun _ h ↦ h)
      rintro result s₂ ⟨a₂, h₂⟩
      cases result with
      | error e => exact .of_play (play_pure _ _ _) (h₂.failed (.inr ⟨_, rfl⟩) rfl rfl)
      | ok _ => exact .changes (h₂.answered rfl rfl)
    | _ => exact .changes (h₁.answered rfl rfl)
  | lock key timeout =>
    refine .bind ((h.plays_nextAction .lock).mono (fun action s₁ h₁ ↦ ?_) fun _ h ↦ h)
    cases action with
    | fail fault => exact .of_play (play_pure _ _ _) (h₁.failed ⟨_, rfl⟩ rfl rfl)
    | delay t =>
      refine .bind ((h₁.plays_idle hs hd rfl (fun _ h ↦ h) (waits_sleep t)).mono ?_ fun _ h ↦ h)
      rintro _ s₂ ⟨a₂, h₂⟩
      exact h₂.plays_ownLock
    | rival change =>
      refine .bind ((h₁.plays_rival hs hd rfl (fun _ h ↦ h) key change).mono ?_ fun _ h ↦ h)
      rintro result s₂ ⟨a₂, h₂⟩
      cases result with
      | error e => exact .of_play (play_pure _ _ _) (h₂.failed ⟨_, rfl⟩ rfl rfl)
      | ok _ => exact h₂.plays_ownLock
    | _ => exact h₁.plays_ownLock
  | commit handle =>
    exact h.plays_finish .commit handle (fun s' h' ↦ h'.answered rfl rfl)
      fun e s' h' ↦ h'.failed ⟨_, rfl⟩ rfl rfl
  | abort handle =>
    exact h.plays_finish .abort handle (fun s' h' ↦ h'.answered ⟨rfl, rfl⟩ rfl)
      fun e s' h' ↦ h'.failed ⟨_, rfl⟩ rfl rfl
  | drop handle => exact .changes (g := fun s ↦ ((), s.abort handle)) (h.answered rfl rfl)
  | pause policy attempt =>
    refine (h.plays_idle hs hd rfl (fun _ h ↦ h) (waits_sleep _)).mono ?_ fun _ h ↦ h
    rintro _ s₂ ⟨a₂, h₂⟩
    exact h₂.answered rfl rfl
  | now => exact .bind (.of_play (play_get _ _) (.of_play (play_pure _ _ _) (h.answered rfl rfl)))
  | emit event => exact h.emitted

theorem plays_run {p : Program (Except ReevaluationError ReevaluationResponse)}
    (h : Works u (.running (Outcome.corrected <$> p)) s a) :
    Plays u.deadline s (run p) (fun x s' ↦ ∃ a', Works u (.running (.done (.corrected x))) s' a') (Ended u) := by
  induction p generalizing s a with
  | done x => exact .of_play (play_pure _ _ _) ⟨a, h⟩
  | call c next ih =>
    refine .bind ((h.plays_answer hs hd).mono ?_ fun _ h ↦ h)
    rintro ans s' ⟨a', h'⟩
    exact ih ans h'

end Works

end

/-- What a simulation under a deadline gives is what a correction under that deadline may give. -/
theorem exists_attempt (hs : Store.ofIntents is = .ok s₀) {d : Desk} (hd : (Desk.start s₀).Run d) (config : Config)
    (r : ReevaluationRequest) (limit : Duration) (hm : s.store = d.store)
    (hrun : (runWithin (some limit) r.intentKey (reevaluate config r)).run s = (x, s')) :
    ∃ a, (Attempt.start d config r).Run limit r.intentKey a ∧ a.result? = some x ∧ a.desk.store = s'.store ∧
      s'.clock = s.clock + a.elapsed ∧ s'.events = s.events ++ if s'.sinkBroken then [] else a.log.events := by
  have hworks : Works ⟨d, config, r, ⟨s.clock, limit⟩, s.events⟩ (.running (Outcome.corrected <$> reevaluate config r))
      { s with allowance := fullAllowance } (Attempt.start d config r) :=
    ⟨⟨.nil, hm.symm, rfl, by simp [Attempt.start, Errand.start, Visit.start, Log.events]⟩, rfl, rfl⟩
  have hplays := hworks.plays_run hs hd
  unfold Plays at hplays
  rw [run_runWithin, Option.map_some] at hrun
  rcases hplay : play (some ⟨s.clock, limit⟩) { s with allowance := fullAllowance } (run (reevaluate config r)) with
    ⟨limit' | y, t⟩
  all_goals
    rw [hplay] at hplays hrun
    cases hrun
  · obtain ⟨rfl, a, ha, hresult⟩ := hplays
    exact ⟨a, ha.reach, hresult, ha.store, ha.clock, ha.events⟩
  · obtain ⟨a, ha⟩ := hplays
    exact ⟨_, ha.reach.snoc (.finish ha.result ha.progress), rfl, ha.store, ha.clock, ha.events⟩

end Simulation

namespace Attempt

open Simulation Reevaluation

/-- A correction under a deadline, on a store that anyone may use meanwhile. If it reports that it missed the deadline,
it has written nothing and sent nothing, and it has no lock. If it reports anything else, or is over in time, it has gone
like a correction without a deadline, and every such correction can go like this. A simulation of it is one of its runs,
and gives just what the protocol gives if that is over before the deadline. -/
theorem run_deadline {is : List Intent} {s : Store} (hs : Store.ofIntents is = .ok s) {d : Desk}
    (hd : (Desk.start s).Run d) (config : Config) (r : ReevaluationRequest) (limit : Duration) :
    (∀ a key limit', (start d config r).Run limit r.intentKey a →
      a.result? = some (.error (.deadlineExceeded key limit')) →
      (key = r.intentKey ∧ limit' = limit) ∧ a.Missed limit) ∧
    (∀ a x, (start d config r).Run limit r.intentKey a → a.result? = some x →
      (∀ key limit', x ≠ .error (.deadlineExceeded key limit')) ∨ a.elapsed < limit.nanoseconds →
      (Errand.start d (.correction config r)).Run a.toErrand ∧ a.progress = .running (.done (.corrected x))) ∧
    (∀ e x, (Errand.start d (.correction config r)).Run e → e.progress = .running (.done (.corrected x)) →
      ∃ own, (start d config r).Run limit r.intentKey ⟨e, 0, own, some x⟩) ∧
    ∀ m : Simulation, m.store = d.store →
      (∀ x m', (runWithin (some limit) r.intentKey (reevaluate config r)).run m = (x, m') →
        ∃ a, (start d config r).Run limit r.intentKey a ∧ a.result? = some x ∧ a.desk.store = m'.store ∧
          m'.clock = m.clock + a.elapsed ∧ m'.events = m.events ++ if m'.sinkBroken then [] else a.log.events) ∧
      ∀ x m', (runWithin none r.intentKey (reevaluate config r)).run m = (x, m') →
        m'.clock < m.clock + limit.nanoseconds →
        (runWithin (some limit) r.intentKey (reevaluate config r)).run m = (x, m') := by
  refine ⟨fun a key limit' hr hx ↦ run_missed hs hd hr hx,
    fun a x hr hx hfinished ↦ run_finished hs hd hr hx hfinished, fun e x hr hp ↦ ?_,
    fun m hm ↦ ⟨fun x m' hrun ↦ exists_attempt hs hd config r limit hm hrun, fun x m' hrun hearly ↦ ?_⟩⟩
  · obtain ⟨own, hown⟩ := run_of_errand limit hr
    exact ⟨own, hown.snoc (.finish rfl hp)⟩
  · rcases runWithin_eq_or limit r.intentKey (reevaluate config r) m with hsame | ⟨hlate, -⟩
    · rw [hsame, hrun]
    · rw [hrun] at hlate
      exact absurd hlate (Nat.not_le_of_lt hearly)

end Attempt

namespace Contention

open Simulation Reevaluation

def simulation : Simulation := Simulation.start desk.store Race.noon (fun _ ↦ .quiet) false

def corrected (limit : Option Duration) : Except ReevaluationError ReevaluationResponse × Simulation :=
  (runWithin limit Race.request.intentKey (reevaluate .default Race.request)).run simulation

theorem corrected_missed :
    (corrected (some (.ofSeconds 2))).1 = .error (.deadlineExceeded Race.request.intentKey (.ofSeconds 2)) := by
  have h : (match (corrected (some (.ofSeconds 2))).1 with | .error e => some e | .ok _ => none) =
      some (.deadlineExceeded Race.request.intentKey (.ofSeconds 2)) := by decide +kernel
  split at h
  · rename_i e he
    rw [he, Option.some.inj h]
  · cases h

theorem clock_corrected : (corrected none).2.clock < simulation.clock + (Duration.ofSeconds 6).nanoseconds := by
  decide +kernel

end Contention

namespace Attempt

/-- The deadline comes while the correction waits for the lock. With more time it goes as without a deadline. -/
theorem run_deadline_contention :
    (∃ a, (start Contention.desk .default Race.request).Run (.ofSeconds 2) Race.request.intentKey a ∧
      a.result? = some (.error (.deadlineExceeded Race.request.intentKey (.ofSeconds 2))) ∧ a.Missed (.ofSeconds 2)) ∧
    Contention.corrected (some (.ofSeconds 6)) = Contention.corrected none := by
  constructor
  · obtain ⟨hmissed, -, -, hsimulation⟩ := run_deadline Race.ofIntents_payment Contention.run_desk .default Race.request
      (.ofSeconds 2)
    have hx := Contention.corrected_missed
    rcases hrun : Contention.corrected (some (.ofSeconds 2)) with ⟨x, m⟩
    obtain ⟨a, hr, hresult, -⟩ := (hsimulation Contention.simulation rfl).1 x m hrun
    rw [hrun] at hx
    rw [show x = _ from hx] at hresult
    exact ⟨a, hr, hresult, (hmissed a _ _ hr hresult).2⟩
  · obtain ⟨-, -, -, hsimulation⟩ := run_deadline Race.ofIntents_payment Contention.run_desk .default Race.request
      (.ofSeconds 6)
    have hearly := Contention.clock_corrected
    rcases hrun : Contention.corrected none with ⟨x, m⟩
    rw [hrun] at hearly
    exact (hsimulation Contention.simulation rfl).2 x m hrun hearly

end Attempt

end IntentCorrection
