import IntentCorrection.Proofs.Concurrency.Isolation
import IntentCorrection.Proofs.Reevaluation.Conduct
import IntentCorrection.Proofs.Store.Owned

namespace IntentCorrection

open Program

/-- What a call may be answered without being made. -/
def Call.FailsWith : (c : Call) → c.Answer → Prop
  | .get _, a => ∃ e, a = .error e
  | .swap .., a => a = .ok false ∨ ∃ e, a = .error e
  | .lock .., a => ∃ e, a = .error e
  | .commit _, a => ∃ e, a = .error e
  | .abort _, a => ∃ e, a = .error e
  | _, _ => False

def Store.failed (s : Store) (c : Call) : Store :=
  match c.returns? with
  | some h => s.abort h
  | none => s

structure Turn where
  exchange : Exchange
  before : Store
  after : Store

structure Errand extends Visit where
  turns : List Turn
  /-- The tickets that the job has had. -/
  tickets : List Ticket

namespace Errand

def start (d : Desk) (job : Job) : Errand := ⟨Visit.start d job, [], []⟩

def next (e : Errand) (v : Visit) : Errand where
  toVisit := v
  turns := e.turns ++ (v.log.drop e.log.length).map (⟨·, e.desk.store, v.desk.store⟩)
  tickets := e.tickets ++ v.ticket?.toList

inductive Step (e : Errand) : Errand → Prop
  /-- Goes on as on a store that works. -/
  | visit {v : Visit} : e.toVisit.Step v → Step e (e.next v)
  | fail {c : Call} {next : c.Answer → Program Outcome} {a : c.Answer} :
      e.progress = .running (.call c next) → c.FailsWith a →
      Step e (e.next (e.answered ⟨c, a⟩ (next a) (e.desk.settled c (e.desk.store.failed c))))

inductive Run (e : Errand) : Errand → Prop
  | nil : Run e e
  | snoc {e₁ e₂ : Errand} : Run e e₁ → Step e₁ e₂ → Run e e₂

end Errand

namespace Call.FailsWith

variable {c : Call} {a : c.Answer}

theorem served (h : c.FailsWith a) (s : Store) : s.Served ⟨c, a⟩ (s.failed c) := by
  cases c with
  | get key =>
    obtain ⟨e, rfl⟩ := h
    exact Store.served_of_quiet trivial rfl rfl .rfl
  | swap key i r expected =>
    rcases h with rfl | ⟨e, rfl⟩
    all_goals exact Store.served_of_quiet trivial rfl rfl .rfl
  | lock key timeout =>
    obtain ⟨e, rfl⟩ := h
    exact Store.served_of_quiet trivial rfl rfl .rfl
  | commit handle =>
    obtain ⟨e, rfl⟩ := h
    exact Store.served_of_quiet trivial rfl rfl (Store.sameContents_release s handle.ticket)
  | abort handle =>
    obtain ⟨e, rfl⟩ := h
    exact Store.served_of_quiet trivial rfl rfl (Store.sameContents_release s handle.ticket)
  | drop _ | pause _ _ | now | emit _ => exact h.elim

theorem hands (h : c.FailsWith a) (held : Option LockedIntent) :
    Exchange.hands held ⟨c, a⟩ = if c.returns?.isSome then none else held := by
  cases c with
  | lock key timeout =>
    obtain ⟨e, rfl⟩ := h
    rfl
  | _ => rfl

end Call.FailsWith

namespace Desk

variable {d d' : Desk} {t : Ticket}

@[simp] theorem store_settled (d : Desk) (c : Call) (s : Store) : (d.settled c s).store = s := by
  unfold settled
  split <;> rfl

theorem Gone.run (hgone : d.Gone t) (hg : d.Guarded) (hr : d.Run d') : d'.Gone t := by
  induction hr with
  | nil => exact hgone
  | snoc hr hs ih => exact ih.step (hg.run hr) hs

theorem Guarded.gone_served (hg : d.Guarded) {x : String × Duration} (ht : d.pending.get? t = some x)
    {e : StorageError} {s : Store} (hnext : s.locks.nextTicket = d.store.locks.nextTicket) :
    (d.served t (.error e, s)).Gone t where
  lt := hnext ▸ hg.lt_of_pending ht
  pending := by rw [Desk.served, Entries.get?_erase, if_pos rfl]
  handles := hg.apart t x ht

end Desk

namespace Visit

variable {is : List Intent} {s s' : Store} {job : Job} {v v' : Visit} {c : Call} {next : c.Answer → Program Outcome}
  {a : c.Answer} {t : Ticket}

theorem Step.log (h : v.Step v') :
    v'.log = v.log ∨ ∃ x, v'.log = v.log ++ [x] ∧ v.desk.store.Served x v'.desk.store := by
  cases h with
  | others _ _ => exact .inl rfl
  | @answer c next a s' hp ha =>
    refine .inr ⟨⟨c, a⟩, rfl, ?_⟩
    rw [Visit.answered, Desk.store_settled]
    exact ha.served
  | ask _ => exact .inl rfl
  | @openLocked t key timeout next hp hphase => exact .inr ⟨_, rfl, v.desk.store.served_openLocked t key timeout⟩
  | expire hp hphase => exact .inr ⟨_, rfl, Store.served_of_quiet trivial rfl rfl ⟨rfl, rfl⟩⟩

namespace Sound

theorem run_failed (hv : Sound s job v) (hp : v.progress = .running (.call c next)) :
    v.desk.Run (v.desk.settled c (v.desk.store.failed c)) := by
  unfold Store.failed Desk.settled
  cases hc : c.returns? with
  | none => exact Desk.Run.nil
  | some h =>
    obtain ⟨h₀, -, hout, hticket⟩ := hv.returns hp hc
    have hstep := Desk.Step.abort hout
    simp only [Store.abort, ← hticket] at hstep
    exact Desk.Run.nil.snoc hstep

theorem run_step (hv : Sound s job v) (h : v.Step v') : v.desk.Run v'.desk := by
  cases h with
  | others hd _ => exact Desk.Run.nil.snoc hd
  | answer hp ha => exact hv.run_answers hp ha
  | ask hp => exact Desk.Run.nil.snoc (.ask _ _)
  | openLocked hp hphase => exact Desk.Run.nil.snoc (.openLocked (hv.locking _ _ _ _ hp).1 hphase)
  | expire hp hphase => exact Desk.Run.nil.snoc (.expire (hv.locking _ _ _ _ hp).1 hphase)

theorem ticket_settled (hv : Sound s job v) (hs : Store.ofIntents is = .ok s)
    (hp : v.progress = .running (.call c next)) (hrun : v.desk.Run (v.desk.settled c s'))
    (hands : Exchange.hands v.log.held ⟨c, a⟩ = if c.returns?.isSome then none else v.log.held)
    (ht : v.ticket? = some t) :
    (v.desk.settled c s').Gone t ∨ (v.answered ⟨c, a⟩ (next a) (v.desk.settled c s')).ticket? = some t := by
  have hheld : v.log.held.map LockedIntent.ticket = some t := by simpa [Visit.ticket?, hp] using ht
  cases hc : c.returns? with
  | none =>
    right
    simp only [hc, Option.isSome_none, Bool.false_eq_true, if_false] at hands
    rw [Visit.ticket?, Visit.answered]
    dsimp only
    rw [Log.held_append, List.foldl_cons, List.foldl_nil, hands]
    exact hheld
  | some h =>
    obtain ⟨h₀, hheld₀, hout, hticket⟩ := hv.returns hp hc
    obtain rfl : h₀.ticket = t := by simpa [hheld₀] using hheld
    rcases (hv.guarded hs).run_kept hrun hout with hgone | hkept
    · exact .inl hgone
    · obtain ⟨h', hh', -⟩ := hkept.handle
      rw [Desk.settled, hc] at hh'
      simp [Desk.returned, Entries.get?_erase, hticket] at hh'

theorem ticket_step (hv : Sound s job v) (hs : Store.ofIntents is = .ok s) (h : v.Step v') (ht : v.ticket? = some t) :
    v'.desk.Gone t ∨ v'.ticket? = some t := by
  have hg := hv.guarded hs
  cases h with
  | others _ _ => exact .inr ht
  | @answer c next a s' hp ha =>
    refine hv.ticket_settled hs hp (hv.run_answers hp ha) ?_ ht
    cases c with
    | lock key timeout => exact ha.elim
    | _ => rfl
  | @ask key timeout next hp =>
    -- A job asks for a lock with empty hands only.
    have hnone : v.log.held = none := (hv.mayHandle (show v.progress.rest? = some (.call (.lock key timeout) next) by
      rw [hp]; rfl)).1
    simp [Visit.ticket?, hp, hnone] at ht
  | @openLocked t' key timeout next hp hphase =>
    obtain ⟨hpending, hheld⟩ := hv.locking _ _ _ _ hp
    obtain rfl : t' = t := by simpa [Visit.ticket?, hp] using ht
    rcases v.desk.store.openLocked_cases t' key with ⟨e, -, hopen⟩ | ⟨i, -, hopen⟩
    · rw [hopen]
      exact .inl (hg.gone_served hpending (by simp [Store.release]))
    · right
      simp [Visit.ticket?, Visit.answered, hopen, Exchange.hands]
  | @expire t' key timeout next hp hphase =>
    obtain ⟨hpending, -⟩ := hv.locking _ _ _ _ hp
    obtain rfl : t' = t := by simpa [Visit.ticket?, hp] using ht
    exact .inl (hg.gone_served hpending (by simp))

end Sound

end Visit

namespace Errand

variable {is : List Intent} {s : Store} {job : Job} {d : Desk} {v : Visit} {e e' : Errand} {outcome : Outcome}

structure Inv (s : Store) (job : Job) (e : Errand) : Prop where
  sound : e.toVisit.Sound s job
  log : e.log = e.turns.map Turn.exchange
  served : ∀ turn ∈ e.turns, turn.before.Served turn.exchange turn.after
  tickets : ∀ t ∈ e.tickets, e.desk.Gone t ∨ e.ticket? = some t

theorem inv_start (hd : (Desk.start s).Run d) : Inv s job (start d job) :=
  ⟨Visit.sound_start hd, rfl, by simp [start], by simp [start]⟩

namespace Inv

theorem next (he : Inv s job e) (hs : Store.ofIntents is = .ok s) (hv : v.Sound s job) (hrun : e.desk.Run v.desk)
    (hlog : v.log = e.log ∨ ∃ x, v.log = e.log ++ [x] ∧ e.desk.store.Served x v.desk.store)
    (hticket : ∀ t, e.ticket? = some t → v.desk.Gone t ∨ v.ticket? = some t) : Inv s job (e.next v) := by
  refine ⟨hv, ?_, fun turn hturn ↦ ?_, fun t ht ↦ ?_⟩
  · have hsame := he.log
    rcases hlog with hlog | ⟨x, hlog, -⟩
    all_goals simp [Errand.next, hlog, hsame]
  · rcases List.mem_append.1 hturn with hturn | hturn
    · exact he.served turn hturn
    · rcases hlog with hlog | ⟨x, hlog, hserved⟩
      · simp [hlog] at hturn
      · obtain rfl : turn = ⟨x, e.desk.store, v.desk.store⟩ := by simpa [hlog] using hturn
        exact hserved
  · rcases List.mem_append.1 ht with ht | ht
    · rcases he.tickets t ht with hgone | hnow
      · exact .inl (hgone.run (he.sound.guarded hs) hrun)
      · exact hticket t hnow
    · exact .inr (Option.mem_toList.1 ht)

theorem step (he : Inv s job e) (hs : Store.ofIntents is = .ok s) (h : e.Step e') : Inv s job e' := by
  have hv := he.sound
  cases h with
  | visit h => exact he.next hs (hv.step hs h) (hv.run_step h) h.log fun t ↦ hv.ticket_step hs h
  | @fail c next a hp ha =>
    have hserved := ha.served e.desk.store
    have hrun := hv.run_failed hp
    have hhands := ha.hands e.log.held
    refine he.next hs (hv.settled hp hrun (hserved.honest (hv.guarded hs).keyed) hhands) hrun (.inr ⟨⟨c, a⟩, rfl, ?_⟩)
      fun t ↦ hv.ticket_settled hs hp hrun hhands
    rw [Visit.answered, Desk.store_settled]
    exact hserved

theorem run (he : Inv s job e) (hs : Store.ofIntents is = .ok s) (hr : e.Run e') : Inv s job e' := by
  induction hr with
  | nil => exact he
  | snoc _ h ih => exact ih.step hs h

theorem concludes (he : Inv s job e) (hp : e.progress = .running (.done outcome)) : job.Concludes e.log outcome :=
  (he.sound.leads (.done outcome) (by rw [hp]; rfl)).obeys job.program_concludes he.sound.honest

/-- The job is done with empty hands, so all its tickets are used up, and whoever has a claim is someone else. -/
theorem claims (he : Inv s job e) (hs : Store.ofIntents is = .ok s) (hp : e.progress = .running (.done outcome))
    {t : Ticket} (ht : t ∈ e.tickets) : e.desk.store.locks.claims.get? t = none := by
  have hheld : e.log.held = none :=
    ((he.sound.leads (.done outcome) (by rw [hp]; rfl)).obeys job.program_handles he.sound.honest).1
  have howned : e.desk.Owned := (Desk.guarded_start hs).owned_run (Desk.owned_start hs) he.sound.reach
  rcases he.tickets t ht with hgone | hnow
  · exact howned.claim_of_gone hgone
  · simp [Visit.ticket?, hp, hheld] at hnow

end Inv

/-- Whatever the store and its other users do to a job: if it ends, its own calls have changed the store by the write
that its result tells of and not otherwise, and it holds no lock. -/
theorem run_concludes (hs : Store.ofIntents is = .ok s) (hd : (Desk.start s).Run d) (hr : (start d job).Run e)
    (hp : e.progress = .running (.done outcome)) :
    e.log = e.turns.map Turn.exchange ∧ (∀ turn ∈ e.turns, turn.before.Served turn.exchange turn.after) ∧
      job.Concludes e.log outcome ∧ ∀ t ∈ e.tickets, e.desk.store.locks.claims.get? t = none := by
  have he := (inv_start hd).run hs hr
  exact ⟨he.log, he.served, he.concludes hp, fun t ht ↦ he.claims hs hp ht⟩

def trouble : (c : Call) → Option { a : c.Answer // c.FailsWith a }
  | .swap .. => some ⟨.ok false, .inl rfl⟩
  | .commit h => some ⟨.error (.deadlock h.intent.key "lock cycle"), _, rfl⟩
  | _ => none

def turn (now : Timestamp) (e : Errand) (troubled : Bool) : Errand :=
  match e.progress with
  | .running (.call c next) =>
    match if troubled then trouble c else none with
    | some a => e.next (e.answered ⟨c, a⟩ (next a) (e.desk.settled c (e.desk.store.failed c)))
    | none => e.next (e.toVisit.turn now)
  | _ => e.next (e.toVisit.turn now)

theorem step_turn (e : Errand) (now : Timestamp) (troubled : Bool) : e.Step (e.turn now troubled) := by
  unfold turn
  split
  · rename_i hp
    split
    · rename_i a _
      exact .fail hp a.2
    · exact .visit (e.toVisit.step_turn now)
  · exact .visit (e.toVisit.step_turn now)

theorem Run.turns (h : e.Run e') (now : Timestamp) (troubles : List Bool) :
    e.Run (troubles.foldl (turn now) e') := by
  induction troubles generalizing e' with
  | nil => exact h
  | cons troubled troubles ih => exact ih (h.snoc (e'.step_turn now troubled))

end Errand

namespace Outage

open Errand

def errand : Errand :=
  [false, false, true, false, false, false, true, false, false, false, true,
    false, false, false, true, false, false, false, false, false, false, false].foldl (turn Race.noon)
    (start (Desk.start Race.store) (.correction .default Race.request))

theorem run_errand : (start (Desk.start Race.store) (.correction .default Race.request)).Run errand :=
  Run.nil.turns Race.noon _

end Outage

namespace Errand

/-- The fourth attempt has succeeded on its second commit. -/
theorem run_concludes_outage : ∃ i record expected,
    Outage.errand.progress = .running (.done (.corrected (.ok (.of i record false 4 true)))) ∧
      Outage.errand.log.writes = [⟨expected, i, [record]⟩] ∧ Outage.errand.tickets = [0, 0, 0, 1, 1, 1] ∧
        ∀ t ∈ Outage.errand.tickets, Outage.errand.desk.store.locks.claims.get? t = none := by
  obtain ⟨response, hp, halready, hattempts, hstarved⟩ : ∃ response,
      Outage.errand.progress = .running (.done (.corrected (.ok response))) ∧ response.alreadyApplied = false ∧
        response.attempts = 4 ∧ response.starvationDetected = true := ⟨_, rfl, rfl, rfl, rfl⟩
  obtain ⟨-, -, ⟨i, record, attempts, starved, hresponse, -, -, -, hwrites⟩, hfree⟩ :=
    run_concludes Race.ofIntents_payment .nil Outage.run_errand hp
  rw [halready] at hresponse hwrites
  obtain ⟨expected, hwrites⟩ := hwrites
  obtain rfl : attempts = 4 := by simpa [hresponse, ReevaluationResponse.of] using hattempts
  obtain rfl : starved = true := by simpa [hresponse, ReevaluationResponse.of] using hstarved
  exact ⟨i, record, expected, hresponse ▸ hp, hwrites, rfl, hfree⟩

end Errand

end IntentCorrection
