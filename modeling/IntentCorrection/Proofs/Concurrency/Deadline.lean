import IntentCorrection.Proofs.Concurrency.Errand
import IntentCorrection.Proofs.Reevaluation.Patience

namespace IntentCorrection

open Program

namespace Visit

def letGo (v : Visit) : Desk :=
  match v.log.held with
  | some h => v.desk.returned h.ticket (v.desk.store.abort h)
  | none => v.desk

/-- The job is given up where it waits. -/
inductive Cut (v : Visit) : Visit → Prop
  /-- In a call that has not taken effect yet. -/
  | before {c : Call} {next : c.Answer → Program Outcome} : v.progress = .running (.call c next) → c.mayWait = true →
      Cut v ⟨v.letGo, v.log, .abandoned⟩
  /-- In a call that has taken effect and did not write. -/
  | after {p : Program Outcome} {x : Exchange} : v.progress = .running p → v.log.getLast? = some x →
      x.call.mayWait = true → x.landed? = none → Cut v ⟨v.letGo, v.log, .abandoned⟩
  /-- Before it asks for the lock that it has looked up. -/
  | lookUp {key : String} {timeout : Duration} {next : Except StorageError LockedIntent → Program Outcome} :
      v.progress = .running (.call (.lock key timeout) next) →
      Cut v ⟨{ v.desk with store := v.desk.store.registerLock key }, v.log, .abandoned⟩
  | locking {t : Ticket} {key : String} {timeout : Duration}
      {next : Except StorageError LockedIntent → Program Outcome} :
      v.progress = .locking t key timeout next → v.desk.store.locks.phase? t ≠ some .holding →
      Cut v ⟨{ v.desk with store := v.desk.store.cancelLock t, pending := v.desk.pending.erase t }, v.log, .abandoned⟩

structure Dropped (v v' : Visit) : Prop where
  log : v'.log = v.log
  progress : v'.progress = .abandoned
  run : v.desk.Run v'.desk
  contents : v.desk.store.SameContents v'.desk.store
  gone : ∀ t, v.ticket? = some t → v'.desk.Gone t

variable {is : List Intent} {s : Store} {job : Job} {v v' : Visit} {p : Program Outcome}

namespace Sound

theorem dropped_letGo (hv : Sound s job v) (hs : Store.ofIntents is = .ok s) (hp : v.progress = .running p) :
    v.Dropped ⟨v.letGo, v.log, .abandoned⟩ := by
  unfold letGo
  cases hheld : v.log.held with
  | none => exact ⟨rfl, rfl, .nil, .rfl, fun t ht ↦ by simp [ticket?, hp, hheld] at ht⟩
  | some h =>
    have hout := hv.running p hp h hheld
    have hrun : v.desk.Run (v.desk.returned h.ticket (v.desk.store.abort h)) := Desk.Run.nil.snoc (.abort hout)
    refine ⟨rfl, rfl, hrun, Store.sameContents_release _ h.ticket, fun t ht ↦ ?_⟩
    obtain rfl : h.ticket = t := by simpa [ticket?, hp, hheld] using ht
    rcases (hv.guarded hs).run_kept hrun hout with hgone | hkept
    · exact hgone
    · obtain ⟨h', hh', -⟩ := hkept.handle
      simp [Desk.returned, Entries.get?_erase] at hh'

theorem dropped (hv : Sound s job v) (hs : Store.ofIntents is = .ok s) (h : v.Cut v') : v.Dropped v' := by
  cases h with
  | before hp _ => exact hv.dropped_letGo hs hp
  | after hp _ _ _ => exact hv.dropped_letGo hs hp
  | @lookUp key timeout next hp =>
    -- The hands are empty before a lock is asked for.
    have hheld : v.log.held = none := (hv.mayHandle (show v.progress.rest? = some (.call (.lock key timeout) next) by
      rw [hp]; rfl)).1
    exact ⟨rfl, rfl, Desk.Run.nil.snoc (.lookUp key), ⟨rfl, rfl⟩, fun t ht ↦ by simp [ticket?, hp, hheld] at ht⟩
  | @locking t key timeout next hp hphase =>
    obtain ⟨hpending, -⟩ := hv.locking _ _ _ _ hp
    refine ⟨rfl, rfl, Desk.Run.nil.snoc (.cancel hpending hphase), ⟨rfl, rfl⟩, fun t' ht' ↦ ?_⟩
    obtain rfl : t = t' := by simpa [ticket?, hp] using ht'
    have hg := hv.guarded hs
    refine ⟨?_, by simp [Entries.get?_erase], hg.apart t _ hpending⟩
    have hlt := hg.lt_of_pending hpending
    simpa [Store.cancelLock] using hlt

theorem of_dropped (hv : Sound s job v) (h : v.Dropped v') : Sound s job v' := by
  refine ⟨hv.reach.trans h.run, fun p hp ↦ ?_, h.log ▸ hv.honest, fun p hp ↦ ?_, fun t key timeout next hp ↦ ?_⟩
  · rw [h.progress] at hp
    cases hp
  · rw [h.progress] at hp
    cases hp
  · rw [h.progress] at hp
    cases hp

/-- Wherever a correction is cut, it has not written anything and sent no event. -/
theorem quiet_of_cut {config : Config} {r : ReevaluationRequest} (hv : Sound s (.correction config r) v)
    (h : v.Cut v') : v.log.Quiet := by
  cases h with
  | before hp hc => exact (Job.waits_of_leads (hv.leads _ (by rw [hp]; rfl))).quiet hc
  | after hp hx hc hl => exact Job.quiet_of_waited (hv.leads _ (by rw [hp]; rfl)) hx hc hl
  | @lookUp key timeout next hp =>
    have hleads : (Job.correction config r).program.Leads v.log (.call (.lock key timeout) next) :=
      hv.leads _ (by rw [hp]; rfl)
    exact (Job.waits_of_leads hleads).quiet rfl
  | @locking t key timeout next hp _ =>
    have hleads : (Job.correction config r).program.Leads v.log (.call (.lock key timeout) next) :=
      hv.leads _ (by rw [hp]; rfl)
    exact (Job.waits_of_leads hleads).quiet rfl

end Sound

end Visit

namespace Log

theorem writes_eq_nil {log : Log} : log.writes = [] ↔ ∀ x ∈ log, x.landed? = none := List.filterMap_eq_nil_iff

end Log

namespace Errand

variable {e e' : Errand}

/-- The job has got on, rather than something else having happened. -/
def Advances (e e' : Errand) : Prop := e'.log ≠ e.log ∨ e'.progress ≠ e.progress

theorem advances_answered (e : Errand) (x : Exchange) (p : Program Outcome) (d : Desk) :
    e.Advances (e.next (e.answered x p d)) := .inl (by simp [next, Visit.answered])

theorem Step.log (h : e.Step e') :
    e'.log = e.log ∨ ∃ x, e'.log = e.log ++ [x] ∧ e.desk.store.Served x e'.desk.store := by
  cases h with
  | visit h => exact h.log
  | @fail c next a hp ha =>
    refine .inr ⟨⟨c, a⟩, rfl, ?_⟩
    rw [Errand.next, Visit.answered, Desk.store_settled]
    exact ha.served e.desk.store

theorem Step.writes (h : e.Step e') (hw : e'.log.writes = []) : e.log.writes = [] := by
  rw [Log.writes_eq_nil] at hw ⊢
  rcases h.log with hlog | ⟨x, hlog, -⟩
  · exact hlog ▸ hw
  · exact fun y hy ↦ hw y (hlog ▸ List.mem_append_left _ hy)

theorem Step.others_or_advances (h : e.Step e') :
    (∃ d, e.desk.Step d ∧ (∀ t, e.ticket? = some t → d.pending.get? t = e.desk.pending.get? t ∧
      d.handles.get? t = e.desk.handles.get? t) ∧ e' = e.next { e.toVisit with desk := d }) ∨ e.Advances e' := by
  cases h with
  | visit h =>
    cases h with
    | others hd hown => exact .inl ⟨_, hd, hown, rfl⟩
    | ask hp =>
      refine .inr (.inr ?_)
      rw [hp]
      rintro ⟨⟩
    | answer _ _ | openLocked _ _ | expire _ _ => exact .inr (advances_answered _ _ _ _)
  | fail _ _ => exact .inr (advances_answered _ _ _ _)

theorem Step.contents (h : e.Step e') (hown : e.Advances e') (hw : e'.log.writes = []) :
    e.desk.store.SameContents e'.desk.store := by
  rcases h.log with hlog | ⟨x, hlog, hserved⟩
  · cases h with
    | visit h =>
      cases h with
      | others _ _ => exact hown.elim (absurd hlog) (absurd rfl)
      | @ask key timeout next hp => exact e.desk.store.sameContents_beginLock key
      | answer _ _ | openLocked _ _ | expire _ _ => simp [Errand.next, Visit.answered] at hlog
    | fail _ _ => simp [Errand.next, Visit.answered] at hlog
  · rcases hserved.effect with ⟨-, hsame⟩ | ⟨p, -, hp, -⟩
    · exact hsame
    · have hnone := Log.writes_eq_nil.1 hw x (by simp [hlog])
      rw [hnone] at hp
      cases hp

end Errand

structure Attempt extends Errand where
  /-- How long it took by now, in nanoseconds. -/
  elapsed : Nat
  /-- The stores before and after the steps that the correction made itself. -/
  own : List (Store × Store)
  result? : Option (Except ReevaluationError ReevaluationResponse)

namespace Attempt

def start (d : Desk) (config : Config) (r : ReevaluationRequest) : Attempt :=
  ⟨Errand.start d (.correction config r), 0, [], none⟩

def meanwhile (a : Attempt) (d : Desk) : Attempt := { a with toErrand := a.next { a.toVisit with desk := d } }

def later (a : Attempt) (n : Nat) : Attempt := { a with elapsed := a.elapsed + n }

def advanced (a : Attempt) (e : Errand) : Attempt :=
  { a with toErrand := e, own := a.own ++ [(a.desk.store, e.desk.store)] }

/-- The correction is driven until there is a result. It is cut off only after the limit, but not as soon as it could
be: a result that is there is returned. -/
inductive Step (limit : Duration) (key : String) (a : Attempt) : Attempt → Prop
  | others {d : Desk} : a.desk.Step d →
      (∀ t, a.ticket? = some t → d.pending.get? t = a.desk.pending.get? t ∧
        d.handles.get? t = a.desk.handles.get? t) → Step limit key a (a.meanwhile d)
  | pass (n : Nat) : a.result? = none → Step limit key a (a.later n)
  | own {e : Errand} : a.result? = none → a.toErrand.Step e → a.Advances e → Step limit key a (a.advanced e)
  | finish {x : Except ReevaluationError ReevaluationResponse} : a.result? = none →
      a.progress = .running (.done (.corrected x)) → Step limit key a { a with result? := some x }
  | cut {v : Visit} : a.result? = none → a.toVisit.Cut v → limit.nanoseconds ≤ a.elapsed →
      Step limit key a { a.advanced (a.next v) with result? := some (.error (.deadlineExceeded key limit)) }

inductive Run (limit : Duration) (key : String) (a : Attempt) : Attempt → Prop
  | nil : Run limit key a a
  | snoc {a₁ a₂ : Attempt} : Run limit key a a₁ → Step limit key a₁ a₂ → Run limit key a a₂

/-- What a correction leaves that was cut off: it is late, it wrote nothing, it sent no event, and of the locks that
it had or waited for it has none. -/
structure Missed (limit : Duration) (a : Attempt) : Prop where
  late : limit.nanoseconds ≤ a.elapsed
  contents : ∀ x ∈ a.own, x.1.SameContents x.2
  quiet : a.log.Quiet
  claims : ∀ t ∈ a.tickets, a.desk.store.locks.claims.get? t = none

/-- How a correction stands that was begun as the errand `e`. -/
inductive Course (limit : Duration) (key : String) (e : Errand) (a : Attempt) : Prop
  | running : a.result? = none → e.Run a.toErrand → Course limit key e a
  | finished {x : Except ReevaluationError ReevaluationResponse} : a.result? = some x → e.Run a.toErrand →
      a.progress = .running (.done (.corrected x)) → Course limit key e a
  | cut : a.result? = some (.error (.deadlineExceeded key limit)) → limit.nanoseconds ≤ a.elapsed → a.log.Quiet →
      a.progress = .abandoned → Course limit key e a

structure Inv (s : Store) (config : Config) (r : ReevaluationRequest) (limit : Duration) (d : Desk) (a : Attempt) :
    Prop where
  errand : a.toErrand.Inv s (.correction config r)
  contents : a.log.writes = [] → ∀ x ∈ a.own, x.1.SameContents x.2
  course : a.Course limit r.intentKey (Errand.start d (.correction config r))

variable {is : List Intent} {s : Store} {config : Config} {r : ReevaluationRequest} {limit : Duration} {d : Desk}
  {a a' : Attempt} {e : Errand} {x : Except ReevaluationError ReevaluationResponse}

theorem inv_start (hd : (Desk.start s).Run d) : Inv s config r limit d (start d config r) :=
  ⟨Errand.inv_start hd, by simp [start], .running rfl .nil⟩

namespace Course

theorem running_of {key : String} (h : a.Course limit key e) (hx : a.result? = none) : e.Run a.toErrand := by
  cases h with
  | running _ hr => exact hr
  | finished hy _ _ | cut hy _ _ _ => rw [hx] at hy; cases hy

end Course

namespace Inv

theorem others (ha : Inv s config r limit d a) (hs : Store.ofIntents is = .ok s) {d' : Desk} (hd : a.desk.Step d')
    (hown : ∀ t, a.ticket? = some t → d'.pending.get? t = a.desk.pending.get? t ∧
      d'.handles.get? t = a.desk.handles.get? t) : Inv s config r limit d (a.meanwhile d') := by
  have hstep : a.toErrand.Step (a.next { a.toVisit with desk := d' }) := .visit (.others hd hown)
  refine ⟨ha.errand.step hs hstep, ha.contents, ?_⟩
  cases ha.course with
  | running hx hr => exact .running hx (hr.snoc hstep)
  | finished hx hr hp => exact .finished hx (hr.snoc hstep) hp
  | cut hx hlate hquiet hp => exact .cut hx hlate hquiet hp

theorem own (ha : Inv s config r limit d a) (hs : Store.ofIntents is = .ok s) (hx : a.result? = none)
    (he : a.toErrand.Step e) (hown : a.Advances e) : Inv s config r limit d (a.advanced e) := by
  refine ⟨ha.errand.step hs he, fun hw y hy ↦ ?_, .running hx ((ha.course.running_of hx).snoc he)⟩
  rcases List.mem_append.1 hy with hy | hy
  · exact ha.contents (he.writes hw) y hy
  · rw [List.mem_singleton.1 hy]
    exact he.contents hown hw

theorem cut (ha : Inv s config r limit d a) (hs : Store.ofIntents is = .ok s) {v : Visit} (hv : a.toVisit.Cut v)
    (hlate : limit.nanoseconds ≤ a.elapsed) : Inv s config r limit d
      { a.advanced (a.next v) with result? := some (.error (.deadlineExceeded r.intentKey limit)) } := by
  have hsound := ha.errand.sound
  have hdropped := hsound.dropped hs hv
  have hquiet := hsound.quiet_of_cut hv
  have hlog : v.log = a.log := hdropped.log
  refine ⟨?_, fun _ y hy ↦ ?_, .cut rfl hlate (hlog ▸ hquiet) hdropped.progress⟩
  · exact ha.errand.next hs (hsound.of_dropped hdropped) hdropped.run (.inl hlog) fun t ht ↦ .inl (hdropped.gone t ht)
  · rcases List.mem_append.1 hy with hy | hy
    · exact ha.contents hquiet.writes y hy
    · rw [List.mem_singleton.1 hy]
      exact hdropped.contents

theorem step (ha : Inv s config r limit d a) (hs : Store.ofIntents is = .ok s) (h : a.Step limit r.intentKey a') :
    Inv s config r limit d a' := by
  cases h with
  | others hd hown => exact ha.others hs hd hown
  | pass n hx => exact ⟨ha.errand, ha.contents, .running hx (ha.course.running_of hx)⟩
  | own hx he hown => exact ha.own hs hx he hown
  | finish hx hp => exact ⟨ha.errand, ha.contents, .finished rfl (ha.course.running_of hx) hp⟩
  | cut _ hv hlate => exact ha.cut hs hv hlate

theorem run (ha : Inv s config r limit d a) (hs : Store.ofIntents is = .ok s) (hr : a.Run limit r.intentKey a') :
    Inv s config r limit d a' := by
  induction hr with
  | nil => exact ha
  | snoc _ h ih => exact ih.step hs h

theorem missed (ha : Inv s config r limit d a) (hs : Store.ofIntents is = .ok s) (hp : a.progress = .abandoned)
    (hlate : limit.nanoseconds ≤ a.elapsed) (hquiet : a.log.Quiet) : a.Missed limit := by
  refine ⟨hlate, ha.contents hquiet.writes, hquiet, fun t ht ↦ ?_⟩
  have howned : a.desk.Owned := (Desk.guarded_start hs).owned_run (Desk.owned_start hs) ha.errand.sound.reach
  rcases ha.errand.tickets t ht with hgone | hnow
  · exact howned.claim_of_gone hgone
  · simp [Visit.ticket?, hp] at hnow

end Inv

/-- A missed deadline is reported as such, and nothing else was done. -/
theorem run_missed (hs : Store.ofIntents is = .ok s) (hd : (Desk.start s).Run d)
    (hr : (start d config r).Run limit r.intentKey a) {key : String} {limit' : Duration}
    (hx : a.result? = some (.error (.deadlineExceeded key limit'))) :
    (key = r.intentKey ∧ limit' = limit) ∧ a.Missed limit := by
  have ha := (inv_start hd).run hs hr
  cases ha.course with
  | running hy _ =>
    rw [hx] at hy
    cases hy
  | finished hy hr hp =>
    -- A result of the protocol itself is never a missed deadline.
    rw [hx] at hy
    cases hy
    exact absurd rfl (Job.undated_of_leads (ha.errand.sound.leads _ (by rw [hp]; rfl)) key limit')
  | cut hy hlate hquiet hp =>
    rw [hx] at hy
    cases hy
    exact ⟨⟨rfl, rfl⟩, ha.missed hs hp hlate hquiet⟩

/-- Any other result is one of the correction without a deadline, and so is every result in time. -/
theorem run_finished (hs : Store.ofIntents is = .ok s) (hd : (Desk.start s).Run d)
    (hr : (start d config r).Run limit r.intentKey a) (hx : a.result? = some x)
    (hfinished : (∀ key limit', x ≠ .error (.deadlineExceeded key limit')) ∨ a.elapsed < limit.nanoseconds) :
    (Errand.start d (.correction config r)).Run a.toErrand ∧ a.progress = .running (.done (.corrected x)) := by
  have ha := (inv_start hd).run hs hr
  cases ha.course with
  | running hy _ =>
    rw [hx] at hy
    cases hy
  | finished hy hr hp =>
    rw [hx] at hy
    cases hy
    exact ⟨hr, hp⟩
  | cut hy hlate _ _ =>
    rw [hx] at hy
    cases hy
    rcases hfinished with hother | hearly
    · exact absurd rfl (hother _ _)
    · exact absurd hlate (Nat.not_le_of_lt hearly)

/-- Whatever the correction may do without a deadline, it may do in no time under one. -/
theorem run_of_errand (limit : Duration) (hr : (Errand.start d (.correction config r)).Run e) :
    ∃ own, (start d config r).Run limit r.intentKey ⟨e, 0, own, none⟩ := by
  induction hr with
  | nil => exact ⟨[], .nil⟩
  | @snoc e₁ e₂ _ h ih =>
    obtain ⟨own, hown⟩ := ih
    rcases h.others_or_advances with ⟨d', hd', hticket, rfl⟩ | hadvances
    · exact ⟨own, hown.snoc (.others hd' hticket)⟩
    · exact ⟨own ++ [(e₁.desk.store, e₂.desk.store)], hown.snoc (.own rfl h hadvances)⟩

end Attempt

end IntentCorrection
