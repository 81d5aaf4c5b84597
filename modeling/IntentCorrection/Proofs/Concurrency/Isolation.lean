import IntentCorrection.Proofs.Concurrency.Schedule
import IntentCorrection.Proofs.Concurrency.Served
import IntentCorrection.Proofs.Reevaluation.Handles
import IntentCorrection.Proofs.Store.Desk

namespace IntentCorrection

open Program

def Call.returns? : Call → Option LockedIntent
  | .commit h | .abort h | .drop h => some h
  | _ => none

def Desk.settled (d : Desk) (c : Call) (s : Store) : Desk :=
  match c.returns? with
  | some h => d.returned h.ticket s
  | none => { d with store := s }

/-- A job at work on a desk, with what it asked so far and was answered. -/
structure Visit where
  desk : Desk
  log : Log
  progress : Progress

namespace Visit

def start (d : Desk) (job : Job) : Visit := ⟨d, [], .running job.program⟩

def ticket? (v : Visit) : Option Ticket :=
  match v.progress with
  | .running _ => v.log.held.map LockedIntent.ticket
  | .locking t .. => some t
  | .abandoned => none

def answered (v : Visit) (x : Exchange) (rest : Program Outcome) (d : Desk) : Visit :=
  ⟨d, v.log ++ [x], .running rest⟩

inductive Step (v : Visit) : Visit → Prop
  /-- Something else happens. What the job has in hand is not touched; it may be handed a lock, though. -/
  | others {d : Desk} : v.desk.Step d →
      (∀ t, v.ticket? = some t → d.pending.get? t = v.desk.pending.get? t ∧
        d.handles.get? t = v.desk.handles.get? t) → Step v { v with desk := d }
  | answer {c : Call} {next : c.Answer → Program Outcome} {a : c.Answer} {s : Store} :
      v.progress = .running (.call c next) → v.desk.store.Answers c a s →
      Step v (v.answered ⟨c, a⟩ (next a) (v.desk.settled c s))
  | ask {key : String} {timeout : Duration} {next : Except StorageError LockedIntent → Program Outcome} :
      v.progress = .running (.call (.lock key timeout) next) →
      Step v { v with
        desk := v.desk.asked key timeout
        progress := .locking (v.desk.store.beginLock key).1 key timeout next }
  | openLocked {t : Ticket} {key : String} {timeout : Duration}
      {next : Except StorageError LockedIntent → Program Outcome} :
      v.progress = .locking t key timeout next → v.desk.store.locks.phase? t = some .holding →
      Step v (v.answered ⟨.lock key timeout, (v.desk.store.openLocked t key).1⟩
        (next (v.desk.store.openLocked t key).1) (v.desk.served t (v.desk.store.openLocked t key)))
  | expire {t : Ticket} {key : String} {timeout : Duration}
      {next : Except StorageError LockedIntent → Program Outcome} :
      v.progress = .locking t key timeout next → v.desk.store.locks.phase? t = some .waiting →
      Step v (v.answered ⟨.lock key timeout, .error (v.desk.store.expireLock t key timeout).1⟩
        (next (.error (v.desk.store.expireLock t key timeout).1))
        (v.desk.served t ((v.desk.store.expireLock t key timeout).map .error id)))

inductive Run (v : Visit) : Visit → Prop
  | nil : Run v v
  | snoc {v₁ v₂ : Visit} : Run v v₁ → Step v₁ v₂ → Run v v₂

/-- The failures of a store that works: there is no intent, or the wait is over. -/
def Plain (x : Exchange) : Prop :=
  ∀ e, x.failure? = some e → ∃ key timeout, x = ⟨.lock key timeout, .error e⟩ ∧
    (e = .notFound key ∨ e = .lockTimeout key timeout)

/-- What the job was told is honest, and what it has in hand is out. -/
structure Sound (s : Store) (job : Job) (v : Visit) : Prop where
  reach : (Desk.start s).Run v.desk
  leads : ∀ p, v.progress.rest? = some p → job.program.Leads v.log p
  honest : ∀ x ∈ v.log, x.Honest
  running : ∀ p, v.progress = .running p → ∀ h, v.log.held = some h → v.desk.handles.get? h.ticket = some h
  locking : ∀ t key timeout next, v.progress = .locking t key timeout next →
    v.desk.pending.get? t = some (key, timeout) ∧ v.log.held = none

structure Inv (s : Store) (job : Job) (v : Visit) : Prop extends Sound s job v where
  plain : ∀ x ∈ v.log, Plain x

variable {is : List Intent} {s s' : Store} {job : Job} {d d' : Desk} {v v' : Visit}

theorem sound_start (hd : (Desk.start s).Run d) : Sound s job (start d job) := by
  refine ⟨hd, ?_, by simp [start], ?_, ?_⟩
  · rintro p ⟨⟩
    exact .nil
  · intro p hp h hh
    cases hh
  · intro t key timeout next hp
    cases hp

theorem inv_start (hd : (Desk.start s).Run d) : Inv s job (start d job) := ⟨sound_start hd, by simp [start]⟩

namespace Sound

theorem guarded (hv : Sound s job v) (hs : Store.ofIntents is = .ok s) : v.desk.Guarded :=
  (Desk.guarded_start hs).run hv.reach

theorem mayHandle (hv : Sound s job v) {c : Call} {next : c.Answer → Program Outcome}
    (hrest : v.progress.rest? = some (.call c next)) : job.MayHandle v.log c :=
  ((hv.leads _ hrest).obeys (Job.program_handles job) hv.honest).1

theorem answered (hv : Sound s job v) {c : Call} {next : c.Answer → Program Outcome} {a : c.Answer}
    (hrest : v.progress.rest? = some (.call c next)) (hd : v.desk.Run d) (hh : Exchange.Honest ⟨c, a⟩)
    (hheld : ∀ h, Exchange.hands v.log.held ⟨c, a⟩ = some h → d.handles.get? h.ticket = some h) :
    Sound s job (v.answered ⟨c, a⟩ (next a) d) := by
  refine ⟨hv.reach.trans hd, ?_, ?_, ?_, ?_⟩
  · rintro p ⟨⟩
    exact .snoc a (hv.leads _ hrest)
  · intro x hx
    rcases List.mem_append.1 hx with hx | hx
    · exact hv.honest x hx
    · exact List.mem_singleton.1 hx ▸ hh
  · intro p _ h hlog
    rw [Visit.answered, Log.held_append] at hlog
    exact hheld h hlog
  · intro t key timeout next hp
    cases hp

theorem others (hv : Sound s job v) (hd : v.desk.Step d)
    (hown : ∀ t, v.ticket? = some t → d.pending.get? t = v.desk.pending.get? t ∧
      d.handles.get? t = v.desk.handles.get? t) : Sound s job { v with desk := d } := by
  refine ⟨hv.reach.snoc hd, hv.leads, hv.honest, fun p hp h hh ↦ ?_, fun t key timeout next hp ↦ ?_⟩
  · have hticket : v.ticket? = some h.ticket := by
      have hp' : v.progress = .running p := hp
      have hh' : v.log.held = some h := hh
      simp [ticket?, hp', hh']
    exact (hown _ hticket).2.trans (hv.running p hp h hh)
  · have hticket : v.ticket? = some t := by
      have hp' : v.progress = .locking t key timeout next := hp
      simp [ticket?, hp']
    obtain ⟨hpending, hheld⟩ := hv.locking t key timeout next hp
    exact ⟨(hown _ hticket).1.trans hpending, hheld⟩

variable {c : Call} {next : c.Answer → Program Outcome} {a : c.Answer} {h : LockedIntent}

theorem returns (hv : Sound s job v) (hp : v.progress = .running (.call c next)) (hc : c.returns? = some h) :
    ∃ h₀, v.log.held = some h₀ ∧ v.desk.handles.get? h₀.ticket = some h₀ ∧ h.ticket = h₀.ticket := by
  have hmay := hv.mayHandle (show v.progress.rest? = some (.call c next) by rw [hp]; rfl)
  cases c with
  | commit h' =>
    cases hc
    obtain ⟨h₀, i, hheld, -, rfl⟩ := hmay
    exact ⟨h₀, hheld, hv.running _ hp h₀ hheld, rfl⟩
  | abort h' =>
    cases hc
    exact ⟨h, hmay, hv.running _ hp h hmay, rfl⟩
  | drop h' =>
    cases hc
    exact ⟨h, hmay, hv.running _ hp h hmay, rfl⟩
  | _ => cases hc

/-- The handle that is out has the intent as it was read. On the desk it is replaced first and then committed. -/
theorem commits (hv : Sound s job v) {next : Except StorageError Intent → Program Outcome}
    (hp : v.progress = .running (.call (.commit h) next)) :
    ∃ d, v.desk.Run d ∧ d.store = v.desk.store ∧ d.handles.get? h.ticket = some h ∧
      d.Step (v.desk.returned h.ticket (v.desk.store.commit h).2) := by
  obtain ⟨h₀, i, hheld, hkey, rfl⟩ :=
    hv.mayHandle (show v.progress.rest? = some (.call (.commit h) next) by rw [hp]; rfl)
  have hhandle := Entries.get?_insert h₀.ticket h₀.ticket (h₀.replace i) v.desk.handles
  rw [if_pos rfl] at hhandle
  have hcommit := Desk.Step.commit (d := { v.desk with handles := v.desk.handles.insert h₀.ticket (h₀.replace i) }) hhandle
  simp only [Desk.returned, Entries.erase_insert] at hcommit
  exact ⟨_, Desk.Run.nil.snoc (.replace (hv.running _ hp h₀ hheld) hkey), rfl, hhandle, hcommit⟩

theorem run_answers (hv : Sound s job v) (hp : v.progress = .running (.call c next))
    (ha : v.desk.store.Answers c a s') : v.desk.Run (v.desk.settled c s') := by
  have hmay := hv.mayHandle (show v.progress.rest? = some (.call c next) by rw [hp]; rfl)
  have hout := hv.running _ hp
  cases c with
  | get key =>
    obtain ⟨rfl, rfl⟩ := ha
    exact Desk.Run.nil.snoc .read
  | swap key i r expected =>
    obtain rfl : (v.desk.store.compareAndSwap key i r expected).2 = s' := congrArg Prod.snd ha
    exact Desk.Run.nil.snoc (.swap key i r expected)
  | lock key timeout => exact ha.elim
  | commit h =>
    obtain ⟨rfl, rfl⟩ := Prod.mk.inj ha
    obtain ⟨d, hd, -, -, hstep⟩ := hv.commits hp
    exact hd.snoc hstep
  | abort h =>
    obtain ⟨rfl, rfl⟩ := ha
    exact Desk.Run.nil.snoc (.abort (hout h hmay))
  | drop h =>
    obtain rfl : s' = _ := ha
    exact Desk.Run.nil.snoc (.abort (hout h hmay))
  | pause _ _ | now | emit _ =>
    obtain rfl : s' = _ := ha
    exact Desk.Run.nil.snoc .read

theorem settled (hv : Sound s job v) (hp : v.progress = .running (.call c next))
    (hrun : v.desk.Run (v.desk.settled c s')) (hh : Exchange.Honest ⟨c, a⟩)
    (hands : Exchange.hands v.log.held ⟨c, a⟩ = if c.returns?.isSome then none else v.log.held) :
    Sound s job (v.answered ⟨c, a⟩ (next a) (v.desk.settled c s')) := by
  refine hv.answered (by rw [hp]; rfl) hrun hh fun h hheld ↦ ?_
  rw [hands] at hheld
  cases hc : c.returns? with
  | some h' => simp [hc] at hheld
  | none =>
    simp only [hc, Option.isSome_none, Bool.false_eq_true, if_false] at hheld
    rw [Desk.settled, hc]
    exact hv.running _ hp h hheld

theorem asked (hv : Sound s job v) {key : String} {timeout : Duration}
    {next : Except StorageError LockedIntent → Program Outcome}
    (hp : v.progress = .running (.call (.lock key timeout) next)) :
    Sound s job { v with
      desk := v.desk.asked key timeout
      progress := .locking (v.desk.store.beginLock key).1 key timeout next } := by
  have hrest : v.progress.rest? = some (.call (.lock key timeout) next) := by rw [hp]; rfl
  refine ⟨hv.reach.snoc (.ask key timeout), fun p hq ↦ ?_, hv.honest, (fun _ hq ↦ by cases hq), ?_⟩
  · cases hq
    exact hv.leads _ hrest
  · rintro t key' timeout' next' ⟨⟩
    exact ⟨by rw [Desk.asked, Entries.get?_insert, if_pos rfl], (hv.mayHandle hrest).1⟩

variable {t : Ticket} {key : String} {timeout : Duration} {next : Except StorageError LockedIntent → Program Outcome}

/-- The job has come to the lock: it is shown the stored intent, or there is none. -/
theorem openLocked (hv : Sound s job v) (hs : Store.ofIntents is = .ok s) (hp : v.progress = .locking t key timeout next)
    (hphase : v.desk.store.locks.phase? t = some .holding) :
    Sound s job (v.answered ⟨.lock key timeout, (v.desk.store.openLocked t key).1⟩
      (next (v.desk.store.openLocked t key).1) (v.desk.served t (v.desk.store.openLocked t key))) := by
  obtain ⟨hpending, hheld⟩ := hv.locking t key timeout next hp
  have hhonest := (v.desk.store.served_openLocked t key timeout).honest (hv.guarded hs).keyed
  refine hv.answered (by rw [hp]; rfl) (Desk.Run.nil.snoc (.openLocked hpending hphase)) hhonest fun h hh ↦ ?_
  rcases v.desk.store.openLocked_cases t key with ⟨e, -, hopen⟩ | ⟨i, -, hopen⟩
  · simp [hopen, Exchange.hands, hheld] at hh
  · rw [hopen] at hh ⊢
    cases hh
    rw [Desk.served, Entries.get?_insert, if_pos rfl]

theorem expire (hv : Sound s job v) (hp : v.progress = .locking t key timeout next)
    (hphase : v.desk.store.locks.phase? t = some .waiting) :
    Sound s job (v.answered ⟨.lock key timeout, .error (v.desk.store.expireLock t key timeout).1⟩
      (next (.error (v.desk.store.expireLock t key timeout).1))
      (v.desk.served t ((v.desk.store.expireLock t key timeout).map .error id))) := by
  obtain ⟨hpending, hheld⟩ := hv.locking t key timeout next hp
  refine hv.answered (by rw [hp]; rfl) (Desk.Run.nil.snoc (.expire hpending hphase)) trivial fun h hh ↦ ?_
  rw [Exchange.hands, hheld] at hh
  cases hh

theorem step (hv : Sound s job v) (hs : Store.ofIntents is = .ok s) (h : v.Step v') : Sound s job v' := by
  cases h with
  | others hd hown => exact hv.others hd hown
  | @answer c next a s' hp ha =>
    refine hv.settled hp (hv.run_answers hp ha) (ha.served.honest (hv.guarded hs).keyed) ?_
    cases c with
    | lock key timeout => exact ha.elim
    | _ => rfl
  | ask hp => exact hv.asked hp
  | openLocked hp hphase => exact hv.openLocked hs hp hphase
  | expire hp hphase => exact hv.expire hp hphase

/-- A store that works answers a job without a failure: the handle that it gives back can be committed. -/
theorem plain_answer (hv : Sound s job v) (hs : Store.ofIntents is = .ok s) {c : Call}
    {next : c.Answer → Program Outcome} {a : c.Answer} (hp : v.progress = .running (.call c next))
    (ha : v.desk.store.Answers c a s') : Plain ⟨c, a⟩ := by
  intro e he
  cases c with
  | lock key timeout => exact ha.elim
  | commit h =>
    obtain ⟨d, hd, hstore, hhandle, -⟩ := hv.commits hp
    have hok := ((hv.guarded hs).run hd).commit_ok hhandle
    rw [hstore] at hok
    obtain rfl : .ok h.intent = a := hok.symm.trans (congrArg Prod.fst ha)
    cases he
  | abort h =>
    obtain ⟨rfl, -⟩ := ha
    cases he
  | _ => cases he

end Sound

theorem plain_openLocked (s : Store) (t : Ticket) (key : String) (timeout : Duration) :
    Plain ⟨.lock key timeout, (s.openLocked t key).1⟩ := by
  intro e he
  rcases s.openLocked_cases t key with ⟨e', hget, hopen⟩ | ⟨i, -, hopen⟩
  · rw [hopen] at he ⊢
    cases he
    exact ⟨key, timeout, rfl, .inl (Store.error_of_get hget)⟩
  · simp [hopen, Exchange.failure?] at he

theorem Inv.step (hv : Inv s job v) (hs : Store.ofIntents is = .ok s) (h : v.Step v') : Inv s job v' := by
  refine ⟨hv.toSound.step hs h, ?_⟩
  have hlast : ∀ {x}, Plain x → ∀ y ∈ v.log ++ [x], Plain y := by
    intro x hx y hy
    rcases List.mem_append.1 hy with hy | hy
    · exact hv.plain y hy
    · exact List.mem_singleton.1 hy ▸ hx
  cases h with
  | others _ _ => exact hv.plain
  | answer hp ha => exact hlast (hv.toSound.plain_answer hs hp ha)
  | ask _ => exact hv.plain
  | @openLocked t key timeout _ _ _ => exact hlast (plain_openLocked v.desk.store t key timeout)
  | expire _ _ =>
    refine hlast fun e he ↦ ?_
    cases he
    exact ⟨_, _, rfl, .inr rfl⟩

theorem Inv.run (hv : Inv s job v) (hs : Store.ofIntents is = .ok s) (hr : v.Run v') : Inv s job v' := by
  induction hr with
  | nil => exact hv
  | snoc _ h ih => exact ih.step hs h

/-- A correction that ends in a conflict has waited too long for its lock. -/
theorem Inv.timedOut {config : Config} {r : ReevaluationRequest} {key detail : String} {attempts : Nat}
    {starved : Bool} (hv : Inv s (.correction config r) v)
    (hp : v.progress = .running (.done (.corrected (.error (.concurrencyConflict key attempts starved detail))))) :
    detail = (StorageError.lockTimeout r.intentKey config.lockTimeout).message ∧
      ⟨.lock r.intentKey config.lockTimeout, .error (.lockTimeout r.intentKey config.lockTimeout)⟩ ∈ v.log := by
  have hleads := hv.leads _ (by rw [hp]; rfl)
  have hmeets := Job.program_handles (.correction config r)
  obtain ⟨-, htells⟩ := hleads.obeys hmeets hv.honest
  obtain ⟨cause, ⟨x, hx, hfail⟩, hcause⟩ := htells _ _ _ _ rfl
  obtain ⟨key', timeout, rfl, rfl | rfl⟩ := hv.plain x hx cause hfail
  · rcases hcause with hdead | ⟨hclient, -⟩
    · cases hdead
    · cases hclient
  · obtain ⟨before, -, rfl, rfl⟩ := hleads.asked hmeets hv.honest _ hx
    rcases hcause with hdead | ⟨-, rfl⟩
    · cases hdead
    · exact ⟨rfl, hx⟩

end Visit

namespace Desk

/-- In whatever way a store is used. An opened handle is for the key that was asked for. As long as it is out,
nobody else has a handle for the key, the stored intent and its journal stay as they are, the handle shows that
intent unless it was replaced, and it can be committed. A correction on the store ends in a conflict only if it
has waited too long for the lock. -/
theorem run_isolated {is : List Intent} {s : Store} (hs : Store.ofIntents is = .ok s) {d : Desk}
    (hd : (start s).Run d) :
    (∀ t key h, (d.store.openLocked t key).1 = .ok h → h.intent.key = key) ∧
    (∀ t h, d.handles.get? t = some h →
      (∀ t' h', d.handles.get? t' = some h' → h'.intent.key = h.intent.key → t' = t) ∧
      (∀ d' h', d.Run d' → d'.handles.get? t = some h' → h'.intent.key = h.intent.key ∧
        d'.store.intents.get? h.intent.key = d.store.intents.get? h.intent.key ∧
        d'.store.log h.intent.key = d.store.log h.intent.key) ∧
      (h.dirty = false → d.store.get h.intent.key = .ok h.intent) ∧
      (d.store.commit h).1 = .ok h.intent) ∧
    ∀ config r v key attempts starved detail, (Visit.start d (.correction config r)).Run v →
      v.progress = .running (.done (.corrected (.error (.concurrencyConflict key attempts starved detail)))) →
      detail = (StorageError.lockTimeout r.intentKey config.lockTimeout).message ∧
        ⟨.lock r.intentKey config.lockTimeout, .error (.lockTimeout r.intentKey config.lockTimeout)⟩ ∈ v.log := by
  have hg := (guarded_start hs).run hd
  refine ⟨fun t key h ho ↦ ?_, fun t h ht ↦ ⟨fun t' h' ht' hkey ↦ hg.unique ht ht' hkey, fun d' h' hr ht' ↦ ?_,
    fun hclean ↦ ?_, hg.commit_ok ht⟩, fun config r v key attempts starved detail hr hp ↦ ?_⟩
  · unfold Store.openLocked at ho
    split at ho
    · cases ho
    · rename_i i hget
      cases ho
      exact hg.keyed key i (Store.get_eq_ok.1 hget)
  · rcases hg.run_kept hr ht with hgone | ⟨⟨h₁, ht₁, hkey⟩, hintent, hjournal⟩
    · rw [hgone.handles] at ht'
      cases ht'
    · obtain rfl := Option.some.inj (ht₁.symm.trans ht')
      exact ⟨hkey, hintent, hjournal⟩
  · obtain ⟨i, hi, -, hshown⟩ := (hg.handles t h ht).current
    rw [hshown hclean] at hi ⊢
    exact Store.get_eq_ok.2 hi
  · exact ((Visit.inv_start hd).run hs hr).timedOut hp

end Desk

namespace Visit

def turn (now : Timestamp) (v : Visit) : Visit :=
  match v.progress with
  | .running (.done _) | .abandoned => v
  | .running (.call (.lock key timeout) next) =>
    { v with
      desk := v.desk.asked key timeout
      progress := .locking (v.desk.store.beginLock key).1 key timeout next }
  | .running (.call c next) =>
    v.answered ⟨c, (Store.answerAlone now c v.desk.store).1⟩ (next (Store.answerAlone now c v.desk.store).1)
      (v.desk.settled c (Store.answerAlone now c v.desk.store).2)
  | .locking t key timeout next =>
    match v.desk.store.locks.phase? t with
    | some .holding =>
      v.answered ⟨.lock key timeout, (v.desk.store.openLocked t key).1⟩
        (next (v.desk.store.openLocked t key).1) (v.desk.served t (v.desk.store.openLocked t key))
    | some .waiting =>
      v.answered ⟨.lock key timeout, .error (v.desk.store.expireLock t key timeout).1⟩
        (next (.error (v.desk.store.expireLock t key timeout).1))
        (v.desk.served t ((v.desk.store.expireLock t key timeout).map .error id))
    | _ => v

theorem step_turn (v : Visit) (now : Timestamp) : v.Step (v.turn now) := by
  have hstay : v.Step v := .others .read fun _ _ ↦ ⟨rfl, rfl⟩
  unfold Visit.turn
  split
  · exact hstay
  · exact hstay
  · rename_i hp
    exact .ask hp
  · rename_i c next hc hp
    have hlock : ∀ key timeout, c ≠ .lock key timeout := by
      rintro key timeout rfl
      exact hc key timeout next rfl .rfl
    exact .answer hp (Store.answers_answerAlone hlock now v.desk.store)
  · rename_i hp
    split
    · rename_i hphase
      exact .openLocked hp hphase
    · rename_i hphase
      exact .expire hp hphase
    · exact hstay

def turns (now : Timestamp) : Nat → Visit → Visit
  | 0, v => v
  | n + 1, v => turns now n (v.turn now)

theorem Run.turns {u v : Visit} (h : u.Run v) (now : Timestamp) (n : Nat) : u.Run (turns now n v) := by
  induction n generalizing v with
  | zero => exact h
  | succ n ih => exact ih (h.snoc (v.step_turn now))

end Visit

namespace Contention

def asked : Desk := (Desk.start Race.store).asked "order-1" (.ofMilliseconds 10)

def desk : Desk := asked.served 0 (asked.store.openLocked 0 "order-1")

def visit : Visit := Visit.turns Race.noon 15 (Visit.start desk (.correction .default Race.request))

theorem run_desk : (Desk.start Race.store).Run desk :=
  (Desk.Run.nil.snoc (.ask "order-1" (.ofMilliseconds 10))).snoc (.openLocked rfl rfl)

end Contention

namespace Desk

/-- The handle is committed after the job has given up. -/
theorem run_isolated_contention : ∃ h detail, Contention.desk.handles.get? 0 = some h ∧
    h.intent = Race.payment ∧ (Contention.desk.store.commit h).1 = .ok Race.payment ∧
    Contention.visit.progress = .running (.done (.corrected (.error (.concurrencyConflict "order-1" 4 true detail)))) ∧
    detail = "timed out after 5s waiting for lock on intent order-1" := by
  obtain ⟨h, ht, hi⟩ : ∃ h, Contention.desk.handles.get? 0 = some h ∧ h.intent = Race.payment := ⟨_, rfl, rfl⟩
  obtain ⟨detail, hp⟩ : ∃ detail, Contention.visit.progress =
      .running (.done (.corrected (.error (.concurrencyConflict "order-1" 4 true detail)))) := ⟨_, rfl⟩
  obtain ⟨-, hhandles, hconflicts⟩ := run_isolated Race.ofIntents_payment Contention.run_desk
  obtain ⟨-, -, -, hcommit⟩ := hhandles 0 h ht
  obtain ⟨hdetail, -⟩ := hconflicts _ _ _ _ _ _ _ (Visit.Run.nil.turns Race.noon 15) hp
  exact ⟨h, detail, ht, hi, hi ▸ hcommit, hp, hdetail⟩

end Desk

end IntentCorrection
