import IntentCorrection.Proofs.CommandLine.Commands
import IntentCorrection.Proofs.Concurrency.Schedule
import IntentCorrection.Proofs.Reevaluation.Admission

namespace IntentCorrection

namespace Program

variable {α : Type} {ends : Log → α → Prop} {p : Program α} {log : Log}

theorem Ends.runAlone (h : p.Ends ends log) (date : Timestamp) (s : Store) :
    ∃ log', ends log' (p.runAlone date s).1 := by
  induction p generalizing log s with
  | done a => exact ⟨log, h⟩
  | call c next ih => exact ih _ (h.2 _ trivial) _

end Program

theorem Json.parse_at (cs : List Char) : Json.parse ('@' :: cs) = none := by
  simp [Json.parse, Json.document?, Json.skipSpace, Json.isSpace, Json.literal?, Json.digits1?, Json.digits]

namespace CommandLine

open Reevaluation

variable {fs fs' : Files} {argument text : String} {d : Diff} {lookup : String → Option String} {date : Timestamp}
  {newId : Uuid} {config : Config} {output : OutputFormat} {o : ApplyOptions} {e : ReevaluationError}

/-- The argument is read as the diff, be it a document or the path of one. -/
def Denotes (fs : Files) (argument : String) (d : Diff) : Prop :=
  onFiles (readDiff Files.system argument) fs = (.ok d, fs)

theorem readArgument_text {v : Value} (h : (Json.parse text.toList).bind Json.value? = some v) (fs : Files) :
    onFiles (readArgument Files.system text) fs = (.ok v, fs) := by
  unfold readArgument
  dsimp only
  split
  -- No document begins with the sign of a path.
  · rename_i path hpath
    rw [hpath, Json.parse_at] at h
    cases h
  · rw [pure_bind, h]
    rfl

theorem Denotes.inline (h : Denotes fs argument d) : ∃ text, ∀ fs, Denotes fs text d := by
  unfold Denotes readDiff at h
  obtain ⟨v, fs₁, hv, h⟩ := ok_of_onFiles_bind h
  obtain ⟨rfl, text, htext⟩ := readArgument_ok hv
  refine ⟨text, fun fs ↦ ?_⟩
  unfold Denotes readDiff
  rw [onFiles_bind, readArgument_text htext]
  cases hd : Diff.ofValue v with
  | error e =>
    rw [hd] at h
    cases h
  | ok d' =>
    rw [hd] at h
    cases h
    simp [hd]
    rfl

theorem checkDiff_eq_ok : checkDiff d = .ok () ↔ d.validate = .ok () ∧ ∃ changes, d.payload = .ok changes := by
  unfold checkDiff
  cases d.validate with
  | error e => simp [bind, Except.bind]
  | ok _ => cases d.payload <;> simp [bind, Except.bind, pure, Except.pure]

theorem checkDiff_eq_error {e : CorrectionError} :
    checkDiff d = .error e ↔ d.validate = .error e ∨ d.validate = .ok () ∧ d.payload = .error e := by
  unfold checkDiff
  cases d.validate with
  | error e => simp [bind, Except.bind]
  | ok _ => cases d.payload <;> simp [bind, Except.bind, pure, Except.pure]

theorem fault_of_checkDiff {e : CorrectionError} (h : checkDiff d = .error e) : ∃ fault, e = .invalidDiff fault := by
  rcases checkDiff_eq_error.1 h with hdiff | ⟨-, hpayload⟩
  · exact Diff.fault_of_validateMap hdiff
  · exact Diff.fault_of_payload hpayload

theorem runValidate_of_denotes (h : Denotes fs argument d) :
    onFiles (runValidate Files.system output argument) fs =
      (match checkDiff d with
        | .ok () => .ok (validText output d)
        | .error e => .error (.refusedDiff e), fs) := by
  unfold Denotes at h
  unfold runValidate
  rw [onFiles_bind, h]
  dsimp only
  cases checkDiff d <;> rfl

variable {α β : Type}

/-- None of its failures is one of the protocol. -/
def Mundane (x : ExceptT Failure (StateM Files) α) : Prop :=
  ∀ fs fs' e, onFiles x fs ≠ (.error (.reevaluation e), fs')

theorem Mundane.bind {x : ExceptT Failure (StateM Files) α} {f : α → ExceptT Failure (StateM Files) β}
    (hx : Mundane x) (hf : ∀ a, Mundane (f a)) : Mundane (x >>= f) := by
  intro fs fs' e h
  rw [onFiles_bind] at h
  split at h
  · exact hf _ _ _ _ h
  · rename_i hfailed
    cases h
    exact hx _ _ _ hfailed

theorem Mundane.failed_after {x : ExceptT Failure (StateM Files) α} {f : α → ExceptT Failure (StateM Files) β}
    (hx : Mundane x) (h : onFiles (x >>= f) fs = (.error (.reevaluation e), fs')) :
    ∃ a fs₁, onFiles (f a) fs₁ = (.error (.reevaluation e), fs') := by
  rw [onFiles_bind] at h
  split at h
  · exact ⟨_, _, h⟩
  · rename_i hfailed
    cases h
    exact absurd hfailed (hx _ _ _)

theorem mundane_pure (a : α) : Mundane (pure a) := nofun

theorem mundane_throw {f : Failure} (hf : ∀ e, f ≠ .reevaluation e) : Mundane (throw f : ExceptT _ _ α) := by
  intro fs fs' e h
  cases h
  exact hf e rfl

theorem mundane_lift (x : StateM Files α) : Mundane (liftM x : ExceptT Failure _ α) := nofun

theorem mundane_readArgument (argument : String) : Mundane (readArgument Files.system argument) := by
  unfold readArgument
  dsimp only
  split
  · refine (mundane_lift _).bind fun found ↦ ?_
    split
    · rw [pure_bind]
      split
      · exact mundane_pure _
      · exact mundane_throw nofun
    · exact mundane_throw nofun
  · rw [pure_bind]
    split
    · exact mundane_pure _
    · exact mundane_throw nofun

theorem mundane_readMap (what : String) (argument : Option String) :
    Mundane (readMap Files.system what argument) := by
  cases argument with
  | none => exact mundane_pure _
  | some argument =>
    refine (mundane_readArgument argument).bind fun v ↦ ?_
    cases v with
    | map entries => exact mundane_pure _
    | _ => exact mundane_throw nofun

theorem mundane_loadStore (path : String) : Mundane (loadStore Files.system path) := by
  intro fs fs' e h
  rw [onFiles_loadStore] at h
  unfold storeOfText at h
  grind

theorem mundane_saveStore (path : String) (s : Store) : Mundane (saveStore Files.system path s) := by
  refine (mundane_lift _).bind fun written ↦ ?_
  cases written with
  | error e => exact mundane_throw nofun
  | ok _ =>
    refine (mundane_lift _).bind fun renamed ↦ ?_
    cases renamed with
    | error e => exact mundane_throw nofun
    | ok _ => exact mundane_pure _

/-- A failure of the protocol is what the request comes to on some store. -/
theorem runApply_failed (hd : Denotes fs o.diff d)
    (h : onFiles (runApply ⟨Files.system, lookup, date, newId⟩ config output o) fs = (.error (.reevaluation e), fs')) :
    ∃ metadata s, ((reevaluate config (requestOf o d metadata)).runAlone date s).1 = .error e := by
  unfold Denotes at hd
  unfold runApply at h
  rw [onFiles_bind, hd] at h
  obtain ⟨metadata, fs₁, h⟩ := (mundane_readMap _ _).failed_after h
  obtain ⟨s, fs₂, h⟩ := (mundane_loadStore _).failed_after h
  refine ⟨metadata, s, ?_⟩
  dsimp only at h
  split at h
  · rename_i hrun
    cases h
    rw [hrun]
  · split at h
    · exact absurd h ((mundane_saveStore _ _).bind (fun _ ↦ mundane_pure _) _ _ _)
    · exact absurd h (mundane_pure _ _ _ _)

/-- A correction with a request that is let in does not fail on the grounds that requests are refused on. -/
theorem runApply_admissible (hd : Denotes fs o.diff d) (hcheck : checkDiff d = .ok ())
    (hsource : config.isAuthorized o.source = true) (hreason : 1 ≤ o.reason.length ∧ o.reason.length ≤ 1000)
    (h : onFiles (runApply ⟨Files.system, lookup, date, newId⟩ config output o) fs = (.error (.reevaluation e), fs')) :
    e.isRefusal = false := by
  obtain ⟨metadata, s, hrun⟩ := runApply_failed hd h
  obtain ⟨hdiff, hpayload⟩ := checkDiff_eq_ok.1 hcheck
  have hadmissible : Admissible config (requestOf o d metadata) := ⟨hsource, hreason, hdiff, hpayload⟩
  obtain ⟨log, hend⟩ := hadmissible.reevaluate_ends.runAlone date s
  exact hend e hrun

theorem isRefusal_of_code (h : e.code = "INVALID_DIFF") : e.isRefusal = true := by
  cases e with
  | correction e => cases e <;> simp_all [ReevaluationError.code, CorrectionError.code, ReevaluationError.isRefusal]
  | unauthorized actor => rfl
  | storage e => cases e <;> simp [ReevaluationError.code] at h
  | _ => simp [ReevaluationError.code] at h

theorem refusal_of_checkDiff {e : CorrectionError} (hcheck : checkDiff d = .error e)
    (hsource : config.isAuthorized o.source = true) (hreason : 1 ≤ o.reason.length ∧ o.reason.length ≤ 1000)
    (metadata : Option ValueMap) : Refusal config (requestOf o d metadata) (.correction e) := by
  rcases checkDiff_eq_error.1 hcheck with hdiff | ⟨hdiff, hpayload⟩
  · exact .diff hsource hreason hdiff
  · exact .payload hsource hreason hdiff hpayload

/-- A store without intents will do to refuse a diff, since that comes before the intent is looked for. -/
theorem runCommand_refused {e : CorrectionError} (htext : ∀ fs, Denotes fs text d) (hcheck : checkDiff d = .error e)
    (date : Timestamp) (newId : Uuid) :
    onFiles (runCommand ⟨Files.system, fun _ ↦ none, date, newId⟩
      ⟨.text, false, none, .apply ⟨"s.json", "o-1", text, .yuno, "typo", none, none⟩⟩) [("s.json", "[]".toUTF8)] =
        (.error (.reevaluation (.correction e)), [("s.json", "[]".toUTF8)]) := by
  have hconfig : ∀ fs, onFiles (readConfig ⟨Files.system, fun _ ↦ none, date, newId⟩ none) fs = (.ok .default, fs) :=
    fun _ ↦ rfl
  have hstore : onFiles (loadStore Files.system "s.json") [("s.json", "[]".toUTF8)] =
      (.ok .empty, [("s.json", "[]".toUTF8)]) := by
    decide +kernel
  have hmetadata : ∀ fs, onFiles (readMap Files.system "metadata" none) fs = (.ok none, fs) := fun _ ↦ rfl
  have hrefusal : Refusal .default (requestOf ⟨"s.json", "o-1", text, .yuno, "typo", none, none⟩ d none)
      (.correction e) := refusal_of_checkDiff hcheck (show Config.default.isAuthorized .yuno = true by decide)
      (show 1 ≤ "typo".length ∧ "typo".length ≤ 1000 by decide) none
  unfold Denotes at htext
  unfold runCommand
  dsimp only
  rw [onFiles_bind, hconfig]
  dsimp only
  unfold runApply
  rw [onFiles_bind, htext]
  dsimp only
  rw [onFiles_bind, hmetadata]
  dsimp only
  rw [onFiles_bind, hstore, hrefusal.reevaluate_eq]
  rfl

/-- Some call to correct an intent by the diff is refused for the diff, although the settings let its source submit
corrections and its reason is of a good length. -/
def RefusedSomewhere (d : Diff) : Prop :=
  ∃ fs lookup date newId output quiet file o config e fs', Denotes fs o.diff d ∧
    onFiles (readConfig ⟨Files.system, lookup, date, newId⟩ file) fs = (.ok config, fs) ∧
    config.isAuthorized o.source = true ∧ (1 ≤ o.reason.length ∧ o.reason.length ≤ 1000) ∧
    onFiles (runCommand ⟨Files.system, lookup, date, newId⟩ ⟨output, quiet, file, .apply o⟩) fs =
      (.error (.reevaluation e), fs') ∧ e.code = "INVALID_DIFF"

theorem Denotes.refusedSomewhere (h : Denotes fs argument d) {e : CorrectionError} (hcheck : checkDiff d = .error e) :
    RefusedSomewhere d := by
  obtain ⟨text, htext⟩ := h.inline
  obtain ⟨fault, rfl⟩ := fault_of_checkDiff hcheck
  refine ⟨_, _, _, _, _, _, _, _, .default, _, _, ?_, ?_, ?_, ?_,
    runCommand_refused htext hcheck Payment.morning Uuid.dns, ?_⟩
  · exact htext _
  · rfl
  · exact (by decide : Config.default.isAuthorized .yuno = true)
  · exact (by decide : 1 ≤ "typo".length ∧ "typo".length ≤ 1000)
  · rfl

theorem not_refusedSomewhere (hcheck : checkDiff d = .ok ()) : ¬RefusedSomewhere d := by
  rintro ⟨fs, lookup, date, newId, output, quiet, file, o, config, e, fs', hd, hconfig, hsource, hreason, hrun, hcode⟩
  unfold runCommand at hrun
  dsimp only at hrun
  rw [onFiles_bind, hconfig] at hrun
  have hadmitted : e.isRefusal = false := runApply_admissible hd hcheck hsource hreason hrun
  rw [isRefusal_of_code hcode] at hadmitted
  cases hadmitted

/-- Validation is complete. A request is refused on the first ground that there is, without a call to the store or an
event, and otherwise it is not refused on any of those grounds later, whatever the store answers. So the check of a
diff by itself accepts just the diffs that no correction is refused for. -/
theorem validation_complete :
    (∀ config r, Admissible config r ∨ ∃ e, Refusal config r e) ∧
      (∀ config r e, Refusal config r e → reevaluate config r = .done (.error e)) ∧
      (∀ config r log e, Admissible config r → (reevaluate config r).Leads log (.done (.error e)) →
        e.isRefusal = false) ∧
      ∀ fs argument d, Denotes fs argument d → ∀ lookup date newId output quiet file,
        (∃ text, onFiles (runCommand ⟨Files.system, lookup, date, newId⟩
          ⟨output, quiet, file, .validateDiff argument⟩) fs = (.ok text, fs)) ↔ ¬RefusedSomewhere d := by
  refine ⟨admissible_or_refusal, fun _ _ _ h ↦ h.reevaluate_eq, fun _ _ _ e h hlog ↦ hlog.ended h.reevaluate_ends e rfl, ?_⟩
  intro fs argument d hd lookup date newId output quiet file
  have hrun : onFiles (runCommand ⟨Files.system, lookup, date, newId⟩ ⟨output, quiet, file, .validateDiff argument⟩) fs =
      _ := runValidate_of_denotes hd
  rw [hrun]
  cases hcheck : checkDiff d with
  | ok _ => exact iff_of_true ⟨_, rfl⟩ (not_refusedSomewhere hcheck)
  | error e => exact iff_of_false (by simp) fun h ↦ h (hd.refusedSomewhere hcheck)

/-- A reason without characters is refused at once, a missing intent is not a fault of the request, a payload that is
null is accepted, and one that is a number makes some correction fail. -/
theorem validation_complete_order :
    reevaluate .default { Race.request with reason := "" } = .done (.error (.correction (.invalidReason 0 1000))) ∧
      (ReevaluationError.intentNotFound "order-1").isRefusal = false ∧
      ¬RefusedSomewhere ⟨[("payload", .null)]⟩ ∧ RefusedSomewhere ⟨[("payload", .ofInt 5)]⟩ := by
  obtain ⟨-, hrefused, hadmitted, hdiffs⟩ := validation_complete
  have hreason : Refusal .default { Race.request with reason := "" } (.correction (.invalidReason 0 1000)) :=
    .reason (by decide) (by decide)
  have hadmissible : Admissible .default Race.request := ⟨by decide, by decide, rfl, _, rfl⟩
  have hlog : (reevaluate .default Race.request).Leads [⟨.get "order-1", .error (.notFound "order-1")⟩]
      (.done (.error (.intentNotFound "order-1"))) :=
    @Program.Leads.snoc _ _ [] (.get "order-1") _ (.error (.notFound "order-1")) .nil
  have hnull : Denotes [] "\x7b\"payload\":null\x7d" ⟨[("payload", .null)]⟩ := by
    unfold Denotes
    decide +kernel
  have hnumber : Denotes [] "\x7b\"payload\":5\x7d" ⟨[("payload", .ofInt 5)]⟩ := by
    unfold Denotes
    decide +kernel
  refine ⟨hrefused _ _ _ hreason, hadmitted _ _ _ _ hadmissible hlog, ?_, ?_⟩
  · exact (hdiffs _ _ _ hnull (fun _ ↦ none) Payment.morning Uuid.dns .text false none).1
      ⟨validText .text ⟨[("payload", .null)]⟩, by decide +kernel⟩
  · have hfailed : (onFiles (runCommand ⟨Files.system, fun _ ↦ none, Payment.morning, Uuid.dns⟩
        ⟨.text, false, none, .validateDiff "\x7b\"payload\":5\x7d"⟩) []).1 =
          .error (.refusedDiff (.invalidDiff (.payloadNotMap .number))) := by decide +kernel
    refine Classical.not_not.1 fun h ↦ ?_
    obtain ⟨text, hok⟩ := (hdiffs _ _ _ hnumber (fun _ ↦ none) Payment.morning Uuid.dns .text false none).2 h
    rw [hok] at hfailed
    cases hfailed

end CommandLine

end IntentCorrection
