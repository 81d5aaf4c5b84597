import IntentCorrection.CommandLine.Commands
import IntentCorrection.Proofs.CommandLine.StoreFile
import IntentCorrection.Proofs.Intent.Depth
import IntentCorrection.Proofs.Reevaluation.Alone

namespace IntentCorrection.CommandLine

open Store

variable {α β : Type} {fs fs' : Files} {path text : String}

/-- The outcome of a command on files, and the files afterwards. -/
def onFiles (x : ExceptT Failure (StateM Files) α) (fs : Files) : Except Failure α × Files := x.run.run fs

theorem onFiles_bind (x : ExceptT Failure (StateM Files) α) (f : α → ExceptT Failure (StateM Files) β) (fs : Files) :
    onFiles (x >>= f) fs =
      match onFiles x fs with
      | (.ok a, fs') => onFiles (f a) fs'
      | (.error e, fs') => (.error e, fs') := by
  change (x.run >>= ExceptT.bindCont f).run fs = _
  rw [StateT.run_bind]
  change ExceptT.bindCont f (x.run.run fs).1 (x.run.run fs).2 = _
  unfold onFiles
  rcases x.run.run fs with ⟨e | a, fs'⟩ <;> rfl

theorem ok_of_onFiles_bind {x : ExceptT Failure (StateM Files) α} {f : α → ExceptT Failure (StateM Files) β} {b : β}
    (h : onFiles (x >>= f) fs = (.ok b, fs')) :
    ∃ a fs₁, onFiles x fs = (.ok a, fs₁) ∧ onFiles (f a) fs₁ = (.ok b, fs') := by
  rw [onFiles_bind] at h
  split at h
  · rename_i a fs₁ hx
    exact ⟨a, fs₁, hx, h⟩
  · cases h

theorem onFiles_read (path : String) (fs : Files) :
    onFiles (liftM (Files.system.read path)) fs = (.ok (fs.read path), fs) := rfl

theorem onFiles_isThere (path : String) (fs : Files) :
    onFiles (liftM (Files.system.isThere path)) fs = (.ok (fs.isThere path), fs) := rfl

def attempted (fs : Files) : Except FileError Files → Except Failure (Except FileError Unit) × Files
  | .ok fs' => (.ok (.ok ()), fs')
  | .error e => (.ok (.error e), fs)

theorem onFiles_attempted (step : Files → Except FileError Files) (fs : Files) :
    onFiles (liftM (modifyGet fun fs ↦
      match step fs with
      | .ok fs' => (.ok (), fs')
      | .error e => (.error e, fs) : StateM Files (Except FileError Unit))) fs = attempted fs (step fs) := by
  change (let x := (match step fs with
    | .ok fs' => (.ok (), fs')
    | .error e => (.error e, fs) : Except FileError Unit × Files); (Except.ok x.1, x.2)) = _
  cases step fs <;> rfl

theorem onFiles_write (path text : String) (fs : Files) :
    onFiles (liftM (Files.system.write path text)) fs = attempted fs (fs.write path text) :=
  onFiles_attempted (·.write path text) fs

theorem onFiles_rename (path target : String) (fs : Files) :
    onFiles (liftM (Files.system.rename path target)) fs = attempted fs (fs.rename path target) :=
  onFiles_attempted (·.rename path target) fs

/-- An argument that is read leaves the files alone, and there is a text of a document behind it. -/
theorem readArgument_ok {argument : String} {v : Value}
    (h : onFiles (readArgument Files.system argument) fs = (.ok v, fs')) :
    fs = fs' ∧ ∃ text : String, (Json.parse text.toList).bind Json.value? = some v := by
  unfold readArgument at h
  dsimp only at h
  split at h
  · obtain ⟨found, fs₁, hread, h⟩ := ok_of_onFiles_bind h
    rw [onFiles_read] at hread
    cases hread
    split at h
    · rw [pure_bind] at h
      split at h
      · rename_i hv
        cases h
        exact ⟨rfl, _, hv⟩
      · cases h
    · cases h
  · rw [pure_bind] at h
    split at h
    · rename_i hv
      cases h
      exact ⟨rfl, _, hv⟩
    · cases h

theorem plain_of_text {v : Value} (h : (Json.parse text.toList).bind Json.value? = some v) : v.Plain := by
  obtain ⟨j, -, hj⟩ := Option.bind_eq_some_iff.1 h
  exact Json.plain_of_value? hj

theorem readDiff_ok {argument : String} {d : Diff}
    (h : onFiles (readDiff Files.system argument) fs = (.ok d, fs')) : fs = fs' ∧ Value.Plain (.map d.entries) := by
  unfold readDiff at h
  obtain ⟨v, fs₁, hv, h⟩ := ok_of_onFiles_bind h
  obtain ⟨rfl, text, htext⟩ := readArgument_ok hv
  cases v with
  | map m =>
    cases h
    exact ⟨rfl, plain_of_text htext⟩
  | _ => cases h

theorem readMap_ok {what : String} {argument : Option String} {m : Option ValueMap}
    (h : onFiles (readMap Files.system what argument) fs = (.ok m, fs')) :
    fs = fs' ∧ ∀ entries, m = some entries → Value.Plain (.map entries) := by
  unfold readMap at h
  cases argument with
  | none =>
    cases h
    exact ⟨rfl, nofun⟩
  | some argument =>
    obtain ⟨v, fs₁, hv, h⟩ := ok_of_onFiles_bind h
    obtain ⟨rfl, text, htext⟩ := readArgument_ok hv
    cases v with
    | map entries =>
      cases h
      refine ⟨rfl, ?_⟩
      rintro _ ⟨⟩
      exact plain_of_text htext
    | _ => cases h

variable {lookup : String → Option String} {date : Timestamp} {newId : Uuid} {config : Config}

theorem readConfig_ok {file : Option String}
    (h : onFiles (readConfig ⟨Files.system, lookup, date, newId⟩ file) fs = (.ok config, fs')) : fs = fs' := by
  unfold readConfig at h
  dsimp only at h
  split at h
  · rw [pure_bind] at h
    split at h
    · cases h
      rfl
    · cases h
  · obtain ⟨found, fs₁, hread, h⟩ := ok_of_onFiles_bind h
    rw [onFiles_read] at hread
    cases hread
    split at h
    · rw [pure_bind] at h
      split at h
      · cases h
        rfl
      · cases h
    · cases h

theorem onFiles_loadStore (fs : Files) (path : String) :
    onFiles (loadStore Files.system path) fs =
      (match fs.read path with
        | .error e => .error (.unreadableStore path e)
        | .ok text => storeOfText path text, fs) := by
  unfold loadStore
  rw [onFiles_bind, onFiles_read]
  dsimp only
  cases fs.read path with
  | error e => rfl
  | ok text => rfl

def stored (fs : Files) (path : String) : Except Failure Store := (onFiles (loadStore Files.system path) fs).1

theorem onFiles_loadStore_stored (fs : Files) (path : String) :
    onFiles (loadStore Files.system path) fs = (stored fs path, fs) := by
  rw [stored, onFiles_loadStore]

theorem stored_ok {s : Store} (h : stored fs path = .ok s) :
    ∃ text, fs.read path = .ok text ∧ storeOfText path text = .ok s := by
  rw [stored, onFiles_loadStore] at h
  dsimp only at h
  split at h
  · cases h
  · rename_i text htext
    exact ⟨text, htext, h⟩

theorem sound_of_stored {s : Store} (h : stored fs path = .ok s) :
    s.Sound ∧ ∀ key, s.locks.isLocked key = false := by
  obtain ⟨text, -, hs⟩ := stored_ok h
  obtain ⟨hsound, hlocks⟩ := sound_of_storeOfText hs
  refine ⟨hsound, fun key ↦ ?_⟩
  rw [hlocks]
  rfl

theorem saveStore_ok {s : Store} {u : Unit} (h : onFiles (saveStore Files.system path s) fs = (.ok u, fs')) :
    ∃ fs₁, fs.write (draftPath path) (storeText s) = .ok fs₁ ∧ fs₁.rename (draftPath path) path = .ok fs' := by
  unfold saveStore at h
  obtain ⟨written, fs₁, hwritten, h⟩ := ok_of_onFiles_bind h
  rw [onFiles_write] at hwritten
  cases hwrite : fs.write (draftPath path) (storeText s) with
  | error e =>
    rw [hwrite] at hwritten
    cases hwritten
    cases h
  | ok fs₂ =>
    rw [hwrite] at hwritten
    cases hwritten
    obtain ⟨renamed, fs₃, hrenamed, h⟩ := ok_of_onFiles_bind h
    rw [onFiles_rename] at hrenamed
    cases hrename : fs₁.rename (draftPath path) path with
    | error e =>
      rw [hrename] at hrenamed
      cases hrenamed
      cases h
    | ok fs₃ =>
      rw [hrename] at hrenamed
      cases hrenamed
      cases h
      exact ⟨fs₁, rfl, hrename⟩

/-- A path that is not one of the file that is always empty, or that asks for a directory. -/
def Writable (fs : Files) (path : String) : Prop :=
  endsInSeparator path = false → ∀ p, fs.locate path = .ok p → p.text ≠ emptyFile

theorem writable_of_stored {s : Store} (h : stored fs path = .ok s) : Writable fs path := by
  intro _ p hp hempty
  obtain ⟨text, hread, hs⟩ := stored_ok h
  obtain ⟨content, hbytes, hdecoded⟩ := Files.read_ok.1 hread
  obtain ⟨p', hp', -, hfile, -⟩ := Files.bytes_ok.1 hbytes
  obtain rfl : p' = p := Except.ok.inj (hp'.symm.trans hp)
  rw [Files.file?, if_pos hempty] at hfile
  cases hfile
  -- No store is read from a file that is empty.
  obtain rfl : "" = text := Option.some.inj ((Files.fromUTF8?_toUTF8 "").symm.trans hdecoded)
  cases hs

theorem writable_of_not_isThere (h : fs.isThere path = false) : Writable fs path := by
  intro hend p hp hempty
  unfold Files.isThere at h
  rw [hp] at h
  simp [Files.file?, hempty, hend] at h

theorem read_saveStore {s : Store} {u : Unit} (h : onFiles (saveStore Files.system path s) fs = (.ok u, fs'))
    (hpath : Writable fs path) : fs'.read path = .ok (storeText s) := by
  obtain ⟨fs₁, hwrite, hrename⟩ := saveStore_ok h
  obtain ⟨-, -, q, -, -, -, hend, -, -⟩ := Files.rename_ok hrename
  exact Files.read_moved hwrite hrename (hpath hend)

theorem stored_saveStore {s : Store} {u : Unit} (h : onFiles (saveStore Files.system path s) fs = (.ok u, fs'))
    (hpath : Writable fs path) : stored fs' path = storeOfText path (storeText s) := by
  rw [stored, onFiles_loadStore, read_saveStore h hpath]

open Reevaluation (Decides Settled Shifts checkRequest reevaluate_decides updateStatus_shifts)

/-- The store that a command has in memory when it ends well, and whether the command changed it. -/
inductive Holds (date : Timestamp) (newId : Uuid) (fs : Files) : Command → Store → Bool → Prop
  | applied {o : ApplyOptions} {d : Diff} {metadata : Option ValueMap} {s held : Store} {settled : Settled} :
      onFiles (readDiff Files.system o.diff) fs = (.ok d, fs) →
      onFiles (readMap Files.system "metadata" o.metadata) fs = (.ok metadata, fs) →
      stored fs o.store = .ok s → Decides (requestOf o d metadata) date s (.ok settled) held →
      Holds date newId fs (.apply o) held (!settled.alreadyApplied)
  | shifted {path intent : String} {requested previous : Status} {i : Intent} {s held : Store} :
      stored fs path = .ok s → Shifts intent requested date s (.ok (i, previous)) held →
      Holds date newId fs (.status path intent requested) held (previous ≠ i.status)
  | created {path intent kind : String} {payload : Option String} {entries : Option ValueMap} {s held : Store} :
      onFiles (readMap Files.system "payload" payload) fs = (.ok entries, fs) →
      onFiles (loadOrCreateStore Files.system path) fs = (.ok s, fs) →
      s.insert (.received intent kind (entries.getD []) newId date) = .ok held →
      Holds date newId fs (.create path intent kind payload) held true

/-- What a command leaves in a file: what was there, if nothing has changed, or the store. -/
inductive Leaves (path : String) (held : Store) (fs : Files) : Bool → Files → Prop
  | kept {s : Store} : stored fs path = .ok s → s.intents = held.intents → Leaves path held fs false fs
  | saved {u : Unit} {fs' : Files} : onFiles (saveStore Files.system path held) fs = (.ok u, fs') →
      Writable fs path → Leaves path held fs true fs'

/-- What a command tells when it ends well, and whether it says that something has changed. -/
inductive Tells (output : OutputFormat) : Command → Bool → String → Prop
  | applied {o : ApplyOptions} {r : ReevaluationResponse} :
      Tells output (.apply o) (!r.alreadyApplied) (responseText output r)
  | shifted {path intent : String} {requested previous : Status} {i : Intent} :
      Tells output (.status path intent requested) (previous ≠ i.status) (statusText output i previous)
  | created {path intent kind : String} {payload : Option String} {i : Intent} :
      Tells output (.create path intent kind payload) true (createdText output i)

variable {output : OutputFormat}

theorem runApply_ok {o : ApplyOptions}
    (h : onFiles (runApply ⟨Files.system, lookup, date, newId⟩ config output o) fs = (.ok text, fs')) :
    ∃ held changed, Holds date newId fs (.apply o) held changed ∧ Leaves o.store held fs changed fs' ∧
      Tells output (.apply o) changed text := by
  unfold runApply at h
  obtain ⟨d, fs₁, hd, h⟩ := ok_of_onFiles_bind h
  obtain rfl := (readDiff_ok hd).1
  obtain ⟨metadata, fs₂, hmetadata, h⟩ := ok_of_onFiles_bind h
  obtain rfl := (readMap_ok hmetadata).1
  obtain ⟨s, fs₃, hload, h⟩ := ok_of_onFiles_bind h
  rw [onFiles_loadStore_stored] at hload
  obtain ⟨hs, rfl⟩ := Prod.mk.inj hload
  obtain ⟨hsound, hfree⟩ := sound_of_stored hs
  cases hcheck : checkRequest config (requestOf o d metadata) with
  | error e =>
    dsimp only at h
    rw [Reevaluation.reevaluate_of_refused hcheck] at h
    cases h
  | ok u =>
    obtain ⟨x, held, hx, attempts, starved, hrun⟩ :=
      @reevaluate_decides _ date _ config hsound.keyed (hfree _) hcheck
    dsimp only at h
    rw [hrun] at h
    cases x with
    | error e => cases h
    | ok settled =>
      have htold : Tells output (.apply o) (!settled.alreadyApplied)
          (responseText output (.of settled.intent settled.record settled.alreadyApplied attempts starved)) :=
        .applied (r := .of settled.intent settled.record settled.alreadyApplied attempts starved)
      refine ⟨held, _, .applied hd hmetadata hs hx, ?_⟩
      cases hx with
      | found hget hc hsame =>
        cases h
        exact ⟨.kept hs hsame.1.symm, htold⟩
      | applied hget hc hsame =>
        obtain ⟨u, fs₄, hsave, h⟩ := ok_of_onFiles_bind h
        cases h
        exact ⟨.saved hsave (writable_of_stored hs), htold⟩

theorem runStatus_ok {intent : String} {requested : Status}
    (h : onFiles (runStatus ⟨Files.system, lookup, date, newId⟩ config output path intent requested) fs =
      (.ok text, fs')) :
    ∃ held changed, Holds date newId fs (.status path intent requested) held changed ∧
      Leaves path held fs changed fs' ∧ Tells output (.status path intent requested) changed text := by
  unfold runStatus at h
  obtain ⟨s, fs₁, hload, h⟩ := ok_of_onFiles_bind h
  rw [onFiles_loadStore_stored] at hload
  obtain ⟨hs, rfl⟩ := Prod.mk.inj hload
  obtain ⟨hsound, hfree⟩ := sound_of_stored hs
  obtain ⟨x, held, hx, hrun⟩ := @updateStatus_shifts date _ _ requested config hsound.keyed (hfree intent)
  dsimp only at h
  cases hget : s.get intent with
  | error e =>
    rw [hget] at h
    cases h
  | ok previous =>
    rw [hget] at h
    dsimp only at h
    rw [hrun] at h
    cases x with
    | error e => cases h
    | ok result =>
      obtain ⟨i, status⟩ := result
      refine ⟨held, _, .shifted hs hx, ?_⟩
      cases hx with
      | kept hget' hstatus hsame =>
        obtain rfl := Except.ok.inj (hget.symm.trans hget')
        dsimp only [Except.map] at h
        rw [if_neg (not_not_intro rfl)] at h
        cases h
        refine ⟨?_, .shifted⟩
        rw [decide_eq_false (not_not_intro rfl)]
        exact .kept hs hsame.1.symm
      | moved hget' htransition hstatus hsame =>
        obtain rfl := Except.ok.inj (hget.symm.trans hget')
        dsimp only [Except.map] at h
        rw [if_pos hstatus] at h
        obtain ⟨u, fs₄, hsave, h⟩ := ok_of_onFiles_bind h
        cases h
        refine ⟨?_, .shifted⟩
        rw [decide_eq_true hstatus]
        exact .saved hsave (writable_of_stored hs)

theorem loadOrCreateStore_ok {s : Store} (h : onFiles (loadOrCreateStore Files.system path) fs = (.ok s, fs')) :
    fs = fs' ∧ s.Sound ∧ Writable fs path := by
  unfold loadOrCreateStore at h
  obtain ⟨there, fs₁, hthere, h⟩ := ok_of_onFiles_bind h
  rw [onFiles_isThere] at hthere
  cases hthere
  split at h
  · rw [onFiles_loadStore_stored] at h
    obtain ⟨hs, rfl⟩ := Prod.mk.inj h
    exact ⟨rfl, (sound_of_stored hs).1, writable_of_stored hs⟩
  · rename_i hthere
    cases h
    exact ⟨rfl, .empty, writable_of_not_isThere (by simpa using hthere)⟩

theorem runCreate_ok {intent kind : String} {payload : Option String}
    (h : onFiles (runCreate ⟨Files.system, lookup, date, newId⟩ output path intent kind payload) fs =
      (.ok text, fs')) :
    ∃ held changed, Holds date newId fs (.create path intent kind payload) held changed ∧
      Leaves path held fs changed fs' ∧ Tells output (.create path intent kind payload) changed text := by
  unfold runCreate at h
  obtain ⟨entries, fs₁, hentries, h⟩ := ok_of_onFiles_bind h
  obtain rfl := (readMap_ok hentries).1
  obtain ⟨s, fs₂, hs, h⟩ := ok_of_onFiles_bind h
  obtain ⟨rfl, -, hpath⟩ := loadOrCreateStore_ok hs
  dsimp only at h
  split at h
  · cases h
  · rename_i held hheld
    obtain ⟨u, fs₃, hsave, h⟩ := ok_of_onFiles_bind h
    cases h
    exact ⟨held, true, .created hentries hs hheld, .saved hsave hpath, .created⟩

theorem Holds.sound {c : Command} {held : Store} {changed : Bool} (h : Holds date newId fs c held changed) :
    held.Sound := by
  cases h with
  | applied hd hmetadata hs hx =>
    have hsound := (sound_of_stored hs).1
    cases hx with
    | found hget hc hsame => exact hsound.sameContents hsame
    | applied hget hc hsame =>
      refine (hsound.write ?_ _).sameContents hsame
      exact Intent.plain_correct hc (hsound.plain _ _ (get_eq_ok.1 hget)) (readDiff_ok hd).2 (readMap_ok hmetadata).2
  | shifted hs hx =>
    have hsound := (sound_of_stored hs).1
    cases hx with
    | kept hget hstatus hsame => exact hsound.sameContents hsame
    | moved hget htransition hstatus hsame =>
      exact (hsound.write (Intent.plain_transition htransition (hsound.plain _ _ (get_eq_ok.1 hget))) _).sameContents
        hsame
  | @created _ _ _ _ entries s held hentries hs hinsert =>
    obtain ⟨-, hsound, -⟩ := loadOrCreateStore_ok hs
    obtain ⟨-, rfl⟩ := insert_ok hinsert
    refine hsound.write ⟨?_, fun r hr ↦ absurd hr List.not_mem_nil⟩ _
    cases entries with
    | none => exact .nil
    | some m => exact (readMap_ok hentries).2 m rfl

def Command.changed? : Command → Option String
  | .apply o => some o.store
  | .status store _ _ => some store
  | .create store _ _ _ => some store
  | _ => none

theorem runCommand_told {call : Call} (hpath : call.command.changed? = some path)
    (h : onFiles (runCommand ⟨Files.system, lookup, date, newId⟩ call) fs = (.ok text, fs')) :
    ∃ held changed, Holds date newId fs call.command held changed ∧ Leaves path held fs changed fs' ∧
      Tells call.output call.command changed text := by
  obtain ⟨output, quiet, file, command⟩ := call
  unfold runCommand at h
  cases command with
  | apply o =>
    cases hpath
    obtain ⟨config, fs₁, hconfig, h⟩ := ok_of_onFiles_bind h
    obtain rfl := readConfig_ok hconfig
    exact runApply_ok h
  | status store intent requested =>
    cases hpath
    obtain ⟨config, fs₁, hconfig, h⟩ := ok_of_onFiles_bind h
    obtain rfl := readConfig_ok hconfig
    exact runStatus_ok h
  | create store intent kind payload =>
    cases hpath
    exact runCreate_ok h
  | _ => cases hpath

theorem runCommand_ok {call : Call} (hpath : call.command.changed? = some path)
    (h : onFiles (runCommand ⟨Files.system, lookup, date, newId⟩ call) fs = (.ok text, fs')) :
    ∃ held changed, Holds date newId fs call.command held changed ∧ Leaves path held fs changed fs' := by
  obtain ⟨held, changed, hheld, hleaves, -⟩ := runCommand_told hpath h
  exact ⟨held, changed, hheld, hleaves⟩

/-- A command that ends well leaves a file that is read as the intents it has in memory, if they are not nested too
deep for the reader. A store that is nested deeper is written as well, and then the file is no store. -/
theorem runCommand_readable {call : Call} (hpath : call.command.changed? = some path)
    (h : onFiles (runCommand ⟨Files.system, lookup, date, newId⟩ call) fs = (.ok text, fs')) :
    ∃ held changed, Holds date newId fs call.command held changed ∧ (changed = false → fs' = fs) ∧
      ((∀ i ∈ held.snapshot, i.Legible) →
        (held.document.depth ≤ Json.maxDepth → ∃ s, stored fs' path = .ok s ∧ s.intents = held.intents) ∧
        (Json.maxDepth < held.document.depth → changed = true → stored fs' path = .error (.notStore path))) := by
  obtain ⟨held, changed, hheld, hleaves⟩ := runCommand_ok hpath h
  refine ⟨held, changed, hheld, ?_⟩
  cases hleaves with
  | kept hs hsame => exact ⟨fun _ ↦ rfl, fun _ ↦ ⟨fun _ ↦ ⟨_, hs, hsame⟩, nofun⟩⟩
  | saved hsave hwritable =>
    refine ⟨nofun, fun hlegible ↦ ?_⟩
    rw [stored_saveStore hsave hwritable]
    exact ⟨storeOfText_storeText hheld.sound hlegible, fun hdeep _ ↦ storeOfText_deep hlegible hdeep⟩

namespace Payment

def morning : Timestamp := ⟨⟨2025, 6, 30, by decide⟩, ⟨9, 30, 0, 0, by decide⟩, 120, by decide⟩

def call : Call := ⟨.text, false, none, .create "s.json" "o-1" "payment" (some "\x7b\"amount\":100\x7d")⟩

def outcome : Except Failure String × Files :=
  onFiles (runCommand ⟨Files.system, fun _ ↦ none, morning, Uuid.dns⟩ call) []

def intent : Intent := .received "o-1" "payment" [("amount", .ofInt 100)] Uuid.dns morning

def held : Store := ⟨[("o-1", intent)], [("o-1", [])], .empty⟩

theorem held_of_holds {s : Store} {changed : Bool} (h : Holds morning Uuid.dns [] call.command s changed) :
    s = held := by
  cases h with
  | created hentries hs hinsert =>
    have hpayload : onFiles (readMap Files.system "payload" (some "\x7b\"amount\":100\x7d")) [] =
        (.ok (some [("amount", .ofInt 100)]), []) := by decide +kernel
    have hmissing : Files.isThere [] "s.json" = false := by decide +kernel
    rw [hpayload] at hentries
    cases hentries
    unfold loadOrCreateStore at hs
    rw [onFiles_bind, onFiles_isThere, hmissing] at hs
    cases hs
    cases hinsert
    rfl

theorem legible_amount (key kind : String) (n : Nat) (h : n < Word.size64) :
    (Intent.received key kind [("amount", .ofInt n)] Uuid.dns morning).Legible := by
  refine ⟨⟨.object fun f hf ↦ ?_, nofun⟩, (by decide : 0 < Word.size64)⟩
  rw [List.mem_singleton.1 hf]
  exact .number (Number.readsBack_natural h)

theorem legible_held : ∀ i ∈ held.snapshot, i.Legible := by
  have hsnapshot : held.snapshot = [intent] := by decide +kernel
  intro i hi
  rw [hsnapshot, List.mem_singleton] at hi
  subst hi
  exact legible_amount _ _ 100 (by decide)

end Payment

open Payment in
theorem runCommand_readable_payment :
    ∃ s, stored outcome.2 "s.json" = .ok s ∧ s.intents = [("o-1", intent)] := by
  have hpath : call.command.changed? = some "s.json" := rfl
  have hrun : outcome.1 = .ok "created o-1 (payment) in status received\n" := by decide +kernel
  have houtcome : outcome = (.ok "created o-1 (payment) in status received\n", outcome.2) := by rw [← hrun]
  obtain ⟨s, changed, hs, -, hread⟩ := runCommand_readable hpath houtcome
  obtain rfl := held_of_holds hs
  exact (hread legible_held).1 (by decide +kernel)

/-- An accepted correction that sets one path, as long as the reader's limit or one segment shorter, leaves a file that
no command reads again. -/
theorem runApply_deep {o : ApplyOptions} {key : String} {v : Value}
    (hdiff : onFiles (readDiff Files.system o.diff) fs = (.ok (.ofPayload [(key, v)]), fs))
    (hlong : Json.maxDepth ≤ (Path.segments key).length + 1)
    (h : onFiles (runApply ⟨Files.system, lookup, date, newId⟩ config output o) fs = (.ok text, fs'))
    (hne : fs' ≠ fs) :
    ∃ held, Holds date newId fs (.apply o) held true ∧
      ((∀ i ∈ held.snapshot, i.Legible) → stored fs' o.store = .error (.notStore o.store)) := by
  obtain ⟨held, changed, hheld, hleaves, -⟩ := runApply_ok h
  cases hleaves with
  | kept hs hsame => exact absurd rfl hne
  | saved hsave hwritable =>
    refine ⟨held, hheld, fun hlegible ↦ ?_⟩
    rw [stored_saveStore hsave hwritable]
    refine storeOfText_deep hlegible ?_
    suffices ∃ i ∈ held.snapshot, (Path.segments key).length < i.toJson.depth by
      obtain ⟨i, hi, hdeep⟩ := this
      exact Nat.lt_of_le_of_lt (Nat.le_trans hlong hdeep) (depth_lt_document hi)
    have hsound := hheld.sound
    generalize hchanged : true = changed at hheld
    cases hheld with
    | applied hd hmetadata hs hx =>
      obtain rfl := Except.ok.inj (Prod.mk.inj (hd.symm.trans hdiff)).1
      cases hx with
      | found hget hc hsame => cases hchanged
      | @applied i next record held hget hc hsame =>
        refine ⟨next, (mem_snapshot hsound.keyed hsound.sorted).2 ?_, Intent.length_lt_depth_correct hc⟩
        rw [hsame.1, get?_write, if_pos rfl]

end IntentCorrection.CommandLine
