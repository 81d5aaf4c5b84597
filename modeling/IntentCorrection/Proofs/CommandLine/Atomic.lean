import IntentCorrection.Proofs.CommandLine.Commands
import IntentCorrection.Proofs.Store.Listing

namespace IntentCorrection.CommandLine

open Store

variable {α β : Type} {fs fs' : Files} {path text : String}

def LooksOn (x : ExceptT Failure (StateM Files) α) : Prop := ∀ fs, (onFiles x fs).2 = fs

/-- A failure leaves the bytes of the file as they were. -/
def Spares (path : String) (x : ExceptT Failure (StateM Files) α) : Prop :=
  ∀ fs fs' e, onFiles x fs = (.error e, fs') → ∀ bytes, fs'.bytes path = .ok bytes ↔ fs.bytes path = .ok bytes

variable {x : ExceptT Failure (StateM Files) α} {f : α → ExceptT Failure (StateM Files) β}

theorem LooksOn.bind (hx : LooksOn x) (hf : ∀ a, LooksOn (f a)) : LooksOn (x >>= f) := by
  intro fs
  have hfs := hx fs
  rw [onFiles_bind]
  rcases hrun : onFiles x fs with ⟨e | a, fs₁⟩
  · rw [hrun] at hfs
    exact hfs
  · rw [hrun] at hfs
    exact (hf a fs₁).trans hfs

theorem looksOn_pure (a : α) : LooksOn (pure a) := fun _ ↦ rfl

theorem looksOn_throw (e : Failure) : LooksOn (throw e : ExceptT _ _ α) := fun _ ↦ rfl

theorem looksOn_read (path : String) : LooksOn (liftM (Files.system.read path)) := fun _ ↦ rfl

theorem looksOn_isThere (path : String) : LooksOn (liftM (Files.system.isThere path)) := fun _ ↦ rfl

theorem looksOn_readArgument (argument : String) : LooksOn (readArgument Files.system argument) := by
  unfold readArgument
  dsimp only
  split
  · refine (looksOn_read _).bind fun found ↦ ?_
    split
    · rw [pure_bind]
      split
      · exact looksOn_pure _
      · exact looksOn_throw _
    · exact looksOn_throw _
  · rw [pure_bind]
    split
    · exact looksOn_pure _
    · exact looksOn_throw _

theorem looksOn_readDiff (argument : String) : LooksOn (readDiff Files.system argument) := by
  refine (looksOn_readArgument argument).bind fun v ↦ ?_
  split
  · exact looksOn_pure _
  · exact looksOn_throw _

theorem looksOn_readMap (what : String) (argument : Option String) :
    LooksOn (readMap Files.system what argument) := by
  cases argument with
  | none => exact looksOn_pure _
  | some argument =>
    refine (looksOn_readArgument argument).bind fun v ↦ ?_
    cases v with
    | map entries => exact looksOn_pure _
    | _ => exact looksOn_throw _

variable {lookup : String → Option String} {date : Timestamp} {newId : Uuid} {config : Config} {output : OutputFormat}

theorem looksOn_readConfig (file : Option String) :
    LooksOn (readConfig ⟨Files.system, lookup, date, newId⟩ file) := by
  unfold readConfig
  dsimp only
  split
  · rw [pure_bind]
    split
    · exact looksOn_pure _
    · exact looksOn_throw _
  · refine (looksOn_read _).bind fun found ↦ ?_
    split
    · rw [pure_bind]
      split
      · exact looksOn_pure _
      · exact looksOn_throw _
    · exact looksOn_throw _

theorem looksOn_loadStore (path : String) : LooksOn (loadStore Files.system path) := fun fs ↦ by
  rw [onFiles_loadStore]

theorem looksOn_loadOrCreateStore (path : String) : LooksOn (loadOrCreateStore Files.system path) := by
  refine (looksOn_isThere _).bind fun there ↦ ?_
  split
  · exact looksOn_loadStore path
  · exact looksOn_pure _

theorem LooksOn.spares (hx : LooksOn x) (path : String) : Spares path x := by
  intro fs fs' e h bytes
  have hfs := hx fs
  rw [h] at hfs
  cases hfs
  exact .rfl

theorem LooksOn.spares_bind (hx : LooksOn x) (hf : ∀ a, Spares path (f a)) : Spares path (x >>= f) := by
  intro fs fs' e h
  have hfs := hx fs
  rw [onFiles_bind] at h
  rcases hrun : onFiles x fs with ⟨e' | a, fs₁⟩
  · rw [hrun] at h hfs
    cases h
    cases hfs
    exact fun bytes ↦ .rfl
  · rw [hrun] at h hfs
    cases hfs
    exact hf a _ _ _ h

theorem Spares.then_pure (hx : Spares path x) (g : α → β) : Spares path (do let a ← x; pure (g a)) := by
  intro fs fs' e h
  rw [onFiles_bind] at h
  split at h
  · cases h
  · rename_i hrun
    cases h
    exact hx _ _ _ hrun

/-- The draft may be left behind, but the file is as it was. -/
theorem spares_saveStore (path : String) (s : Store) : Spares path (saveStore Files.system path s) := by
  intro fs fs' e h bytes
  unfold saveStore at h
  rw [onFiles_bind, onFiles_write] at h
  cases hwrite : fs.write (draftPath path) (storeText s) with
  | error e' =>
    rw [hwrite] at h
    cases h
    exact .rfl
  | ok fs₁ =>
    rw [hwrite] at h
    dsimp only [attempted] at h
    rw [onFiles_bind, onFiles_rename] at h
    cases hrename : fs₁.rename (draftPath path) path with
    | error e' =>
      rw [hrename] at h
      cases h
      exact Files.bytes_drafted hwrite bytes
    | ok fs₂ =>
      rw [hrename] at h
      cases h

theorem spares_runApply (o : ApplyOptions) :
    Spares o.store (runApply ⟨Files.system, lookup, date, newId⟩ config output o) := by
  refine (looksOn_readDiff _).spares_bind fun d ↦ (looksOn_readMap _ _).spares_bind fun metadata ↦
    (looksOn_loadStore _).spares_bind fun s ↦ ?_
  split
  · exact (looksOn_throw _).spares _
  · split
    · exact (spares_saveStore _ _).then_pure _
    · exact (looksOn_pure _).spares _

theorem spares_runStatus (path intent : String) (requested : Status) :
    Spares path (runStatus ⟨Files.system, lookup, date, newId⟩ config output path intent requested) := by
  refine (looksOn_loadStore _).spares_bind fun s ↦ ?_
  split
  · exact (looksOn_throw _).spares _
  · split
    · exact (looksOn_throw _).spares _
    · split
      · exact (spares_saveStore _ _).then_pure _
      · exact (looksOn_pure _).spares _

theorem spares_runCreate (path intent kind : String) (payload : Option String) :
    Spares path (runCreate ⟨Files.system, lookup, date, newId⟩ output path intent kind payload) := by
  refine (looksOn_readMap _ _).spares_bind fun entries ↦ (looksOn_loadOrCreateStore _).spares_bind fun s ↦ ?_
  dsimp only
  split
  · exact (looksOn_throw _).spares _
  · exact (spares_saveStore _ _).then_pure _

theorem spares_runCommand {call : Call} (hpath : call.command.changed? = some path) :
    Spares path (runCommand ⟨Files.system, lookup, date, newId⟩ call) := by
  obtain ⟨output, quiet, file, command⟩ := call
  unfold runCommand
  cases command with
  | apply o =>
    cases hpath
    exact (looksOn_readConfig _).spares_bind fun config ↦ spares_runApply o
  | status store intent requested =>
    cases hpath
    exact (looksOn_readConfig _).spares_bind fun config ↦ spares_runStatus _ intent requested
  | create store intent kind payload =>
    cases hpath
    exact spares_runCreate _ intent kind payload
  | _ => cases hpath

/-- The intents in the file; none, if the file is not there. -/
def Loads (fs : Files) (path : String) (is : List Intent) : Prop :=
  (∃ text, fs.read path = .ok text ∧ intentsOfText? text = some is) ∨ fs.isThere path = false ∧ is = []

/-- One intent gets its next version, or a new one is added. -/
inductive Edits (date : Timestamp) (newId : Uuid) (fs : Files) : Command → List Intent → List Intent → Prop
  | corrected {o : ApplyOptions} {d : Diff} {metadata : Option ValueMap} {i next : Intent} {record : CorrectionRecord}
      {before after : List Intent} :
      onFiles (readDiff Files.system o.diff) fs = (.ok d, fs) →
      onFiles (readMap Files.system "metadata" o.metadata) fs = (.ok metadata, fs) →
      i.key = o.intent → i.correct d o.source o.reason metadata date = .ok (.applied next record) →
      Edits date newId fs (.apply o) (before ++ i :: after) (before ++ next :: after)
  | moved {path intent : String} {requested : Status} {i next : Intent} {before after : List Intent} :
      i.key = intent → i.transition requested date = .ok next → next.status ≠ i.status →
      Edits date newId fs (.status path intent requested) (before ++ i :: after) (before ++ next :: after)
  | created {path intent kind : String} {payload : Option String} {entries : Option ValueMap} {is : List Intent} :
      onFiles (readMap Files.system "payload" payload) fs = (.ok entries, fs) → (∀ i ∈ is, i.key ≠ intent) →
      Edits date newId fs (.create path intent kind payload) is
        (is ++ [.received intent kind (entries.getD []) newId date])

theorem loads_of_stored {s : Store} (h : stored fs path = .ok s) : ∃ is, Loads fs path is ∧ s.Lists is := by
  obtain ⟨text, htext, hs⟩ := stored_ok h
  unfold storeOfText at hs
  split at hs
  · cases hs
  · rename_i is his
    split at hs
    · rename_i hof
      cases hs
      exact ⟨is, .inl ⟨text, htext, his⟩, lists_of_ofIntents hof⟩
    · cases hs

theorem loads_of_loadOrCreateStore {s : Store}
    (h : onFiles (loadOrCreateStore Files.system path) fs = (.ok s, fs')) : ∃ is, Loads fs path is ∧ s.Lists is := by
  unfold loadOrCreateStore at h
  rw [onFiles_bind, onFiles_isThere] at h
  dsimp only at h
  split at h
  · rw [onFiles_loadStore_stored] at h
    exact loads_of_stored (Prod.mk.inj h).1
  · rename_i hthere
    cases h
    exact ⟨[], .inr ⟨by simpa using hthere, rfl⟩, lists_of_ofIntents rfl⟩

theorem key_of_transition {i next : Intent} {requested : Status} (h : i.transition requested date = .ok next) :
    next.key = i.key := by
  obtain ⟨-, ⟨-, rfl⟩ | ⟨-, rfl⟩⟩ := Intent.transition_ok h
  · rfl
  · rfl

/-- A command that has changed something holds the edited list. -/
theorem Holds.edits {c : Command} {held : Store} (h : Holds date newId fs c held true)
    (hpath : c.changed? = some path) :
    ∃ is edited, Loads fs path is ∧ (is.map Intent.key).Nodup ∧ Edits date newId fs c is edited ∧ held.Lists edited := by
  generalize hchanged : true = changed at h
  cases h with
  | applied hd hmetadata hs hx =>
    cases hpath
    obtain ⟨is, hloads, hlists⟩ := loads_of_stored hs
    cases hx with
    | found hget hc hsame => cases hchanged
    | applied hget hc hsame =>
      obtain ⟨hkey, before, after, rfl⟩ := hlists.split (sound_of_stored hs).1.keyed hget
      exact ⟨_, _, hloads, hlists.nodup_keys, .corrected hd hmetadata hkey hc,
        (hlists.replaced (Reevaluation.key_history_of_correct hc).1 _).sameContents hsame⟩
  | shifted hs hx =>
    cases hpath
    obtain ⟨is, hloads, hlists⟩ := loads_of_stored hs
    cases hx with
    | kept hget hstatus hsame =>
      rw [decide_eq_false (not_not_intro rfl)] at hchanged
      cases hchanged
    | moved hget htransition hstatus hsame =>
      obtain ⟨hkey, before, after, rfl⟩ := hlists.split (sound_of_stored hs).1.keyed hget
      exact ⟨_, _, hloads, hlists.nodup_keys, .moved hkey htransition (Ne.symm hstatus),
        (hlists.replaced (key_of_transition htransition) _).sameContents hsame⟩
  | created hentries hs hinsert =>
    cases hpath
    obtain ⟨is, hloads, hlists⟩ := loads_of_loadOrCreateStore hs
    obtain ⟨hfresh, rfl⟩ := insert_ok hinsert
    refine ⟨is, _, hloads, hlists.nodup_keys, .created hentries fun i hi heq ↦ ?_, hlists.added hfresh _⟩
    have hget := (hlists.mem i).1 hi
    rw [heq] at hget
    exact absurd (hget.symm.trans hfresh) (by simp)

theorem version_lt_of_loads {is : List Intent} (h : Loads fs path is) : ∀ i ∈ is, i.version < Word.size64 := by
  intro i hi
  rcases h with ⟨text, -, htext⟩ | ⟨-, rfl⟩
  · obtain ⟨j, -, hj⟩ := Option.bind_eq_some_iff.1 htext
    obtain ⟨k, hk⟩ := Json.mem_of_listOf? hj hi
    exact (Intent.plain_of_ofJson? hk).2
  · cases hi

/-- A next version is only made where there is room for it. -/
theorem Edits.version_lt {c : Command} {is edited : List Intent} (h : Edits date newId fs c is edited)
    (his : ∀ i ∈ is, i.version < Word.size64) : ∀ i ∈ edited, i.version < Word.size64 := by
  have hreplaced : ∀ {before after : List Intent} {i next : Intent}, next.version < Word.size64 →
      (∀ j ∈ before ++ i :: after, j.version < Word.size64) →
        ∀ j ∈ before ++ next :: after, j.version < Word.size64 := by
    intro before after i next hnext hall j hj
    rcases List.mem_append.1 hj with hj | hj
    · exact hall j (List.mem_append_left _ hj)
    · rcases List.mem_cons.1 hj with rfl | hj
      · exact hnext
      · exact hall j (List.mem_append_right _ (List.mem_cons_of_mem _ hj))
  cases h with
  | corrected _ _ _ hc =>
    have hroom := Intent.hasRoom_of_applied hc
    obtain ⟨-, -, -, changes, payload, -, -, rfl⟩ := Intent.correct_applied hc
    exact hreplaced hroom his
  | moved _ ht hne =>
    obtain ⟨-, ⟨-, rfl⟩ | ⟨hstatus, hnext⟩⟩ := Intent.transition_ok ht
    · exact absurd rfl hne
    · have hroom := Intent.hasRoom_of_moved ht hstatus
      refine hreplaced ?_ his
      rw [hnext]
      exact hroom
  | created _ _ =>
    intro j hj
    rcases List.mem_append.1 hj with hj | hj
    · exact his j hj
    · rw [List.mem_singleton.1 hj]
      exact (by decide : 0 < Word.size64)

variable {detail : String} {arguments : List String} {call : Call} {ending : Ending}

theorem run_eq (hversion : asksForVersion arguments = false) (hcall : Call.parse? arguments = some call)
    (s : Surroundings (StateM Files)) (fs : Files) :
    (run s detail arguments).run fs =
      (call.ending detail (onFiles (runCommand s call) fs).1, (onFiles (runCommand s call) fs).2) := by
  unfold run
  rw [hversion, hcall]
  rfl

theorem run_of_not_parsed (hversion : asksForVersion arguments = false) (hcall : Call.parse? arguments = none)
    (s : Surroundings (StateM Files)) (fs : Files) : (run s detail arguments).run fs = (usageEnding, fs) := by
  unfold run
  rw [hversion, hcall]
  rfl

theorem exitCode_of_failed (call : Call) (detail : String) (f : Failure) :
    (call.ending detail (.error f)).exitCode ≠ 0 := by
  unfold Call.ending
  dsimp only
  split
  · exact (by decide : (101 : UInt8) ≠ 0)
  · exact (by decide : (1 : UInt8) ≠ 0)

/-- Arguments that make no call leave all files as they were. Otherwise a command that fails leaves the bytes of the
file as they were. One that ends well and tells that nothing has changed leaves all files as they were; else the file is
the document of an array with the intents that were loaded, one of them edited or a new one added, in the order of
creation and then of keys, and it is read back as these intents. -/
theorem run_atomic (hversion : asksForVersion arguments = false)
    (h : (run ⟨Files.system, lookup, date, newId⟩ detail arguments).run fs = (ending, fs')) :
    (Call.parse? arguments = none → ending.exitCode = 2 ∧ fs' = fs) ∧
      ∀ call path, Call.parse? arguments = some call → call.command.changed? = some path →
        (ending.exitCode ≠ 0 → ∀ bytes, fs'.bytes path = .ok bytes ↔ fs.bytes path = .ok bytes) ∧
        (ending.exitCode = 0 → ∃ changed text, Tells call.output call.command changed text ∧
          ending.output = (if call.quiet then "" else text) ∧ (changed = false → fs' = fs) ∧
          (changed = true → ∃ is edited listed, Loads fs path is ∧ (is.map Intent.key).Nodup ∧
            Edits date newId fs call.command is edited ∧ listed.Perm edited ∧ listed.Pairwise Before ∧
            (∀ i ∈ listed, i.version < Word.size64) ∧
            ∃ text, text = String.ofList ((Json.array (listed.map Intent.toJson)).pretty ++ ['\n']) ∧
              fs'.read path = .ok text ∧
              ((∀ i ∈ listed, i.Every fun v ↦ (Json.ofValue v).Legible) →
                (Json.array (listed.map Intent.toJson)).depth ≤ Json.maxDepth → intentsOfText? text = some listed))) := by
  constructor
  · intro hcall
    rw [run_of_not_parsed hversion hcall] at h
    cases h
    exact ⟨rfl, rfl⟩
  intro call path hcall hpath
  rw [run_eq hversion hcall] at h
  rcases hrun : onFiles (runCommand ⟨Files.system, lookup, date, newId⟩ call) fs with ⟨e | told, fs₁⟩
  · rw [hrun] at h
    cases h
    exact ⟨fun _ ↦ spares_runCommand hpath _ _ _ hrun, fun hzero ↦ absurd hzero (exitCode_of_failed call detail e)⟩
  · rw [hrun] at h
    cases h
    refine ⟨fun hne ↦ absurd rfl hne, fun _ ↦ ?_⟩
    obtain ⟨held, changed, hheld, hleaves, htells⟩ := runCommand_told hpath hrun
    refine ⟨changed, told, htells, rfl, ?_⟩
    have hsound := hheld.sound
    cases hleaves with
    | kept hs hsame => exact ⟨fun _ ↦ rfl, nofun⟩
    | saved hsave hwritable =>
      refine ⟨nofun, fun _ ↦ ?_⟩
      obtain ⟨is, edited, hloads, hkeys, hedits, hlists⟩ := hheld.edits hpath
      have hperm := hlists.perm_snapshot hsound.keyed hsound.sorted
      have hversions : ∀ i ∈ held.snapshot, i.version < Word.size64 := by
        intro i hi
        exact hedits.version_lt (version_lt_of_loads hloads) i (hperm.mem_iff.1 hi)
      refine ⟨is, edited, held.snapshot, hloads, hkeys, hedits, hperm, pairwise_snapshot hsound.keyed hsound.sorted,
        hversions, storeText held, rfl, read_saveStore hsave hwritable, fun hevery ↦ ?_⟩
      exact intentsOfText?_storeText hsound fun i hi ↦ ⟨hevery i hi, hversions i hi⟩

namespace Shop

def bill : Intent := .received "o-2" "bill" [("amount", .ofInt 40)] Uuid.dns Payment.morning

def store : Store := ⟨[("o-1", Payment.intent), ("o-2", bill)], [("o-1", []), ("o-2", [])], .empty⟩

def moved : Intent := { Payment.intent with status := .normalized, version := 1 }

def files : Files := [("s.json", (storeText store).toUTF8)]

def torn : Files := [("s.json", ⟨#[255]⟩)]

def words : List String := ["status", "--store", "s.json", "--intent", "o-1", "--to", "normalized"]

def move : Call := ⟨.text, false, none, .status "s.json" "o-1" .normalized⟩

def surroundings : Surroundings (StateM Files) := ⟨Files.system, fun _ ↦ none, Payment.morning, Uuid.dns⟩

theorem parse?_words : Call.parse? words = some move := by decide +kernel

theorem ofIntents_store : ofIntents [Payment.intent, bill] = .ok store := rfl

theorem sound_store : store.Sound := by
  have hpayment : Intent.ofJson? Payment.intent.toJson = some Payment.intent := rfl
  have hbill : Intent.ofJson? bill.toJson = some bill := rfl
  apply Sound.ofIntents ofIntents_store
  intro i hi
  simp only [List.mem_cons, List.not_mem_nil, or_false] at hi
  rcases hi with rfl | rfl
  · exact (Intent.plain_of_ofJson? hpayment).1
  · exact (Intent.plain_of_ofJson? hbill).1

theorem pairwise_bill {i : Intent} (hkey : i.key = "o-1") (hcreated : i.createdAt = Payment.morning) :
    [i, bill].Pairwise Before := by
  have hbefore : Before i bill := by
    refine .inr ⟨congrArg Timestamp.instant hcreated, ?_⟩
    rw [hkey]
    decide
  exact List.pairwise_pair.2 hbefore

theorem snapshot_store : store.snapshot = [Payment.intent, bill] := by
  have hperm := (lists_of_ofIntents ofIntents_store).perm_snapshot sound_store.keyed sound_store.sorted
  exact eq_of_before hperm (pairwise_snapshot sound_store.keyed sound_store.sorted) (pairwise_bill rfl rfl)

theorem intentsOfText?_store : intentsOfText? (storeText store) = some [Payment.intent, bill] := by
  rw [← snapshot_store]
  apply intentsOfText?_storeText sound_store
  · rw [snapshot_store]
    intro i hi
    simp only [List.mem_cons, List.not_mem_nil, or_false] at hi
    rcases hi with rfl | rfl
    · exact Payment.legible_amount _ _ 100 (by decide)
    · exact Payment.legible_amount _ _ 40 (by decide)
  · unfold Store.document
    rw [snapshot_store]
    decide

theorem read_files : files.read "s.json" = .ok (storeText store) :=
  Files.read_ok.2 ⟨_, Files.bytes_ok.2 ⟨["s.json".toList], rfl, rfl, rfl, rfl⟩, Files.fromUTF8?_toUTF8 _⟩

theorem stored_files : stored files "s.json" = .ok store := by
  rw [stored, onFiles_loadStore, read_files]
  dsimp only
  rw [storeOfText, intentsOfText?_store]
  dsimp only
  rw [ofIntents_store]

theorem saved (s : Store) : ∃ fs', onFiles (saveStore Files.system "s.json" s) files = (.ok (), fs') := by
  have hdraft : draftPath "s.json" = "s.json.tmp" := rfl
  have hwrite : files.write "s.json.tmp" (storeText s) = .ok (files.insert "s.json.tmp" (storeText s).toUTF8) :=
    @Files.write_of_locate files "s.json.tmp" ["s.json.tmp".toList] rfl (by decide) rfl _
  have hplace : Files.isDirectory (files.insert "s.json.tmp" (storeText s).toUTF8) ["s.json".toList] = false :=
    (@Files.insert_sibling [] _ _ nofun (by decide) (by decide) (by decide) files _).2 rfl
  have hbytes : Files.bytes (files.insert "s.json.tmp" (storeText s).toUTF8) "s.json.tmp" =
      .ok (storeText s).toUTF8 := by
    refine Files.bytes_ok.2 ⟨["s.json.tmp".toList], rfl, ?_, ?_, by decide⟩
    · exact Files.isDirectory_anti (fun _ hk ↦ Entries.contains_insert.1 hk) rfl
    · rw [Files.file?, if_neg (by decide)]
      exact (Entries.get?_insert _ _ _ _).trans (if_pos rfl)
  obtain ⟨fs', hrename⟩ : ∃ fs', Files.rename (files.insert "s.json.tmp" (storeText s).toUTF8) "s.json.tmp" "s.json" =
      .ok fs' := ⟨_, @Files.rename_of_locate _ _ _ _ ["s.json.tmp".toList] _ rfl hbytes rfl (by decide) hplace⟩
  refine ⟨fs', ?_⟩
  unfold saveStore
  rw [onFiles_bind, onFiles_write, hdraft, hwrite]
  dsimp only [attempted]
  rw [onFiles_bind, onFiles_rename, hrename]
  rfl

def told : String := "o-1: received -> normalized (version 1)\n"

theorem ended : ∃ fs', (run surroundings "no document" words).run files = (⟨0, told, ""⟩, fs') := by
  have hversion : asksForVersion words = false := rfl
  have hconfig : onFiles (readConfig surroundings none) files = (.ok .default, files) := rfl
  have hget : store.get "o-1" = .ok Payment.intent := rfl
  obtain ⟨held, hrun⟩ : ∃ held, (Reevaluation.updateStatus .default "o-1" .normalized).runAlone Payment.morning store =
      (.ok moved, held) := ⟨_, rfl⟩
  obtain ⟨fs', hsave⟩ := saved held
  have hcommand : onFiles (runCommand surroundings move) files = (.ok (statusText .text moved .received), fs') := by
    unfold runCommand move
    dsimp only
    rw [onFiles_bind, hconfig]
    dsimp only
    unfold runStatus
    rw [onFiles_bind, show surroundings.files = Files.system from rfl, onFiles_loadStore_stored, stored_files]
    dsimp only
    rw [hget]
    dsimp only
    rw [show surroundings.date = Payment.morning from rfl, hrun]
    dsimp only
    rw [if_pos (by decide), onFiles_bind, hsave]
    rfl
  refine ⟨fs', ?_⟩
  rw [run_eq hversion parse?_words, hcommand]
  have htold : statusText .text moved .received = told := rfl
  rw [htold]
  rfl

/-- No status that was kept is told of in these words. -/
theorem changed_of_tells {changed : Bool} (h : Tells .text move.command changed told) : changed = true := by
  generalize htext : told = text at h
  unfold move at h
  cases h with
  | @shifted _ _ _ previous i =>
    by_cases hsame : previous = i.status
    · have hsuffix : (": already " ++ i.status.name ++ "\n").toList <:+ told.toList := by
        refine ⟨i.key.toList, ?_⟩
        rw [htext, hsame]
        simp [statusText, line]
      have hnone : ∀ s : Status, ¬(": already " ++ s.name ++ "\n").toList <:+ told.toList := by
        intro s
        cases s <;> decide
      exact absurd hsuffix (hnone _)
    · exact decide_eq_true hsame

theorem edited_of_edits {is edited : List Intent} (hloads : Loads files "s.json" is)
    (h : Edits Payment.morning Uuid.dns files move.command is edited) : edited = [moved, bill] := by
  obtain rfl : is = [Payment.intent, bill] := by
    rcases hloads with ⟨text, hread, htext⟩ | ⟨hthere, -⟩
    · obtain rfl : storeText store = text := Except.ok.inj (read_files.symm.trans hread)
      exact Option.some.inj (htext.symm.trans intentsOfText?_store)
    · cases hthere
  generalize his : [Payment.intent, bill] = is at h
  unfold move at h
  cases h with
  | @moved _ _ _ i next before after hkey ht hne =>
    cases before with
    | nil =>
      cases his
      cases ht
      rfl
    | cons j before =>
      cases before with
      | nil =>
        cases his
        exact absurd hkey (by decide)
      | cons k before => simp at his

end Shop

open Shop in
/-- A payment is moved on, and the bill beside it is kept. Nothing happens to a file that is not a text, or if the
arguments make no call. -/
theorem run_atomic_shop :
    ((run surroundings "no document" words).run files).2.read "s.json" =
        .ok (String.ofList ((Json.array [moved.toJson, bill.toJson]).pretty ++ ['\n'])) ∧
      ((run surroundings "no document" words).run torn).2.bytes "s.json" = .ok ⟨#[255]⟩ ∧
      ((run surroundings "no document" ["status", "--store"]).run files).2 = files := by
  have hversion : asksForVersion words = false := rfl
  refine ⟨?_, ?_, ?_⟩
  · obtain ⟨fs', hrun⟩ := ended
    obtain ⟨changed, text, htext, htold, -, hchanged⟩ := ((run_atomic hversion hrun).2 _ _ parse?_words rfl).2 rfl
    obtain rfl : told = text := htold
    obtain ⟨is, edited, listed, hloads, -, hedits, hperm, hpairwise, -, text, rfl, hread, -⟩ :=
      hchanged (changed_of_tells htext)
    obtain rfl := edited_of_edits hloads hedits
    obtain rfl : listed = [moved, bill] := eq_of_before hperm hpairwise (pairwise_bill rfl rfl)
    rw [hrun]
    exact hread
  · have hcode : ((run surroundings "no document" words).run torn).1.exitCode = 1 := by decide +kernel
    rcases hrun : (run surroundings "no document" words).run torn with ⟨ending, fs'⟩
    rw [hrun] at hcode
    have hfailed : ending.exitCode ≠ 0 := by
      rw [show ending.exitCode = 1 from hcode]
      decide
    exact (((run_atomic hversion hrun).2 _ _ parse?_words rfl).1 hfailed _).2 rfl
  · have hversion : asksForVersion ["status", "--store"] = false := rfl
    have hparse : Call.parse? ["status", "--store"] = none := by decide +kernel
    rcases hrun : (run surroundings "no document" ["status", "--store"]).run files with ⟨ending, fs'⟩
    exact ((run_atomic hversion hrun).1 hparse).2

end IntentCorrection.CommandLine
