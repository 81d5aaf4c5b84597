import IntentCorrection.CommandLine.StoreFile
import IntentCorrection.Proofs.CommandLine.Paths

namespace IntentCorrection

variable {name path directory : List Char}

theorem stem_ne_nil (hne : name ≠ []) : stem name ≠ [] := by
  unfold stem
  dsimp only
  split
  · exact hne
  · rename_i hbefore
    simpa using hbefore

theorem stem_subset : stem name ⊆ name := by
  intro c h
  unfold stem at h
  dsimp only at h
  split at h
  · exact h
  · rw [List.mem_reverse] at h
    have hsuffix := List.dropWhile_suffix (· ≠ '.') |>.subset (List.mem_of_mem_drop h)
    exact List.mem_reverse.1 hsuffix

theorem length_stem_le (name : List Char) : (stem name).length ≤ name.length := by
  unfold stem
  dsimp only
  split
  · exact Nat.le_refl _
  · have hlength := (List.dropWhile_suffix (l := name.reverse) (· ≠ '.')).length_le
    simp only [List.length_reverse, List.length_drop] at hlength ⊢
    omega

theorem stem_append {ending : List Char} (hne : name ≠ []) (hdot : '.' ∉ ending) : stem (name ++ '.' :: ending) = name := by
  have hmem : ∀ c ∈ ending.reverse, decide (c ≠ '.') = true := by
    intro c hc
    refine decide_eq_true fun he ↦ hdot ?_
    rw [← he]
    exact List.mem_reverse.1 hc
  have hbefore : ((name ++ '.' :: ending).reverse.dropWhile (· ≠ '.')).drop 1 = name.reverse := by
    rw [List.reverse_append, List.reverse_cons, List.append_assoc, List.dropWhile_append_of_pos hmem]
    simp
  unfold stem
  dsimp only
  rw [hbefore, List.reverse_reverse, if_neg (by simpa using hne)]

/-- No name is its own draft: in the draft the part behind the last dot stands for one more. -/
theorem draft_ne (name : List Char) :
    stem (name.take (name.length - extensionLength name)) ++ '.' :: "json.tmp".toList ≠ name := by
  intro h
  generalize hu : stem (name.take (name.length - extensionLength name)) = u at h
  have hsplit : name = (u ++ ".json".toList) ++ '.' :: "tmp".toList := by rw [← h]; simp
  have hstem : stem name = u ++ ".json".toList := by
    rw [hsplit]
    exact stem_append (by simp) (by decide)
  have hlength : name.length - extensionLength name = u.length + 6 := by
    unfold extensionLength
    rw [hstem, hsplit]
    simp
  have hcut : name.take (name.length - extensionLength name) = (u ++ ".json".toList) ++ '.' :: [] := by
    rw [hlength, hsplit, List.take_append, List.take_of_length_le (by simp)]
    simp
  rw [hcut, stem_append (by simp) List.not_mem_nil] at hu
  simpa using congrArg List.length hu

theorem dropIdle_eq_self (hne : name ≠ []) (hname : '/' ∉ name) (hhere : name ≠ here) (cs : List Char) :
    dropIdle (name.reverse ++ cs) = name.reverse ++ cs := by
  have hmem : ∀ c ∈ name.reverse, c ≠ '/' := fun c hc he ↦ hname (he ▸ List.mem_reverse.1 hc)
  have hne' : name.reverse ≠ [] := by simpa using hne
  have hdot : name.reverse ≠ ['.'] := fun h ↦ hhere (List.reverse_eq_iff.1 h)
  generalize name.reverse = rs at hmem hne' hdot
  match rs with
  | [] => exact absurd rfl hne'
  | [c] =>
    have hc := hmem c List.mem_cons_self
    have hc' : c ≠ '.' := fun h ↦ hdot (by rw [h])
    unfold dropIdle
    split <;> simp_all
  | c :: c' :: rs =>
    have hc := hmem c List.mem_cons_self
    have hc' := hmem c' (List.mem_cons_of_mem _ List.mem_cons_self)
    unfold dropIdle
    split <;> simp_all

namespace Splits

theorem lastName_eq (h : Splits path directory name) (hhere : name ≠ here) : lastName path = (directory, name) := by
  have hmem : ∀ c ∈ name.reverse, decide (c ≠ '/') = true := by
    intro c hc
    refine decide_eq_true fun he ↦ h.name ?_
    rw [← he]
    exact List.mem_reverse.1 hc
  have hdirectory : directory.reverse.takeWhile (· ≠ '/') = [] ∧
      directory.reverse.dropWhile (· ≠ '/') = directory.reverse := by
    rcases h.directory with rfl | ⟨cs, rfl⟩ <;> simp
  unfold lastName
  dsimp only
  rw [h.eq, List.reverse_append, dropIdle_eq_self h.ne_nil h.name hhere, List.takeWhile_append_of_pos hmem,
    List.dropWhile_append_of_pos hmem, hdirectory.1, hdirectory.2, List.reverse_reverse, List.append_nil,
    List.reverse_reverse]

theorem take {n : Nat} (h : Splits path directory name) (hn : directory.length < n) :
    Splits (path.take n) directory (name.take (n - directory.length)) where
  eq := by
    rw [h.eq, List.take_append, List.take_of_length_le (Nat.le_of_lt hn)]
  directory := h.directory
  ne_nil := by
    rw [Ne, List.take_eq_nil_iff, not_or]
    exact ⟨by omega, h.ne_nil⟩
  name hmem := h.name (List.mem_of_mem_take hmem)

/-- A path ends in a name of dots after a change of extension, or in what was left of its name and the extension. -/
theorem setExtension_eq (h : Splits path directory name) (hhere : name ≠ here) (extension : List Char) :
    setExtension path extension = if name = up then path else directory ++ (stem name ++ '.' :: extension) := by
  unfold setExtension
  rw [h.lastName_eq hhere]
  simp only [h.ne_nil, hhere, false_or, List.append_assoc]

end Splits

theorem extensionLength_lt (hne : name ≠ []) : extensionLength name < name.length := by
  have hstem := List.length_pos_iff.2 (stem_ne_nil hne)
  have hlength := List.length_pos_iff.2 hne
  unfold extensionLength
  omega

theorem take_ne_here (hhere : name ≠ here) (hne : name ≠ []) :
    name.take (name.length - extensionLength name) ≠ here := by
  intro h
  have hstem := List.length_pos_iff.2 (stem_ne_nil hne)
  have hlength := congrArg List.length h
  rw [List.length_take, show here.length = 1 from rfl] at hlength
  have hle := length_stem_le name
  unfold extensionLength at h hlength
  have hall : name.length - (name.length - (stem name).length - 1) = name.length := by omega
  rw [hall, List.take_length] at h
  exact hhere h

/-- A path with another extension stays in its directory; there it leads up or to a name with that extension. -/
theorem splits_withExtension {path : String} (h : Splits path.toList directory name) (hhere : name ≠ here)
    {extension : String} (hextension : '/' ∉ extension.toList) :
    ∃ name', Splits (withExtension path extension).toList directory name' ∧
      (name' = up ∨ name' = stem (name.take (name.length - extensionLength name)) ++ '.' :: extension.toList) := by
  have hlt := extensionLength_lt h.ne_nil
  have hlength : path.toList.length = directory.length + name.length := by rw [h.eq, List.length_append]
  have hname : (lastName path.toList).2 = name := by rw [h.lastName_eq hhere]
  have hleft : path.toList.length - extensionLength name - directory.length = name.length - extensionLength name := by
    omega
  -- What is cut off first is shorter than the name, so the directory part is left whole.
  have hcut : Splits (path.toList.take (path.toList.length - extensionLength name)) directory
      (name.take (name.length - extensionLength name)) := by
    rw [← hleft]
    exact h.take (by omega)
  have hpath := hcut.setExtension_eq (take_ne_here hhere h.ne_nil) extension.toList
  unfold withExtension
  rw [String.toList_ofList, hname, hpath]
  split
  · rename_i hup
    rw [hup] at hcut
    exact ⟨up, hcut, .inl rfl⟩
  · refine ⟨_, ⟨rfl, h.directory, ?_, ?_⟩, .inr rfl⟩
    · exact List.append_ne_nil_of_right_ne_nil _ (List.cons_ne_nil _ _)
    · intro hmem
      rcases List.mem_append.1 hmem with hmem | hmem
      · exact hcut.name (stem_subset hmem)
      · rcases List.mem_cons.1 hmem with hmem | hmem
        · exact absurd hmem (by decide)
        · exact hextension hmem

theorem Place.text_inj {p q : Place} (hp : p.Clean) (hq : q.Clean) (hne : p ≠ []) (hne' : q ≠ [])
    (h : p.text = q.text) : p = q := by
  rw [← splitPath_text hp hne, h, splitPath_text hq hne']

namespace Files

variable {fs fs' : Files} {path target text : String} {content : ByteArray} {p q d : Place}

theorem fromUTF8?_toUTF8 (s : String) : String.fromUTF8? s.toUTF8 = some s :=
  dif_pos s.isValidUTF8

theorem read_ok :
    fs.read path = .ok text ↔ ∃ content, fs.bytes path = .ok content ∧ String.fromUTF8? content = some text := by
  unfold read
  cases fs.bytes path with
  | error e => simp [bind, Except.bind]
  | ok content =>
    cases hdecoded : String.fromUTF8? content <;>
      simp [hdecoded, bind, Except.bind, throw, throwThe, MonadExceptOf.throw, pure, Except.pure]

theorem bytes_ok : fs.bytes path = .ok content ↔
    ∃ p, fs.locate path = .ok p ∧ fs.isDirectory p = false ∧ fs.file? p = some content ∧
      endsInSeparator path = false := by
  unfold bytes
  cases fs.locate path with
  | error e => simp [bind, Except.bind]
  | ok p =>
    change (if fs.isDirectory p then _ else _) = _ ↔ _
    cases hdirectory : fs.isDirectory p <;> cases hfile : fs.file? p <;> cases hend : endsInSeparator path <;>
      simp [hdirectory, hfile, throw, throwThe, MonadExceptOf.throw, pure, Except.pure]

theorem write_ok (h : fs.write path text = .ok fs') :
    ∃ p, fs.locate path = .ok p ∧ endsInSeparator path = false ∧ fs.isDirectory p = false ∧
      fs' = fs.insert p.text text.toUTF8 := by
  unfold write at h
  cases hlocate : fs.locate path with
  | error e =>
    rw [hlocate] at h
    cases h
  | ok p =>
    rw [hlocate] at h
    change (if endsInSeparator path || fs.isDirectory p then _ else _) = _ at h
    split at h
    · cases h
    · rename_i hcondition
      rw [Bool.not_eq_true, Bool.or_eq_false_iff] at hcondition
      cases h
      exact ⟨p, rfl, hcondition.1, hcondition.2, rfl⟩

theorem rename_ok (h : fs.rename path target = .ok fs') :
    ∃ p content q, fs.locate path = .ok p ∧ fs.bytes path = .ok content ∧ fs.locate target = .ok q ∧
      endsInSeparator target = false ∧ fs.isDirectory q = false ∧ fs' = (fs.erase p.text).insert q.text content := by
  unfold rename at h
  cases hlocate : fs.locate path with
  | error e =>
    rw [hlocate] at h
    cases h
  | ok p =>
    cases hread : fs.bytes path with
    | error e =>
      rw [hlocate, hread] at h
      cases h
    | ok content =>
      cases htarget : fs.locate target with
      | error e =>
        rw [hlocate, hread, htarget] at h
        cases h
      | ok q =>
        rw [hlocate, hread, htarget] at h
        change (if endsInSeparator target then _ else if fs.isDirectory q then _ else _) = _ at h
        split at h
        · cases h
        · split at h
          · cases h
          · rename_i hend hdirectory
            cases h
            exact ⟨p, content, q, rfl, rfl, rfl, by simpa using hend, by simpa using hdirectory, rfl⟩

theorem write_of_locate (hlocate : fs.locate path = .ok p) (hend : endsInSeparator path = false)
    (hp : fs.isDirectory p = false) (text : String) : fs.write path text = .ok (fs.insert p.text text.toUTF8) := by
  unfold write
  rw [hlocate]
  simp [bind, Except.bind, hend, hp, pure, Except.pure]

theorem rename_of_locate (hlocate : fs.locate path = .ok p) (hbytes : fs.bytes path = .ok content)
    (htarget : fs.locate target = .ok q) (hend : endsInSeparator target = false) (hq : fs.isDirectory q = false) :
    fs.rename path target = .ok ((fs.erase p.text).insert q.text content) := by
  unfold rename
  rw [hlocate, hbytes, htarget]
  simp [bind, Except.bind, hend, hq, pure, Except.pure]

theorem keepsDirectories_of_keys (hkeys : ∀ name, fs.contains name = true → fs'.contains name = true) :
    fs.KeepsDirectories fs' := by
  intro p h
  rw [isDirectory_iff] at h ⊢
  obtain hall | hroot | hsystem | ⟨name, hname, hprefix⟩ := h
  · exact .inl hall
  · exact .inr (.inl hroot)
  · exact .inr (.inr (.inl hsystem))
  · exact .inr (.inr (.inr ⟨name, hkeys name hname, hprefix⟩))

/-- A file is not a directory because of itself. -/
theorem isDirectory_anti (hkeys : ∀ name, fs'.contains name = true → name = p.text ∨ fs.contains name = true)
    (h : fs.isDirectory p = false) : fs'.isDirectory p = false := by
  rw [← Bool.not_eq_true] at h ⊢
  intro h'
  rw [isDirectory_iff] at h h'
  obtain hall | hroot | hsystem | ⟨name, hname, hprefix, hne⟩ := h'
  · exact h (.inl hall)
  · exact h (.inr (.inl hroot))
  · exact h (.inr (.inr (.inl hsystem)))
  · rcases hkeys name hname with rfl | hname
    · exact hne rfl
    · exact h (.inr (.inr (.inr ⟨name, hname, hprefix, hne⟩)))

theorem contains_moved {source target k : String} :
    ((fs.erase source).insert target content).contains k = true ↔ k = target ∨ fs.contains k = true ∧ k ≠ source := by
  rw [Entries.contains_insert, Entries.contains, Entries.get?_erase]
  split <;> simp_all [Entries.contains]

theorem keepsDirectories_moved {name name' : List Char} (hd : d.Clean) (hname : '/' ∉ name) (hname' : '/' ∉ name') :
    fs.KeepsDirectories
      ((fs.erase (Place.text (d ++ [name]))).insert (Place.text (d ++ [name'])) content) := by
  intro p h
  have hmem {piece : List Char} : d ++ [piece] ≠ [] := List.append_ne_nil_of_right_ne_nil _ (List.cons_ne_nil _ _)
  rw [isDirectory_iff] at h
  obtain hall | hroot | hsystem | ⟨file, hfile, hprefix, hne⟩ := h
  · exact isDirectory_iff.2 (.inl hall)
  · exact isDirectory_iff.2 (.inr (.inl hroot))
  · exact isDirectory_iff.2 (.inr (.inr (.inl hsystem)))
  · by_cases hsource : file = Place.text (d ++ [name])
    · rw [hsource, Place.splitPath_text (hd.append hname) hmem] at hprefix
      -- What the file was in is its own directory or above, and the new name is in the same one.
      have hinside : p <+: d := by
        rcases List.prefix_concat_iff.1 hprefix with hp | hp
        · rw [hsource, hp] at hne
          exact absurd rfl hne
        · exact hp
      have hclean : p.Clean := fun piece hpiece ↦ hd piece (hinside.subset hpiece)
      refine isDirectory_iff.2 ?_
      by_cases hp : p = []
      · subst hp
        exact .inl nofun
      · refine .inr (.inr (.inr ⟨_, contains_moved.2 (.inl rfl), ?_, ?_⟩))
        · rw [Place.splitPath_text (hd.append hname') hmem]
          exact hinside.trans (List.prefix_append _ _)
        · intro htext
          have hlength := hinside.length_le
          rw [← Place.text_inj (hd.append hname') hclean hmem hp htext, List.length_append] at hlength
          exact absurd hlength (Nat.not_succ_le_self _)
    · exact isDirectory_iff.2 (.inr (.inr (.inr ⟨file, contains_moved.2 (.inr ⟨hfile, hsource⟩), hprefix, hne⟩)))

theorem place_of_locate {directory name : List Char} (hs : Splits path.toList directory name)
    (hlocate : fs.locate path = .ok p) (hp : fs.isDirectory p = false) :
    name ≠ here ∧ name ≠ up ∧ ∃ d, fs.directory directory = .ok d ∧ p = d ++ [name] := by
  obtain ⟨d, hd, hfollow⟩ := follow_of_locate hs hlocate
  have hreal : ¬(name = here ∨ name = up) := fun hdots ↦ by
    rw [isDirectory_follow (clean_directory hd) hdots hfollow] at hp
    cases hp
  rw [not_or] at hreal
  obtain ⟨-, ⟨hdot, -⟩ | ⟨hdots, -⟩ | ⟨-, -, hq⟩⟩ := follow_cases hfollow
  · exact absurd hdot hreal.1
  · exact absurd hdots hreal.2
  · exact ⟨hreal.1, hreal.2, d, hd, hq⟩

/-- What a path leads to did not change if something else could be reached in its directory before. -/
theorem locate_sibling {path' : String} {directory name name' : List Char} (hkept : fs.KeepsDirectories fs')
    (hs : Splits path.toList directory name) (hs' : Splits path'.toList directory name')
    (hp : fs.locate path' = .ok p) (hq : fs'.locate path = .ok q) : fs.locate path = .ok q := by
  obtain ⟨d, hd, hfollow⟩ := follow_of_locate hs' hp
  have hinside := (follow_cases hfollow).1
  have hd' : fs'.directory directory = .ok d := hkept.foldlM_follow hd
  rw [locate_eq hs, hd'] at hq
  rw [locate_eq hs, hd, Except.bind, follow_congr hinside (hkept _ hinside)]
  exact hq

theorem text_ne_emptyFile {before : List Char} (hd : d.Clean) (hname : '/' ∉ before ++ '.' :: "json.tmp".toList) :
    Place.text (d ++ [before ++ '.' :: "json.tmp".toList]) ≠ emptyFile := by
  intro h
  have hpieces := Place.splitPath_text (hd.append hname) (List.append_ne_nil_of_right_ne_nil _ (List.cons_ne_nil _ _))
  rw [h] at hpieces
  have hlast : (splitPath emptyFile.toList).getLast? = some ['n', 'u', 'l', 'l'] := by decide
  rw [hpieces, List.getLast?_concat, Option.some.injEq] at hlast
  have hend := congrArg List.getLast? hlast
  rw [List.getLast?_append] at hend
  cases hend

theorem insert_sibling {name name' : List Char} (hd : d.Clean) (hname : '/' ∉ name) (hname' : '/' ∉ name')
    (hne : name' ≠ name) (fs : Files) (content : ByteArray) :
    file? (fs.insert (Place.text (d ++ [name'])) content) (d ++ [name]) = fs.file? (d ++ [name]) ∧
      (fs.isDirectory (d ++ [name]) = false →
        isDirectory (fs.insert (Place.text (d ++ [name'])) content) (d ++ [name]) = false) := by
  have hmem {piece : List Char} : d ++ [piece] ≠ [] := List.append_ne_nil_of_right_ne_nil _ (List.cons_ne_nil _ _)
  have htext : Place.text (d ++ [name]) ≠ Place.text (d ++ [name']) := fun h ↦ hne <| by
    simpa using (Place.text_inj (hd.append hname) (hd.append hname') hmem hmem h).symm
  refine ⟨by rw [file?, file?, Entries.get?_insert, if_neg htext], fun hdir ↦ ?_⟩
  rw [← Bool.not_eq_true] at hdir ⊢
  intro hdir'
  rw [isDirectory_iff] at hdir hdir'
  obtain hall | hroot | hsystem | ⟨file, hfile, hinside, hnot⟩ := hdir'
  · exact hdir (.inl hall)
  · exact hdir (.inr (.inl hroot))
  · exact hdir (.inr (.inr (.inl hsystem)))
  · rcases Entries.contains_insert.1 hfile with rfl | hfile
    · rw [Place.splitPath_text (hd.append hname') hmem] at hinside
      have hsame := hinside.eq_of_length (by simp)
      exact hne (by simpa using hsame.symm)
    · exact hdir (.inr (.inr (.inr ⟨file, hfile, hinside, hnot⟩)))

theorem bytes_drafted (hwrite : fs.write (CommandLine.draftPath path) text = .ok fs') (old : ByteArray) :
    fs'.bytes path = .ok old ↔ fs.bytes path = .ok old := by
  obtain ⟨p, hp, -, hpdir, rfl⟩ := write_ok hwrite
  have hkept : fs.KeepsDirectories (fs.insert p.text text.toUTF8) :=
    keepsDirectories_of_keys fun name hname ↦ Entries.contains_insert.2 (.inr hname)
  -- The draft and the file are two names in one directory, before and after.
  have hplaces {fs₁ : Files} {q : Place} (hfs₁ : fs.KeepsDirectories fs₁) (hend : endsInSeparator path = false)
      (hq : fs₁.locate path = .ok q) (hqdir : fs₁.isDirectory q = false) :
      fs.locate path = .ok q ∧ ∃ (d : Place) (name name' : List Char), d.Clean ∧ '/' ∉ name ∧ '/' ∉ name' ∧
        name' ≠ name ∧ q = d ++ [name] ∧ p = d ++ [name'] := by
    obtain ⟨directory, name, hs⟩ := exists_splits (ne_empty_of_locate hq) hend
    obtain ⟨hhere, -, d, hd, rfl⟩ := place_of_locate hs hq hqdir
    have hextension : '/' ∉ "json.tmp".toList := by decide
    obtain ⟨name', hs', hname'⟩ := splits_withExtension hs hhere hextension
    obtain ⟨-, hup, d', hd', rfl⟩ := place_of_locate hs' hp hpdir
    obtain rfl : d' = d := Except.ok.inj ((hfs₁.foldlM_follow hd').symm.trans hd)
    refine ⟨locate_sibling hfs₁ hs hs' hp hq, d', name, name', clean_directory hd', hs.name, hs'.name, ?_, rfl, rfl⟩
    rw [hname'.resolve_left hup]
    exact draft_ne name
  constructor
  · intro hread
    obtain ⟨q, hq, hqdir, hfile, hend⟩ := bytes_ok.1 hread
    obtain ⟨hq', d, name, name', hd, hname, hname', hne, rfl, rfl⟩ := hplaces hkept hend hq hqdir
    rw [(insert_sibling hd hname hname' hne fs text.toUTF8).1] at hfile
    refine bytes_ok.2 ⟨_, hq', ?_, hfile, hend⟩
    rw [← Bool.not_eq_true] at hqdir ⊢
    exact mt (hkept _) hqdir
  · intro hread
    obtain ⟨q, hq, hqdir, hfile, hend⟩ := bytes_ok.1 hread
    obtain ⟨-, d, name, name', hd, hname, hname', hne, rfl, rfl⟩ := hplaces (fun _ h ↦ h) hend hq hqdir
    obtain ⟨hsame, hdirectory⟩ := insert_sibling hd hname hname' hne fs text.toUTF8
    exact bytes_ok.2 ⟨_, hkept.locate hq, hdirectory hqdir, hsame ▸ hfile, hend⟩

/-- What is written to the draft and then moved is read at the path. -/
theorem read_moved {fs₁ fs₂ : Files} (hwrite : fs.write (CommandLine.draftPath path) text = .ok fs₁)
    (hrename : fs₁.rename (CommandLine.draftPath path) path = .ok fs₂)
    (hempty : ∀ q, fs.locate path = .ok q → q.text ≠ emptyFile) : fs₂.read path = .ok text := by
  obtain ⟨p, hp, -, hpdir, rfl⟩ := write_ok hwrite
  obtain ⟨p', content, q, hp', hread, hq, hqend, hqdir, rfl⟩ := rename_ok hrename
  have hkept : fs.KeepsDirectories (fs.insert p.text text.toUTF8) :=
    keepsDirectories_of_keys fun name hname ↦ Entries.contains_insert.2 (.inr hname)
  obtain ⟨directory, name, hs⟩ := exists_splits (ne_empty_of_locate hq) hqend
  obtain ⟨hhere, -, d, hd, rfl⟩ := place_of_locate hs hq hqdir
  have hextension : '/' ∉ "json.tmp".toList := by decide
  obtain ⟨name', hs', hname'⟩ := splits_withExtension hs hhere hextension
  obtain ⟨-, hup, d', hd', rfl⟩ := place_of_locate hs' hp hpdir
  obtain ⟨before, rfl⟩ : ∃ before, name' = before ++ '.' :: "json.tmp".toList := ⟨_, hname'.resolve_left hup⟩
  -- Both names are followed from one directory, and it is there before and after.
  obtain rfl : d' = d := Except.ok.inj ((hkept.foldlM_follow hd').symm.trans hd)
  have hclean := clean_directory hd'
  have hdraft := text_ne_emptyFile hclean hs'.name
  obtain rfl : p' = d' ++ [before ++ '.' :: "json.tmp".toList] :=
    Except.ok.inj (hp'.symm.trans (hkept.locate hp))
  have hcontent : content = text.toUTF8 := by
    obtain ⟨r, hr, -, hfile, -⟩ := bytes_ok.1 hread
    obtain rfl : r = d' ++ [before ++ '.' :: "json.tmp".toList] := Except.ok.inj (hr.symm.trans hp')
    rw [file?, if_neg hdraft, Entries.get?_insert, if_pos rfl] at hfile
    exact (Option.some.inj hfile).symm
  have hbefore := locate_sibling hkept hs hs' hp hq
  refine read_ok.2 ⟨text.toUTF8, ?_, fromUTF8?_toUTF8 text⟩
  refine bytes_ok.2 ⟨d' ++ [name], KeepsDirectories.locate ?_ hq, isDirectory_anti (fun k hk ↦ ?_) hqdir, ?_, hqend⟩
  · exact keepsDirectories_moved hclean hs'.name hs.name
  · exact (contains_moved.1 hk).imp_right And.left
  · rw [file?, if_neg (hempty _ hbefore), Entries.get?_insert, if_pos rfl, hcontent]

end Files

end IntentCorrection
