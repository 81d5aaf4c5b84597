import IntentCorrection.CommandLine.Files
import IntentCorrection.Proofs.Entries
import IntentCorrection.Proofs.Text.Escaped

namespace IntentCorrection

variable {cs ds : List Char}

theorem splitPath_ne_nil (cs : List Char) : splitPath cs ≠ [] := by
  fun_cases splitPath cs <;> simp_all

theorem splitPath_cons {c : Char} (h : c ≠ '/') {p : List Char} {ps : List (List Char)}
    (hp : splitPath cs = p :: ps) :
    splitPath (c :: cs) = (c :: p) :: ps := by
  rw [splitPath, hp]
  exact if_neg h

theorem splitPath_slash (cs : List Char) : splitPath ('/' :: cs) = [] :: splitPath cs := by
  obtain ⟨p, ps, hp⟩ := List.exists_cons_of_ne_nil (splitPath_ne_nil cs)
  rw [splitPath, hp]
  rfl

theorem splitPath_append (cs ds : List Char) : splitPath (cs ++ '/' :: ds) = splitPath cs ++ splitPath ds := by
  induction cs with
  | nil => exact splitPath_slash ds
  | cons c cs ih =>
    by_cases h : c = '/'
    · subst h
      rw [List.cons_append, splitPath_slash, ih, splitPath_slash]
      rfl
    · obtain ⟨p, ps, hp⟩ := List.exists_cons_of_ne_nil (splitPath_ne_nil cs)
      rw [hp] at ih
      rw [List.cons_append, splitPath_cons h ih, splitPath_cons h hp]
      rfl

theorem splitPath_of_notMem (h : '/' ∉ cs) : splitPath cs = [cs] := by
  induction cs with
  | nil => rfl
  | cons c cs ih =>
    obtain ⟨hc, hcs⟩ : '/' ≠ c ∧ '/' ∉ cs := by simpa using h
    exact splitPath_cons (Ne.symm hc) (ih hcs)

theorem notMem_of_mem_splitPath {piece : List Char} (h : piece ∈ splitPath cs) : '/' ∉ piece := by
  induction cs generalizing piece with
  | nil =>
    rw [List.mem_singleton.1 h]
    exact List.not_mem_nil
  | cons c cs ih =>
    obtain ⟨p, ps, hp⟩ := List.exists_cons_of_ne_nil (splitPath_ne_nil cs)
    by_cases hc : c = '/'
    · subst hc
      rw [splitPath_slash] at h
      rcases List.mem_cons.1 h with rfl | h
      · exact List.not_mem_nil
      · exact ih h
    · rw [splitPath_cons hc hp] at h
      rw [hp] at ih
      rcases List.mem_cons.1 h with rfl | h
      · exact List.not_mem_cons_of_ne_of_not_mem (Ne.symm hc) (ih List.mem_cons_self)
      · exact ih (List.mem_cons_of_mem _ h)

namespace Place

def Clean (p : Place) : Prop := ∀ piece ∈ p, '/' ∉ piece

variable {p q : Place}

theorem splitPath_text (hp : p.Clean) (hne : p ≠ []) : splitPath p.text.toList = p := by
  rw [text, String.toList_ofList]
  induction p with
  | nil => exact absurd rfl hne
  | cons piece p ih =>
    obtain ⟨hpiece, hclean⟩ := List.forall_mem_cons.1 hp
    cases p with
    | nil => exact splitPath_of_notMem hpiece
    | cons piece' p =>
      have hrest := ih hclean (List.cons_ne_nil _ _)
      rw [Text.joined, List.append_assoc, List.singleton_append, splitPath_append, splitPath_of_notMem hpiece, hrest]
      · rfl
      · exact List.cons_ne_nil _ _

theorem Clean.append {piece : List Char} (hp : p.Clean) (h : '/' ∉ piece) : Clean (p ++ [piece]) := by
  intro other hother
  rcases List.mem_append.1 hother with hother | hother
  · exact hp other hother
  · rwa [List.mem_singleton.1 hother]

theorem Clean.parent (hp : p.Clean) : p.parent.Clean := by
  unfold Place.parent
  split
  · exact fun piece hpiece ↦ by rw [List.mem_singleton.1 hpiece]; exact List.not_mem_nil
  · split
    · exact hp.append (by decide)
    · exact fun piece hpiece ↦ hp piece (List.dropLast_subset p hpiece)

end Place

namespace Files

open Place

variable {fs fs' : Files} {p q : Place} {piece : List Char}

theorem isDirectory_iff : fs.isDirectory p = true ↔
    (∀ piece ∈ p, piece = up) ∨ p = root ∨ p.text ∈ systemDirectories ∨
      ∃ name, fs.contains name = true ∧ p <+: splitPath name.toList ∧ name ≠ p.text := by
  have hfiles : (fs.any fun f ↦ p.isPrefixOf (splitPath f.1.toList) && f.1 ≠ p.text) = true ↔
      ∃ name, fs.contains name = true ∧ p <+: splitPath name.toList ∧ name ≠ p.text := by
    simp only [List.any_eq_true, Bool.and_eq_true, List.isPrefixOf_iff_prefix, decide_eq_true_eq]
    constructor
    · rintro ⟨⟨name, text⟩, hmem, hf⟩
      exact ⟨name, Entries.contains_iff.2 ⟨text, hmem⟩, hf⟩
    · rintro ⟨name, hname, hf⟩
      obtain ⟨text, hmem⟩ := Entries.contains_iff.1 hname
      exact ⟨(name, text), hmem, hf⟩
  rw [← hfiles]
  simp only [isDirectory, Bool.or_eq_true, List.all_eq_true, decide_eq_true_eq, List.contains_iff_mem, or_assoc]

theorem isDirectory_parent (hp : p.Clean) (h : fs.isDirectory p = true) : fs.isDirectory p.parent = true := by
  unfold Place.parent
  split
  · exact isDirectory_iff.2 (.inr (.inl rfl))
  · rename_i hroot
    split
    · rename_i hup
      refine isDirectory_iff.2 (.inl fun piece hpiece ↦ ?_)
      rcases List.mem_append.1 hpiece with hpiece | hpiece
      · simpa using List.all_eq_true.1 hup piece hpiece
      · exact List.mem_singleton.1 hpiece
    · rename_i hup
      have hne : p ≠ [] := by
        rintro rfl
        exact hup rfl
      rcases isDirectory_iff.1 h with hall | hall | hsystem | ⟨f, hf, hprefix, -⟩
      · exact absurd (List.all_eq_true.2 fun piece hpiece ↦ by simpa using hall piece hpiece) hup
      · exact absurd hall hroot
      · have hroots : ∀ d ∈ systemDirectories, (splitPath d.toList).dropLast = root := by decide
        have hparent := hroots _ hsystem
        rw [splitPath_text hp hne] at hparent
        exact isDirectory_iff.2 (.inr (.inl hparent))
      · by_cases hlast : p.dropLast = []
        · rw [hlast]
          rfl
        · refine isDirectory_iff.2 (.inr (.inr (.inr ⟨f, hf, (List.dropLast_prefix p).trans hprefix, ?_⟩)))
          intro htext
          have hclean : Clean p.dropLast := fun piece hpiece ↦ hp piece (List.dropLast_subset p hpiece)
          rw [htext, splitPath_text hclean hlast] at hprefix
          have hlength := hprefix.length_le
          rw [List.length_dropLast] at hlength
          have := List.length_pos_iff.2 hne
          omega

theorem follow_cases (h : fs.follow p piece = .ok q) :
    fs.isDirectory p = true ∧
      (piece = here ∧ q = p ∨ piece = up ∧ q = p.parent ∨ piece ≠ here ∧ piece ≠ up ∧ q = p ++ [piece]) := by
  unfold follow at h
  split at h
  · cases h
  · rename_i hdirectory
    refine ⟨by simpa using hdirectory, ?_⟩
    split at h
    · cases h
      exact .inl ⟨by assumption, rfl⟩
    · split at h
      · cases h
        exact .inr (.inl ⟨by assumption, rfl⟩)
      · split at h
        · cases h
        · cases h
          exact .inr (.inr ⟨by assumption, by assumption, rfl⟩)

theorem clean_follow (hp : p.Clean) (hpiece : '/' ∉ piece) (h : fs.follow p piece = .ok q) : q.Clean := by
  obtain ⟨-, ⟨-, rfl⟩ | ⟨-, rfl⟩ | ⟨-, -, rfl⟩⟩ := follow_cases h
  · exact hp
  · exact hp.parent
  · exact hp.append hpiece

theorem isDirectory_follow (hp : p.Clean) (hdots : piece = here ∨ piece = up) (h : fs.follow p piece = .ok q) :
    fs.isDirectory q = true := by
  obtain ⟨hdirectory, ⟨-, rfl⟩ | ⟨-, rfl⟩ | ⟨hhere, hup, -⟩⟩ := follow_cases h
  · exact hdirectory
  · exact isDirectory_parent hp hdirectory
  · rcases hdots with hdots | hdots
    · exact absurd hdots hhere
    · exact absurd hdots hup

theorem follow_congr (h : fs.isDirectory p = true) (h' : fs'.isDirectory p = true) :
    fs.follow p piece = fs'.follow p piece := by
  unfold follow
  rw [h, h']
  rfl

def KeepsDirectories (fs fs' : Files) : Prop := ∀ p, fs.isDirectory p = true → fs'.isDirectory p = true

theorem KeepsDirectories.follow (hkeeps : fs.KeepsDirectories fs') (h : fs.follow p piece = .ok q) :
    fs'.follow p piece = .ok q := by
  have hdirectory := (follow_cases h).1
  rwa [← follow_congr hdirectory (hkeeps p hdirectory)]

theorem KeepsDirectories.foldlM_follow (hkeeps : fs.KeepsDirectories fs')
    {pieces : List (List Char)} (h : pieces.foldlM fs.follow p = .ok q) : pieces.foldlM fs'.follow p = .ok q := by
  induction pieces generalizing p with
  | nil => exact h
  | cons piece pieces ih =>
    rw [List.foldlM_cons] at h ⊢
    cases hfollow : fs.follow p piece with
    | error e =>
      rw [hfollow] at h
      cases h
    | ok p' =>
      rw [hfollow] at h
      rw [hkeeps.follow hfollow]
      exact ih h

theorem ne_empty_of_locate {path : String} (h : fs.locate path = .ok p) : path ≠ "" := by
  rintro rfl
  cases h

theorem KeepsDirectories.locate (hkeeps : fs.KeepsDirectories fs') {path : String} (h : fs.locate path = .ok p) :
    fs'.locate path = .ok p := by
  unfold Files.locate at h ⊢
  split at h
  · cases h
  · split at h
    · cases h
    · rename_i hempty hlong
      rw [if_neg hempty, if_neg hlong]
      exact hkeeps.foldlM_follow h

end Files

structure Splits (path directory name : List Char) : Prop where
  eq : path = directory ++ name
  directory : directory = [] ∨ ∃ cs, directory = cs ++ ['/']
  ne_nil : name ≠ []
  name : '/' ∉ name

theorem exists_splits {path : String} (hne : path ≠ "") (hend : endsInSeparator path = false) :
    ∃ directory name, Splits path.toList directory name := by
  -- The directory part ends with the last separator, or is empty without one.
  have hsplit : ∀ cs : List Char, ∃ directory name, cs = directory ++ name ∧
      (directory = [] ∨ ∃ cs, directory = cs ++ ['/']) ∧ '/' ∉ name := by
    intro cs
    induction cs with
    | nil => exact ⟨[], [], rfl, .inl rfl, List.not_mem_nil⟩
    | cons c cs ih =>
      obtain ⟨directory, name, rfl, hdirectory, hname⟩ := ih
      rcases hdirectory with rfl | ⟨ds, rfl⟩
      · by_cases hc : c = '/'
        · exact ⟨[c], name, rfl, .inr ⟨[], by rw [hc]; rfl⟩, hname⟩
        · refine ⟨[], c :: name, rfl, .inl rfl, ?_⟩
          simpa using ⟨Ne.symm hc, hname⟩
      · exact ⟨c :: (ds ++ ['/']), name, rfl, .inr ⟨c :: ds, rfl⟩, hname⟩
  obtain ⟨directory, name, heq, hdirectory, hname⟩ := hsplit path.toList
  refine ⟨directory, name, heq, hdirectory, ?_, hname⟩
  rintro rfl
  rcases hdirectory with rfl | ⟨ds, rfl⟩
  · exact hne (String.toList_inj.1 heq)
  · simp [endsInSeparator, heq] at hend

namespace Splits

variable {path : String} {directory name : List Char}

theorem pathPieces_eq (h : Splits path.toList directory name) :
    pathPieces path = (splitPath directory).filter (· ≠ []) ++ [name] := by
  have hne := h.ne_nil
  unfold pathPieces
  rw [h.eq]
  rcases h.directory with rfl | ⟨ds, rfl⟩
  · rw [List.nil_append, splitPath_of_notMem h.name]
    simp [splitPath, hne]
  · rw [List.append_assoc, List.singleton_append, splitPath_append, splitPath_append, splitPath_of_notMem h.name]
    simp [splitPath, hne]

theorem start_eq (h : Splits path.toList directory name) :
    Place.start path = if directory.head? = some '/' then root else [] := by
  unfold Place.start
  rw [h.eq]
  rcases h.directory with rfl | ⟨ds, rfl⟩
  · have hhead : name.head? ≠ some '/' := fun hhead ↦ h.name (List.mem_of_head? hhead)
    rw [List.nil_append, if_neg hhead]
    rfl
  · rw [List.head?_append, Option.or_of_isSome (by simp)]

end Splits

def Files.directory (fs : Files) (directory : List Char) : Except FileError Place :=
  ((splitPath directory).filter (· ≠ [])).foldlM fs.follow (if directory.head? = some '/' then root else [])

namespace Files

variable {fs : Files} {path : String} {directory name : List Char} {p d : Place}

theorem clean_directory (h : fs.directory directory = .ok d) : d.Clean := by
  have hfold : ∀ {pieces : List (List Char)} {p : Place}, p.Clean → (∀ piece ∈ pieces, '/' ∉ piece) →
      pieces.foldlM fs.follow p = .ok d → d.Clean := by
    intro pieces
    induction pieces with
    | nil =>
      intro p hp _ h
      cases h
      exact hp
    | cons piece pieces ih =>
      intro p hp hpieces h
      obtain ⟨hpiece, hpieces⟩ := List.forall_mem_cons.1 hpieces
      rw [List.foldlM_cons] at h
      cases hfollow : fs.follow p piece with
      | error e =>
        rw [hfollow] at h
        cases h
      | ok p' =>
        rw [hfollow] at h
        exact ih (clean_follow hp hpiece hfollow) hpieces h
  refine hfold ?_ (fun piece hpiece ↦ notMem_of_mem_splitPath (List.mem_filter.1 hpiece).1) h
  split
  · exact fun piece hpiece ↦ by rw [List.mem_singleton.1 hpiece]; exact List.not_mem_nil
  · exact fun piece hpiece ↦ absurd hpiece List.not_mem_nil

/-- A path leads from the directory that its directory part leads to by its last name. -/
theorem locate_eq (hs : Splits path.toList directory name) : fs.locate path =
    if maxPathLength < path.utf8ByteSize then .error .nameTooLong
    else (fs.directory directory).bind (fs.follow · name) := by
  have hne : ¬path.isEmpty = true := by
    intro h
    have heq := hs.eq
    rw [String.isEmpty_iff.1 h] at heq
    exact hs.ne_nil (List.append_eq_nil_iff.1 heq.symm).2
  have hlast (d : Place) : [name].foldlM fs.follow d = fs.follow d name := by
    rw [List.foldlM_cons]
    cases fs.follow d name <;> rfl
  unfold locate
  rw [if_neg hne, hs.pathPieces_eq, hs.start_eq, List.foldlM_append, ← Files.directory]
  simp only [hlast]
  rfl

theorem follow_of_locate (hs : Splits path.toList directory name) (h : fs.locate path = .ok p) :
    ∃ d, fs.directory directory = .ok d ∧ fs.follow d name = .ok p := by
  rw [locate_eq hs] at h
  split at h
  · cases h
  · cases hdirectory : fs.directory directory with
    | error e =>
      rw [hdirectory] at h
      cases h
    | ok d =>
      rw [hdirectory] at h
      exact ⟨d, rfl, h⟩

end Files

end IntentCorrection
