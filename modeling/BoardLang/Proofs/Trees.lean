import BoardLang.Proofs.CommandLine
import BoardLang.Shell.FileTree

/-!
# Commands on a file tree

A command reads its file by walking along a path, one name after the other. In a tree in memory the walk can
be followed to its end, which says what the outcome of a run is about:

* `task_answers_about_file`: a task that succeeds writes what it has to say about the file of the tree that its
  path leads to, once the dots in the path have been followed.
* `run_addFile`: a file that is added at a free place is the one that a run with its path works on, whatever
  else the tree holds.

The first one rests on what every step of a walk keeps (`Place.At`, `step_at`), the second one on where the
names of a path without dots lead (`walk_addFile`).
-/

namespace BoardLang.Shell

theorem decodeText_eq_ok_iff {content : ByteArray} {source : String} :
    decodeText content = .ok source ↔ String.fromUTF8? content = some source := by
  unfold decodeText
  cases String.fromUTF8? content <;> simp

namespace FileTree

variable {tree : FileTree} {path name : String} {dir before rest : List String}

/-! ## Where a walk comes to -/

/-- The directory that `name` leads to from the directory `dir`. -/
def follow (dir : List String) (name : String) : List String :=
  if name = "" || name = "." then dir else if name = ".." then dir.dropLast else dir ++ [name]

/-- The names that are left of a path once its dots have been followed. -/
def destination (path : String) : List String := (segments path).foldl follow []

/-- A place inside of the tree is the one that `dir` leads to. -/
def Place.At (tree : FileTree) (dir : List String) : Place → Prop
  | .directory path => path = dir
  | .outside => True
  | .file content => tree.file? dir = some content

theorem origin_at (tree : FileTree) (path : String) : (origin path).At tree [] := by
  unfold origin
  split
  · trivial
  · rfl

/-- **One step.** It keeps to the names, wherever it goes. -/
theorem step_at {place place' : Place} (h : place.At tree dir) (hstep : tree.step place name = .ok place') :
    place'.At tree (follow dir name) := by
  cases place with
  | file content => contradiction
  | outside =>
    simp only [step] at hstep
    split at hstep
    · obtain rfl := Except.ok.inj hstep
      trivial
    · contradiction
  | directory path =>
    obtain rfl : path = dir := h
    simp only [step] at hstep
    unfold follow
    split at hstep
    · next hdot =>
      obtain rfl := Except.ok.inj hstep
      rw [if_pos hdot]
      rfl
    · next hdot =>
      rw [if_neg hdot]
      split at hstep
      · next hback =>
        rw [if_pos hback]
        -- From the start directory, two dots lead out of the tree.
        split at hstep <;> obtain rfl := Except.ok.inj hstep
        · trivial
        · rfl
      · next hback =>
        rw [if_neg hback]
        split at hstep
        · next content hfile =>
          obtain rfl := Except.ok.inj hstep
          exact hfile
        · split at hstep
          · obtain rfl := Except.ok.inj hstep
            rfl
          · contradiction

theorem walk_at {place place' : Place} (h : place.At tree dir)
    (hwalk : rest.foldlM tree.step place = .ok place') : place'.At tree (rest.foldl follow dir) := by
  induction rest generalizing place dir with
  | nil =>
    obtain rfl := Except.ok.inj hwalk
    exact h
  | cons name rest ih =>
    rw [List.foldlM_cons] at hwalk
    cases hstep : tree.step place name with
    | error e =>
      rw [hstep] at hwalk
      contradiction
    | ok next =>
      rw [hstep] at hwalk
      exact ih (step_at h hstep) hwalk

/-- What is read is the text of the file at the end of the path. -/
theorem exists_file_of_read {text : String} (h : tree.read path = .ok text) :
    ∃ content, tree.file? (destination path) = some content ∧ String.fromUTF8? content = some text := by
  unfold read at h
  split at h
  · contradiction
  · split at h
    · next content hwalk =>
      exact ⟨content, walk_at (origin_at tree path) hwalk, decodeText_eq_ok_iff.mp h⟩
    · contradiction
    · contradiction

/-! ## Adding a file -/

/-- The path holds nothing but names: no dots, and no slash too many. -/
def IsPlain (path : String) : Prop := ∀ name ∈ segments path, name ∉ ["", ".", ".."]

instance (path : String) : Decidable (IsPlain path) := inferInstanceAs (Decidable (∀ _ ∈ _, _))

/-- No file of the tree stands at the path or on the way to it. -/
def IsFree (tree : FileTree) (path : String) : Prop := ∀ entry ∈ tree.files, ¬ entry.1 <+: names path

theorem segments_ne_nil (path : String) : segments path ≠ [] := by
  simp [segments, List.splitOn, List.splitOnP_ne_nil]

theorem IsPlain.names_eq (h : IsPlain path) : names path = segments path := by
  unfold names
  rw [List.filter_eq_self]
  intro name hname
  have := h name hname
  simp_all

/-- A plain path begins with a name, so it is not empty and begins with no slash. -/
theorem IsPlain.head?_eq (h : IsPlain path) : ∃ c, path.toList.head? = some c ∧ c ≠ '/' := by
  unfold IsPlain segments at h
  cases hpath : path.toList with
  | nil =>
    rw [hpath] at h
    exact absurd (h "" (by decide)) (by decide)
  | cons c cs =>
    refine ⟨c, rfl, ?_⟩
    rintro rfl
    rw [hpath] at h
    exact absurd (h "" (by simp [List.splitOn, List.splitOnP_cons_eq_if_modifyHead])) (by decide)

theorem IsPlain.ne_empty (h : IsPlain path) : path ≠ "" := by
  rintro rfl
  obtain ⟨c, hc, -⟩ := h.head?_eq
  contradiction

theorem IsPlain.origin_eq (h : IsPlain path) : origin path = .directory [] := by
  obtain ⟨c, hc, hne⟩ := h.head?_eq
  rw [origin, hc, if_neg (fun heq => hne (Option.some.inj heq))]

theorem IsFree.file?_eq_none (h : tree.IsFree path) (hnames : dir <+: names path) :
    tree.file? dir = none := by
  unfold file?
  rw [Option.map_eq_none_iff, List.find?_eq_none]
  intro entry hentry heq
  have heq : entry.1 = dir := by simpa using heq
  exact h entry hentry (heq ▸ hnames)

theorem file?_addFile_self (h : tree.file? (names path) = none) (content : ByteArray) :
    (tree.addFile path content).file? (names path) = some content := by
  unfold file? at h ⊢
  rw [addFile, List.find?_append, Option.map_eq_none_iff.mp h]
  simp

theorem file?_addFile_of_ne (h : dir ≠ names path) (content : ByteArray) :
    (tree.addFile path content).file? dir = tree.file? dir := by
  unfold file?
  rw [addFile, List.find?_append]
  simp [h.symm]

theorem isDirectory_addFile (h : dir <+: names path) (hne : dir ≠ names path)
    (content : ByteArray) : (tree.addFile path content).isDirectory dir = true := by
  simp [isDirectory, addFile, List.isPrefixOf_iff_prefix.mpr h, hne]

/-- A walk along the names of an added file goes through directories and ends at the file. -/
theorem walk_addFile (content : ByteArray) (hfree : tree.IsFree path) (hnames : names path = before ++ rest)
    (hrest : rest ≠ []) (hnamed : ∀ name ∈ rest, name ∉ ["", ".", ".."]) :
    rest.foldlM (tree.addFile path content).step (.directory before) = .ok (.file content) := by
  induction rest generalizing before with
  | nil => contradiction
  | cons name rest ih =>
    have hname := hnamed name (by simp)
    simp only [List.mem_cons, List.not_mem_nil, or_false, not_or] at hname
    have hprefix : before ++ [name] <+: names path := ⟨rest, by simp [hnames]⟩
    rw [List.foldlM_cons]
    cases rest with
    | nil =>
      have hfile : (tree.addFile path content).file? (before ++ [name]) = some content := by
        rw [← hnames]
        exact file?_addFile_self (hfree.file?_eq_none List.prefix_rfl) content
      have hstep : (tree.addFile path content).step (.directory before) name = .ok (.file content) := by
        simp [step, hname, hfile]
      rw [hstep]
      rfl
    | cons next rest =>
      have hne : before ++ [name] ≠ names path := by simp [hnames]
      have hfile : (tree.addFile path content).file? (before ++ [name]) = none := by
        rw [file?_addFile_of_ne hne]
        exact hfree.file?_eq_none hprefix
      have hstep : (tree.addFile path content).step (.directory before) name =
          .ok (.directory (before ++ [name])) := by
        simp [step, hname, hfile, isDirectory_addFile hprefix hne]
      rw [hstep]
      exact ih (by simp [hnames]) (by simp) (fun other hother => hnamed other (by simp [hother]))

/-- A file that is added at a free place is read back there. -/
theorem read_addFile (hplain : IsPlain path) (hfree : tree.IsFree path) (content : ByteArray) :
    (tree.addFile path content).read path = decodeText content := by
  have hwalk := walk_addFile content hfree (hplain.names_eq.trans (List.nil_append _).symm)
    (segments_ne_nil path) hplain
  rw [read, if_neg hplain.ne_empty, hplain.origin_eq, hwalk]

example : IsPlain "a/b" ∧ ¬ IsPlain "/a/b" ∧ destination "a/./c/../b" = names "a/b" := by decide

end FileTree

/-! ## Running a task -/

variable {arguments : List String} {task : Task}

/-- **Answers are about files.** A task that succeeds in a tree writes what it has to say about the file that
its path leads to. -/
theorem task_answers_about_file (tree : FileTree)
    (h : (run tree.read (task.name :: arguments)).code = 0) :
    ∃ path content source, paths arguments = [path] ∧
      tree.file? (FileTree.destination path) = some content ∧ String.fromUTF8? content = some source ∧
      task.Answers (dialectOf arguments) path source (run tree.read (task.name :: arguments)).output := by
  obtain ⟨output, ⟨path, source, hpath, hread, hanswers⟩, hrun⟩ := run_of_code_eq_zero h
  obtain ⟨content, hfile, hsource⟩ := FileTree.exists_file_of_read hread
  rw [hrun]
  exact ⟨path, content, source, hpath, hfile, hsource, hanswers⟩

/-- **Files are found.** A run with the path of a file that was added at a free place works on this file. -/
theorem run_addFile {tree : FileTree} {path : String} (hplain : FileTree.IsPlain path) (hfree : tree.IsFree path)
    (hwell : WellFormed arguments) (hpath : paths arguments = [path]) (content : ByteArray) :
    run (tree.addFile path content).read (task.name :: arguments) =
      task.run (dialectOf arguments) path (decodeText content) := by
  rw [run_task hwell hpath, FileTree.read_addFile hplain hfree]

end BoardLang.Shell
