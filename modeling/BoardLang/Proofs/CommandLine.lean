import BoardLang.Shell.Command

/-!
# What a run of the command comes to

A command line is a command and then arguments. An argument is an option if it begins with a dash, and a
path otherwise. `command_outcome_law` says when a run succeeds, what it writes where, and that neither
the place nor the number of the options matters.

* `ofList_cases`: reading the arguments from left to right ends with what they say all together, or at
  the first one that is wrong. All that is said about arguments comes from this.
* `run_cases`: a run fails and reports something, or it gives help, or it writes the answer of a task.
-/

namespace BoardLang.Shell

/-! ## What is asked of arguments -/

/-- The argument is an option: it begins with a dash. -/
def IsOption (argument : String) : Prop := ['-'] <+: argument.toList

instance (argument : String) : Decidable (IsOption argument) :=
  inferInstanceAs (Decidable (_ <+: _))

/-- The arguments that are no options. -/
def paths (arguments : List String) : List String := arguments.filter fun a => ¬ IsOption a

/-- The dialect that the arguments ask for, at whatever place. -/
def dialectOf (arguments : List String) : Dialect := ⟨decide ("--newlines" ∈ arguments)⟩

/-- The arguments but for the one option that exists. -/
def withoutOption (arguments : List String) : List String := arguments.filter (· ≠ "--newlines")

/-- There is no option but the one that exists, and no second path. -/
structure WellFormed (arguments : List String) : Prop where
  options : ∀ a ∈ arguments, IsOption a → a = "--newlines"
  one_path : (paths arguments).length ≤ 1

/-- What is wrong with the argument behind the arguments `before`. -/
inductive Offends (before : List String) : String → UsageError → Prop where
  | option {a : String} (ha : IsOption a) (hne : a ≠ "--newlines") :
      Offends before a (.unknownOption a)
  | path {a : String} (ha : ¬ IsOption a) (hpaths : paths before ≠ []) :
      Offends before a (.unexpectedArgument a)

/-! ## What is asked of a run -/

/-- The task has no error to report about the text. -/
def Task.Accepts (task : Task) (d : Dialect) (source : String) : Prop :=
  match task with
  | .lex => ∃ text, listing d source = .ok text
  | .check => ∃ counts, summary d source = .ok counts

/-- `output` is all that the task has to say about the text of the file `path`: the listing of its tokens, or
the line with its counts. -/
def Task.Answers (task : Task) (d : Dialect) (path source output : String) : Prop :=
  match task with
  | .lex => listing d source = .ok output
  | .check => ∃ counts, summary d source = .ok counts ∧ output = counts.describe path

/-- There is one path, its file is a text, and the task has no error to report about it. -/
def Task.Succeeds (task : Task) (read : String → Except ReadError String) (arguments : List String) :
    Prop :=
  ∃ path source, paths arguments = [path] ∧ read path = .ok source ∧
    task.Accepts (dialectOf arguments) source

/-- There is one path, its file is a text, and `output` is what the task has to say about it. -/
def Task.Reports (task : Task) (read : String → Except ReadError String) (arguments : List String)
    (output : String) : Prop :=
  ∃ path source, paths arguments = [path] ∧ read path = .ok source ∧
    task.Answers (dialectOf arguments) path source output

def AsksHelp (command : String) : Prop := command ∈ ["help", "--help", "-h"]

/-- What a run needs in order to succeed: arguments that say something, and a command that can do
something with them. -/
def CanSucceed (read : String → Except ReadError String) (command : String) (arguments : List String) :
    Prop :=
  WellFormed arguments ∧
    (AsksHelp command ∨ ∃ task : Task, command = task.name ∧ task.Succeeds read arguments)

/-- What is asked of the outcome of a command line. -/
structure OutcomeLaw (read : String → Except ReadError String) (command : String)
    (arguments : List String) (o : Outcome) : Prop where
  succeeds : o.code = 0 ↔ CanSucceed read command arguments
  /-- There is one way to fail; it writes no part of an answer, and it says something. -/
  fails : o.code ≠ 0 → o.code = 1 ∧ o.output = "" ∧ o.errors ≠ ""
  /-- A task that succeeds reports no error. -/
  quiet : ∀ task : Task, command = task.name → o.code = 0 → o.errors = ""
  /-- A task that succeeds writes its answer, and all of it. -/
  answers : ∀ task : Task, command = task.name → o.code = 0 → task.Reports read arguments o.output
  /-- Help is no answer. It goes where errors go. -/
  helps : AsksHelp command → o.code = 0 → o.output = "" ∧ o.errors = usage
  /-- It does not matter where the option stands, nor how often. -/
  option_anywhere : ∀ others : List String,
    withoutOption others = withoutOption arguments →
    ("--newlines" ∈ others ↔ "--newlines" ∈ arguments) → run read (command :: others) = o
  /-- The first argument that is wrong is reported, whatever the command and the arguments behind it. -/
  first_option : ∀ before a after, arguments = before ++ a :: after → WellFormed before →
    IsOption a → a ≠ "--newlines" → o = ⟨1, "", "error: unknown option `" ++ a ++ "`\n"⟩
  first_path : ∀ before a after, arguments = before ++ a :: after → WellFormed before →
    ¬ IsOption a → paths before ≠ [] → o = ⟨1, "", "error: unexpected argument `" ++ a ++ "`\n"⟩

/-! ## Arguments one after the other -/

section Arguments

variable {arguments before after rest : List String} {a : String} {e : UsageError}

theorem isOption_iff : Arguments.isOption a = true ↔ IsOption a := by
  unfold Arguments.isOption IsOption
  cases a.toList with
  | nil => simp
  | cons c cs => simp [eq_comm]

theorem isOption_newlines : IsOption "--newlines" := by decide

theorem paths_append (before after : List String) :
    paths (before ++ after) = paths before ++ paths after := List.filter_append ..

theorem paths_option (ha : IsOption a) : paths [a] = [] := by simp [paths, ha]

theorem paths_path (ha : ¬ IsOption a) : paths [a] = [a] := by simp [paths, ha]

/-- What well-formed arguments say. -/
def Arguments.saidBy (arguments : List String) : Arguments :=
  ⟨dialectOf arguments, (paths arguments).head?⟩

theorem wellFormed_nil : WellFormed [] := ⟨by simp, by simp [paths]⟩

theorem WellFormed.snoc (h : WellFormed before) (ha : IsOption a → a = "--newlines")
    (hpaths : (paths (before ++ [a])).length ≤ 1) : WellFormed (before ++ [a]) := by
  refine ⟨fun x hx => ?_, hpaths⟩
  rcases List.mem_append.mp hx with hx | hx
  · exact h.options x hx
  · rwa [List.mem_singleton.mp hx]

/-- **One argument.** Behind well-formed arguments, the next one fits in or it is wrong. -/
theorem add_cases (h : WellFormed before) (a : String) :
    (WellFormed (before ++ [a]) ∧ (Arguments.saidBy before).add a = .ok (.saidBy (before ++ [a]))) ∨
    ∃ e, Offends before a e ∧ (Arguments.saidBy before).add a = .error e := by
  by_cases hoption : IsOption a
  · by_cases hknown : a = "--newlines"
    · subst hknown
      have hpaths : paths (before ++ ["--newlines"]) = paths before := by
        rw [paths_append, paths_option hoption, List.append_nil]
      refine Or.inl ⟨h.snoc (fun _ => rfl) (hpaths ▸ h.one_path), ?_⟩
      simp [Arguments.add, Arguments.saidBy, hpaths, dialectOf]
    · refine Or.inr ⟨_, .option hoption hknown, ?_⟩
      simp [Arguments.add, hknown, isOption_iff.mpr hoption]
  · have hne : a ≠ "--newlines" := fun ha => hoption (ha ▸ isOption_newlines)
    have hflag : Arguments.isOption a = false := by rwa [← Bool.not_eq_true, isOption_iff]
    by_cases hnone : paths before = []
    · have hpaths : paths (before ++ [a]) = [a] := by
        rw [paths_append, hnone, paths_path hoption, List.nil_append]
      refine Or.inl ⟨h.snoc (fun ha => absurd ha hoption) (by simp [hpaths]), ?_⟩
      simp [Arguments.add, Arguments.saidBy, hne, hflag, hnone, hpaths, dialectOf, hne.symm]
    · obtain ⟨path, others, hpaths⟩ := List.exists_cons_of_ne_nil hnone
      refine Or.inr ⟨_, .path hoption hnone, ?_⟩
      simp [Arguments.add, Arguments.saidBy, hne, hflag, hpaths]

theorem Offends.not_wellFormed (h : Offends before a e) : ¬ WellFormed (before ++ a :: after) := by
  intro hwell
  cases h with
  | option ha hne => exact hne (hwell.options a (by simp) ha)
  | path ha hpaths =>
    have hpos := List.length_pos_iff.mpr hpaths
    have hlen := hwell.one_path
    rw [← List.singleton_append, paths_append, paths_append, paths_path ha, List.length_append,
      List.length_append, List.length_singleton] at hlen
    omega

theorem Offends.unique {e' : UsageError} (h : Offends before a e) (h' : Offends before a e') : e = e' := by
  cases h <;> cases h' <;> first | rfl | contradiction

/-- **All arguments.** Reading on behind well-formed arguments ends with what they say all together, or
with the first one that is wrong. -/
theorem foldlM_add_cases (h : WellFormed before) (rest : List String) :
    (WellFormed (before ++ rest) ∧
      rest.foldlM Arguments.add (.saidBy before) = .ok (.saidBy (before ++ rest))) ∨
    ∃ middle a after e, rest = middle ++ a :: after ∧ WellFormed (before ++ middle) ∧
      Offends (before ++ middle) a e ∧ rest.foldlM Arguments.add (.saidBy before) = .error e := by
  induction rest generalizing before with
  | nil => exact Or.inl ⟨by rwa [List.append_nil], by rw [List.append_nil]; rfl⟩
  | cons a rest ih =>
    rcases add_cases h a with ⟨hwell, hadd⟩ | ⟨e, he, hadd⟩
    · rw [List.foldlM_cons, hadd]
      have hassoc : ∀ l, before ++ [a] ++ l = before ++ a :: l := by simp
      rcases ih hwell with ⟨hwell', hrest⟩ | ⟨middle, b, after, e, rfl, hmiddle, he, hrest⟩
      · rw [hassoc] at hwell' hrest
        exact Or.inl ⟨hwell', hrest⟩
      · rw [hassoc] at hmiddle he
        exact Or.inr ⟨a :: middle, b, after, e, rfl, hmiddle, he, hrest⟩
    · rw [List.foldlM_cons, hadd]
      refine Or.inr ⟨[], a, rest, e, rfl, ?_, ?_, rfl⟩ <;> rwa [List.append_nil]

theorem ofList_cases (arguments : List String) :
    (WellFormed arguments ∧ Arguments.ofList arguments = .ok (.saidBy arguments)) ∨
    ∃ before a after e, arguments = before ++ a :: after ∧ WellFormed before ∧ Offends before a e ∧
      Arguments.ofList arguments = .error e :=
  foldlM_add_cases wellFormed_nil arguments

theorem ofList_wellFormed (h : WellFormed arguments) :
    Arguments.ofList arguments = .ok (.saidBy arguments) := by
  rcases ofList_cases arguments with ⟨-, hof⟩ | ⟨before, a, after, e, rfl, -, he, -⟩
  · exact hof
  · exact absurd h he.not_wellFormed

theorem ofList_offends (h : WellFormed before) (he : Offends before a e) (after : List String) :
    Arguments.ofList (before ++ a :: after) = .error e := by
  have hbefore := ofList_wellFormed h
  rw [Arguments.ofList] at hbefore ⊢
  rw [List.foldlM_append, hbefore]
  rcases add_cases h a with ⟨hwell, -⟩ | ⟨e', he', hadd⟩
  · exact absurd hwell he.not_wellFormed
  · rw [he.unique he']
    show List.foldlM Arguments.add (.saidBy before) (a :: after) = .error e'
    rw [List.foldlM_cons, hadd]
    rfl

end Arguments

/-! ## The option may stand anywhere -/

theorem paths_withoutOption (arguments : List String) :
    paths (withoutOption arguments) = paths arguments := by
  unfold paths withoutOption
  rw [List.filter_filter]
  apply List.filter_congr
  intro a _
  by_cases ha : IsOption a
  · simp [ha]
  · have hne : a ≠ "--newlines" := fun h => ha (h ▸ isOption_newlines)
    simp [ha, hne]

theorem WellFormed.withoutOption {arguments : List String} (h : WellFormed arguments) :
    WellFormed (withoutOption arguments) where
  options a ha := h.options a (List.mem_filter.mp ha |>.1)
  one_path := by
    rw [paths_withoutOption]
    exact h.one_path

theorem Offends.withoutOption {before : List String} {a : String} {e : UsageError}
    (h : Offends before a e) : Offends (withoutOption before) a e ∧ a ≠ "--newlines" := by
  cases h with
  | option ha hne => exact ⟨.option ha hne, hne⟩
  | path ha hpaths =>
    refine ⟨.path ha ?_, fun h => ha (h ▸ isOption_newlines)⟩
    rwa [paths_withoutOption]

/-- The option decides on the dialect and on nothing else. -/
theorem ofList_withoutOption (arguments : List String) :
    Arguments.ofList arguments =
      (Arguments.ofList (withoutOption arguments)).map ({ · with dialect := dialectOf arguments }) := by
  rcases ofList_cases arguments with ⟨hwell, hof⟩ | ⟨before, a, after, e, rfl, hwell, he, hof⟩
  · rw [hof, ofList_wellFormed hwell.withoutOption, Except.map, Arguments.saidBy, Arguments.saidBy,
      paths_withoutOption]
  · obtain ⟨he', hne⟩ := he.withoutOption
    have hsplit : withoutOption (before ++ a :: after) =
        withoutOption before ++ a :: withoutOption after := by
      simp [withoutOption, List.filter_append, hne]
    rw [hof, hsplit, ofList_offends hwell.withoutOption he']
    rfl

theorem ofList_congr {arguments others : List String}
    (h : withoutOption others = withoutOption arguments)
    (hoption : "--newlines" ∈ others ↔ "--newlines" ∈ arguments) :
    Arguments.ofList others = Arguments.ofList arguments := by
  have hdialect : dialectOf others = dialectOf arguments := congrArg Dialect.mk (decide_eq_decide.mpr hoption)
  rw [ofList_withoutOption others, ofList_withoutOption arguments, h, hdialect]

/-! ## Commands -/

section Commands

variable {command : String} {task task' : Task}

theorem ofName?_eq_some_iff : Task.ofName? command = some task ↔ command = task.name := by
  unfold Task.ofName?
  constructor
  · intro h
    split at h
    · rwa [← Option.some.inj h]
    · split at h
      · rwa [← Option.some.inj h]
      · contradiction
  · rintro rfl
    cases task <;> rfl

theorem Task.name_injective (h : task.name = task'.name) : task = task' :=
  Option.some.inj ((ofName?_eq_some_iff.mpr rfl).symm.trans (ofName?_eq_some_iff.mpr h))

theorem isHelp_iff : Request.isHelp command = true ↔ AsksHelp command := by
  simp [Request.isHelp, AsksHelp, or_assoc]

theorem not_asksHelp_name (task : Task) : ¬ AsksHelp task.name := by
  cases task <;> simp [AsksHelp, Task.name]

end Commands

/-! ## Something is reported -/

theorem append_ne_empty {a : String} (ha : a ≠ "") (b : String) : a ++ b ≠ "" :=
  fun h => ha (String.append_eq_empty_iff.mp h).1

theorem usage_ne_empty : usage ≠ "" := by decide

theorem UsageError.message_ne_empty (e : UsageError) : e.message ≠ "" := by
  cases e with
  | noCommand => exact usage_ne_empty
  | unknownOption option => exact append_ne_empty (append_ne_empty (by decide) option) _
  | unexpectedArgument argument => exact append_ne_empty (append_ne_empty (by decide) argument) _
  | missingPath task => exact append_ne_empty (append_ne_empty (by decide) task.name) _
  | unknownCommand name =>
    exact append_ne_empty (append_ne_empty (append_ne_empty (by decide) name) _) usage

/-! ## Runs -/

section Runs

variable {read : String → Except ReadError String} {command : String} {arguments : List String}
  {task : Task}

theorem code_failure_ne_zero (text : String) : (Outcome.failure text).code ≠ 0 := by
  simp [Outcome.failure]

theorem run_usage {e : UsageError} (h : Request.ofArguments (command :: arguments) = .error e) :
    run read (command :: arguments) = .failure e.message := by
  rw [run, h]

theorem run_offends {before after : List String} {a : String} {e : UsageError} (h : WellFormed before)
    (he : Offends before a e) :
    run read (command :: (before ++ a :: after)) = .failure e.message := by
  apply run_usage
  rw [Request.ofArguments, ofList_offends h he]

theorem ofArguments_wellFormed (h : WellFormed arguments) :
    Request.ofArguments (command :: arguments) = Request.ofCommand command (.saidBy arguments) := by
  rw [Request.ofArguments, ofList_wellFormed h]

theorem ofCommand_task {a : Arguments} {path : String} (h : a.path? = some path) :
    Request.ofCommand task.name a = .ok (.process task a.dialect path) := by
  have hname : Task.ofName? task.name = some task := ofName?_eq_some_iff.mpr rfl
  simp only [Request.ofCommand, hname, h]

theorem ofCommand_missing {a : Arguments} (h : a.path? = none) :
    Request.ofCommand task.name a = .error (.missingPath task) := by
  have hname : Task.ofName? task.name = some task := ofName?_eq_some_iff.mpr rfl
  simp only [Request.ofCommand, hname, h]

theorem ofCommand_other (h : ∀ task : Task, command ≠ task.name) (a : Arguments) :
    Request.ofCommand command a =
      if Request.isHelp command then .ok .help else .error (.unknownCommand command) := by
  have hname : Task.ofName? command = none := by
    rw [Option.eq_none_iff_forall_ne_some]
    intro task htask
    exact h task (ofName?_eq_some_iff.mp htask)
  rw [Request.ofCommand, hname]

theorem canSucceed_name_iff :
    CanSucceed read task.name arguments ↔ WellFormed arguments ∧ task.Succeeds read arguments := by
  refine and_congr_right fun _ => ⟨?_, fun h => Or.inr ⟨task, rfl, h⟩⟩
  rintro (hhelp | ⟨task', hname, h⟩)
  · exact absurd hhelp (not_asksHelp_name task)
  · rwa [Task.name_injective hname]

theorem Task.report_eq_ok_iff {d : Dialect} {path source output : String} :
    task.report d path source = .ok output ↔ task.Answers d path source output := by
  cases task with
  | lex => exact Iff.rfl
  | check =>
    unfold report Answers
    cases summary d source <;> simp [eq_comm]

theorem Task.accepts_iff {d : Dialect} {source : String} (path : String) :
    task.Accepts d source ↔ ∃ output, task.Answers d path source output := by
  cases task with
  | lex => exact Iff.rfl
  | check =>
    constructor
    · rintro ⟨counts, hcounts⟩
      exact ⟨_, counts, hcounts, rfl⟩
    · rintro ⟨_, counts, hcounts, -⟩
      exact ⟨counts, hcounts⟩

/-- **One task.** It reports an error, or it writes what it has to say about a text that it accepts. -/
theorem Task.run_cases (task : Task) (d : Dialect) (path : String) (content : Except ReadError String) :
    ((¬ ∃ source, content = .ok source ∧ task.Accepts d source) ∧
      ∃ text, text ≠ "" ∧ task.run d path content = .failure text) ∨
    ∃ source output, content = .ok source ∧ task.Answers d path source output ∧
      task.run d path content = .success output := by
  cases content with
  | error e => exact Or.inl ⟨by simp, _, append_ne_empty (by simp) "\n", rfl⟩
  | ok source =>
    cases hr : task.report d path source with
    | ok output =>
      refine Or.inr ⟨source, output, rfl, report_eq_ok_iff.mp hr, ?_⟩
      rw [run, hr]
    | error e =>
      refine Or.inl ⟨?_, e.render path source ++ "\n", by simp, by rw [run, hr]⟩
      rintro ⟨source', hsource, haccepts⟩
      obtain rfl := Except.ok.inj hsource
      obtain ⟨output, houtput⟩ := (accepts_iff path).mp haccepts
      rw [report_eq_ok_iff.mpr houtput] at hr
      contradiction

/-- A task with one path is run on the file there. -/
theorem run_task {path : String} (h : WellFormed arguments) (hpath : paths arguments = [path]) :
    run read (task.name :: arguments) = task.run (dialectOf arguments) path (read path) := by
  have hsaid : (Arguments.saidBy arguments).path? = some path := by
    rw [Arguments.saidBy, hpath, List.head?_cons]
  rw [run, ofArguments_wellFormed h, ofCommand_task hsaid, Arguments.saidBy]

/-- A task whose arguments are well formed needs a path, and then it is run on the file there. -/
theorem run_task_cases (h : WellFormed arguments) (task : Task) :
    (¬ CanSucceed read task.name arguments ∧
      ∃ text, text ≠ "" ∧ run read (task.name :: arguments) = .failure text) ∨
    (CanSucceed read task.name arguments ∧ ∃ output, task.Reports read arguments output ∧
      run read (task.name :: arguments) = .success output) := by
  have hrequest : Request.ofArguments (task.name :: arguments) =
      Request.ofCommand task.name (.saidBy arguments) := ofArguments_wellFormed h
  have hone := h.one_path
  rw [canSucceed_name_iff]
  match hpaths : paths arguments with
  | [] =>
    have hnone : (Arguments.saidBy arguments).path? = none := by rw [Arguments.saidBy, hpaths, List.head?_nil]
    rw [ofCommand_missing hnone] at hrequest
    refine Or.inl ⟨?_, _, UsageError.message_ne_empty _, run_usage hrequest⟩
    rintro ⟨-, path, source, hpath, -⟩
    rw [hpaths] at hpath
    contradiction
  | [path] =>
    have hsucceeds : task.Succeeds read arguments ↔
        ∃ source, read path = .ok source ∧ task.Accepts (dialectOf arguments) source := by
      simp [Task.Succeeds, hpaths]
    rw [run_task h hpaths, hsucceeds]
    rcases task.run_cases (dialectOf arguments) path (read path) with
      ⟨hno, htext⟩ | ⟨source, output, hread, hanswers, hout⟩
    · exact Or.inl ⟨fun hboth => hno hboth.2, htext⟩
    · have haccepts := (Task.accepts_iff path).mpr ⟨output, hanswers⟩
      exact Or.inr ⟨⟨h, source, hread, haccepts⟩, output, ⟨path, source, hpaths, hread, hanswers⟩, hout⟩
  | _ :: _ :: _ =>
    rw [hpaths] at hone
    simp at hone

/-- **One run.** It fails and reports something, or it gives help, or it carries out a task; the last two
exactly if it can succeed. -/
theorem run_cases (read : String → Except ReadError String) (command : String)
    (arguments : List String) :
    (¬ CanSucceed read command arguments ∧
      ∃ text, text ≠ "" ∧ run read (command :: arguments) = .failure text) ∨
    (CanSucceed read command arguments ∧
      ((AsksHelp command ∧ run read (command :: arguments) = ⟨0, "", usage⟩) ∨
        ∃ (task : Task) (output : String), command = task.name ∧ task.Reports read arguments output ∧
          run read (command :: arguments) = .success output)) := by
  rcases ofList_cases arguments with ⟨hwell, -⟩ | ⟨before, a, after, e, rfl, hwell, he, -⟩
  · by_cases htask : ∃ task : Task, command = task.name
    · obtain ⟨task, rfl⟩ := htask
      rcases run_task_cases hwell task with h | ⟨hcan, output, hreports, hrun⟩
      · exact Or.inl h
      · exact Or.inr ⟨hcan, Or.inr ⟨task, output, rfl, hreports, hrun⟩⟩
    · have hother : ∀ task : Task, command ≠ task.name := fun task h => htask ⟨task, h⟩
      have hrequest := (ofArguments_wellFormed hwell).trans (ofCommand_other hother (.saidBy arguments))
      by_cases hhelp : AsksHelp command
      · rw [if_pos (isHelp_iff.mpr hhelp)] at hrequest
        refine Or.inr ⟨⟨hwell, Or.inl hhelp⟩, Or.inl ⟨hhelp, ?_⟩⟩
        rw [run, hrequest]
      · rw [if_neg (fun h => hhelp (isHelp_iff.mp h))] at hrequest
        refine Or.inl ⟨?_, _, UsageError.message_ne_empty _, run_usage hrequest⟩
        rintro ⟨-, hasks | ⟨task, hname, -⟩⟩
        · exact hhelp hasks
        · exact hother task hname
  · refine Or.inl ⟨fun hcan => he.not_wellFormed hcan.1, _, UsageError.message_ne_empty e, ?_⟩
    exact run_offends hwell he

/-- A task that succeeds writes its answer and nothing else. -/
theorem run_of_code_eq_zero (h : (run read (task.name :: arguments)).code = 0) :
    ∃ output, task.Reports read arguments output ∧ run read (task.name :: arguments) = .success output := by
  rcases run_cases read task.name arguments with
    ⟨-, text, -, hrun⟩ | ⟨-, ⟨hhelp, -⟩ | ⟨task', output, hname, hreports, hrun⟩⟩
  · rw [hrun] at h
    exact absurd h (code_failure_ne_zero text)
  · exact absurd hhelp (not_asksHelp_name task)
  · rw [Task.name_injective hname] at hrun ⊢
    exact ⟨output, hreports, hrun⟩

end Runs

/-- **What a run comes to.** A run succeeds exactly if its arguments are well formed and it is asked for
help or for a task that succeeds; a failure is reported and nothing else is written, and a task that
succeeds writes its answer and reports nothing. It matters whether the option is there, but not where; and
the first argument that is wrong decides on the outcome. -/
theorem command_outcome_law (read : String → Except ReadError String) (command : String)
    (arguments : List String) :
    OutcomeLaw read command arguments (run read (command :: arguments)) := by
  have hcases := run_cases read command arguments
  constructor
  case succeeds =>
    rcases hcases with ⟨hno, text, -, hrun⟩ | ⟨hcan, ⟨-, hrun⟩ | ⟨task, output, -, -, hrun⟩⟩
    · rw [hrun]
      exact iff_of_false (code_failure_ne_zero text) hno
    · rw [hrun]
      exact iff_of_true rfl hcan
    · rw [hrun]
      exact iff_of_true rfl hcan
  case fails =>
    rcases hcases with ⟨-, text, htext, hrun⟩ | ⟨-, ⟨-, hrun⟩ | ⟨task, output, -, -, hrun⟩⟩
    · rw [hrun]
      exact fun _ => ⟨rfl, rfl, htext⟩
    · rw [hrun]
      exact fun h => absurd rfl h
    · rw [hrun]
      exact fun h => absurd rfl h
  case quiet =>
    rintro task rfl hcode
    obtain ⟨output, -, hrun⟩ := run_of_code_eq_zero hcode
    rw [hrun]
    rfl
  case answers =>
    rintro task rfl hcode
    obtain ⟨output, hreports, hrun⟩ := run_of_code_eq_zero hcode
    rw [hrun]
    exact hreports
  case helps =>
    intro hhelp hcode
    rcases hcases with ⟨-, text, -, hrun⟩ | ⟨-, ⟨-, hrun⟩ | ⟨task, output, rfl, -, -⟩⟩
    · rw [hrun] at hcode
      exact absurd hcode (code_failure_ne_zero text)
    · rw [hrun]
      exact ⟨rfl, rfl⟩
    · exact absurd hhelp (not_asksHelp_name task)
  case option_anywhere =>
    intro others hothers hoption
    simp only [run, Request.ofArguments, ofList_congr hothers hoption]
  case first_option =>
    rintro before a after rfl hwell ha hne
    exact run_offends hwell (.option ha hne)
  case first_path =>
    rintro before a after rfl hwell ha hpaths
    exact run_offends hwell (.path ha hpaths)

end BoardLang.Shell
