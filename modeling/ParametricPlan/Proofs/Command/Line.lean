/-
ParametricPlan/Proofs/Command/Line.lean

What the program writes, and how it ends.

Arguments ask for a run, for one of the answers that are always the same (`fixedCommands`), or for
nothing that there is.  The equations of `answer` follow these three cases, and those of a run
follow the reading of its options.

A line that is written must not hold a line end, or it would be read as two.  Neither the lines nor
the faults of a run hold one (`endFree_of_mem_actions`, `endFree_of_mem_faults`), so that a stream
of a run falls into just these (`lineParts_linesText`).  `answer_classified` is the main result.
-/
import ParametricPlan.Command.Line
import ParametricPlan.Proofs.Command.Demo
import ParametricPlan.Proofs.Command.Options
import ParametricPlan.Proofs.Formula.Legible

namespace ParametricPlan.CommandLine

/-! ### Line ends -/

/-- A text without a line end. -/
def EndFree (text : String) : Prop :=
  '\n' ∉ text.toList

instance (text : String) : Decidable (EndFree text) :=
  inferInstanceAs (Decidable ('\n' ∉ text.toList))

theorem endFree_append {s t : String} : EndFree (s ++ t) ↔ EndFree s ∧ EndFree t := by
  rw [EndFree, String.toList_append, List.mem_append, not_or, EndFree, EndFree]

theorem endFree_of_isWord {text : String} (h : Lexeme.IsWord text) : EndFree text := by
  intro hend
  have hchar : Lexeme.isWordChar '\n' = true := List.all_eq_true.mp h.2 '\n' hend
  exact absurd hchar (by decide)

/-- A number is written in the characters of a word, perhaps after a minus. -/
theorem endFree_write (x : Float) : EndFree (Value.numberStyle.write x) := by
  have hrank := endFree_of_isWord (isWord_writeRank (Binary64.rank x))
  rw [EndFree, String.toList_ofList] at hrank
  rw [EndFree, NumberStyle.write, String.toList_ofList, NumberStyle.writeChars]
  split
  · exact List.not_mem_cons_of_ne_of_not_mem (by decide) hrank
  · exact hrank

theorem endFree_text (v : Value) : EndFree v.text := by
  rcases v with ⟨- | -⟩ | x | ⟨x, y⟩
  · decide
  · decide
  · exact endFree_write x
  · simp only [Value.text, endFree_append, endFree_write, and_true]
    decide

theorem endFree_line {label : String} (hlabel : EndFree label) (v : Value) :
    EndFree (Demo.line label v) := by
  simp only [Demo.line, endFree_append, endFree_text, hlabel, true_and, and_true]
  decide

/-- The message of a mismatch is made of words, symbols and blanks. -/
theorem endFree_mismatch (op : BinaryOp) (v : Value) : EndFree (Demo.mismatch op v).message := by
  have hsymbol : EndFree op.symbol := by cases op <;> decide
  have hname : EndFree v.kind.name := by cases v.kind <;> decide
  have hmessage : (Demo.mismatch op v).message =
      "invalid expression: " ++ ("type mismatch: " ++ ("operator `" ++ op.symbol ++
        "` cannot be applied to " ++ v.kind.name ++ " and " ++ "number")) := rfl
  rw [hmessage]
  simp only [endFree_append, hsymbol, hname, and_true]
  decide

/-- A line of a run holds no line end. -/
theorem endFree_of_mem_actions {options : RunOptions} {text : String}
    (htext : text ∈ (Demo.run options).actions) : EndFree text := by
  obtain ⟨label, hlabel, v, rfl⟩ := Demo.exists_line_of_mem_actions htext
  have hlabels : ∀ label ∈ ["span", "diagonal", "flange"], EndFree label := by decide
  exact endFree_line (hlabels label hlabel) v

/-- The line of a fault. -/
def faultLine (f : Fault) : String :=
  "fault: " ++ f.message

/-- The line of a fault holds no line end. -/
theorem endFree_of_mem_faults {options : RunOptions} {f : Fault}
    (hf : f ∈ (Demo.run options).faults) : EndFree (faultLine f) := by
  obtain ⟨op, v, rfl⟩ := Demo.exists_mismatch_of_mem_faults hf
  exact endFree_append.mpr ⟨by decide, endFree_mismatch op v⟩

/-- The parts of a text between its line ends. -/
def lineParts (text : String) : List String :=
  (text.split '\n').toList.map (·.copy)

/-- A line end after each line stands between them and an empty part at the end. -/
theorem linesText_eq_intercalate (lines : List String) :
    linesText lines = (String.singleton '\n').intercalate (lines ++ [""]) := by
  induction lines with
  | nil => exact String.intercalate_singleton.symm
  | cons line lines ih =>
    have hne : lines ++ [""] ≠ [] := by simp
    rw [List.cons_append, String.intercalate_cons_of_ne_nil hne, ← ih, linesText, List.map_cons,
      String.join_cons]
    rfl

/-- A text of lines falls into the lines, with nothing after the last line end. -/
theorem lineParts_linesText {lines : List String} (h : ∀ line ∈ lines, EndFree line) :
    lineParts (linesText lines) = lines ++ [""] := by
  have hall : ∀ line ∈ lines ++ [""], '\n' ∉ line.toList := by
    intro line hline
    rcases List.mem_append.mp hline with hline | hline
    · exact h line hline
    · rw [List.mem_singleton.mp hline]
      decide
  rw [lineParts, linesText_eq_intercalate, String.toList_split_intercalate hall, if_neg (by simp)]

/-! ### The three kinds of arguments -/

/-- The commands whose answers are always the same. -/
def fixedCommands : List String :=
  ["describe", "analyze", "help", "--help", "-h", "version", "--version", "-v"]

theorem answer_run (args : List String) : answer ("run" :: args) = run args :=
  rfl

/-- The answer to one of these commands does not look at the arguments. -/
theorem exists_answer_of_fixed {command : String} (h : command ∈ fixedCommands) :
    ∃ stdout, ∀ args, answer (command :: args) = ⟨stdout, "", 0⟩ := by
  simp only [fixedCommands, List.mem_cons, List.not_mem_nil, or_false] at h
  rcases h with rfl | rfl | rfl | rfl | rfl | rfl | rfl | rfl
  all_goals exact ⟨_, fun _ => rfl⟩

/-- A command that there is not is answered with how the program is used. -/
theorem answer_of_unknown {command : String} (hrun : command ≠ "run")
    (hfixed : command ∉ fixedCommands) (args : List String) :
    answer (command :: args) = ⟨usage, linesText ["Unknown command: " ++ command, ""], 1⟩ := by
  simp only [fixedCommands, List.mem_cons, List.not_mem_nil, or_false, not_or] at hfixed
  simp [answer, hrun, hfixed]

theorem run_of_error {args : List String} {e : UsageError} (h : RunOptions.parse args = .error e) :
    run args = ⟨"", linesText ["error: " ++ e.message, runUsage], 1⟩ := by
  rw [run, h]

/-- What a run writes and how it ends, if its options can be read. -/
theorem run_of_ok {args : List String} {o : RunOptions} (h : RunOptions.parse args = .ok o) :
    run args = ⟨linesText (Demo.run o).actions, linesText ((Demo.run o).faults.map faultLine),
      if (Demo.run o).faults.isEmpty then 0 else 2⟩ := by
  rw [run, h]
  rfl

/-! ### The status -/

/-- The arguments ask for a run that has faults. -/
def RunsIntoFaults (argv : List String) : Prop :=
  ∃ args o, argv = "run" :: args ∧ RunOptions.parse args = .ok o ∧ (Demo.run o).faults ≠ []

/-- The arguments ask for nothing that there is, or for a run with options that are wrong. -/
def Misused (argv : List String) : Prop :=
  argv = [] ∨
    (∃ command args, argv = command :: args ∧ command ∉ "run" :: fixedCommands) ∨
    ∃ args e, argv = "run" :: args ∧ RunOptions.parse args = .error e

theorem runsIntoFaults_cons_iff {command : String} {args : List String} :
    RunsIntoFaults (command :: args) ↔
      command = "run" ∧ ∃ o, RunOptions.parse args = .ok o ∧ (Demo.run o).faults ≠ [] := by
  constructor
  · rintro ⟨args', o, hargv, ho⟩
    obtain ⟨rfl, rfl⟩ := List.cons.inj hargv
    exact ⟨rfl, o, ho⟩
  · rintro ⟨rfl, o, ho⟩
    exact ⟨args, o, rfl, ho⟩

theorem misused_cons_iff {command : String} {args : List String} :
    Misused (command :: args) ↔
      command ∉ "run" :: fixedCommands ∨
        command = "run" ∧ ∃ e, RunOptions.parse args = .error e := by
  constructor
  · rintro (hnil | ⟨command', args', hargv, hunknown⟩ | ⟨args', e, hargv, he⟩)
    · cases hnil
    · obtain ⟨rfl, rfl⟩ := List.cons.inj hargv
      exact .inl hunknown
    · obtain ⟨rfl, rfl⟩ := List.cons.inj hargv
      exact .inr ⟨rfl, e, he⟩
  · rintro (hunknown | ⟨rfl, e, he⟩)
    · exact .inr (.inl ⟨command, args, rfl, hunknown⟩)
    · exact .inr (.inr ⟨args, e, rfl, he⟩)

/-- The status for each kind of arguments. -/
theorem status_answer (argv : List String) :
    (answer argv).status = 2 ∧ RunsIntoFaults argv ∧ ¬ Misused argv ∨
      (answer argv).status = 1 ∧ ¬ RunsIntoFaults argv ∧ Misused argv ∨
      (answer argv).status = 0 ∧ ¬ RunsIntoFaults argv ∧ ¬ Misused argv := by
  rcases argv with - | ⟨command, args⟩
  · -- no arguments at all
    exact .inr (.inl ⟨rfl, nofun, .inl rfl⟩)
  rw [runsIntoFaults_cons_iff, misused_cons_iff]
  by_cases hrun : command = "run"
  · subst hrun
    rw [answer_run]
    rcases hparse : RunOptions.parse args with e | o
    · rw [run_of_error hparse]
      simp
    · rw [run_of_ok hparse]
      by_cases hfaults : (Demo.run o).faults = [] <;> simp [hfaults]
  by_cases hfixed : command ∈ fixedCommands
  · obtain ⟨stdout, hanswer⟩ := exists_answer_of_fixed hfixed
    rw [hanswer args]
    simp [hrun, hfixed]
  · rw [answer_of_unknown hrun hfixed]
    simp [hrun, hfixed]

/-! ### The main result -/

/-- **The streams and the status tell what was executed.**  The status is `2` if and only if the
arguments ask for a run that has faults, `1` if and only if they ask for nothing that there is, or
for a run with options that are wrong, and otherwise `0`.

A run whose options can be read writes its lines to the first stream and a line for each fault to
the second, in order, and nothing else; each stream falls into just these lines.  If its options
are rejected, it is for the first bad item, and nothing is written but what is wrong with it and how
a run is asked for.  No argument after another command that there is changes the answer. -/
theorem answer_classified (argv : List String) :
    ((answer argv).status = 2 ↔ RunsIntoFaults argv) ∧
    ((answer argv).status = 1 ↔ Misused argv) ∧
    ((answer argv).status = 0 ↔ ¬ RunsIntoFaults argv ∧ ¬ Misused argv) ∧
    (∀ args o, argv = "run" :: args → RunOptions.parse args = .ok o →
      (answer argv).stdout = linesText (Demo.run o).actions ∧
      lineParts (answer argv).stdout = (Demo.run o).actions ++ [""] ∧
      (answer argv).stderr = linesText ((Demo.run o).faults.map faultLine) ∧
      lineParts (answer argv).stderr = (Demo.run o).faults.map faultLine ++ [""]) ∧
    (∀ args e, argv = "run" :: args → RunOptions.parse args = .error e →
      RunOptions.FirstBad args e ∧
      (answer argv).stdout = "" ∧
      (answer argv).stderr = linesText ["error: " ++ e.message, runUsage]) ∧
    ∀ command args args', command ∈ fixedCommands → argv = command :: args →
      answer (command :: args') = answer argv := by
  have hstatus := status_answer argv
  refine ⟨?_, ?_, ?_, ?_, ?_, ?_⟩
  · rcases hstatus with ⟨h, hfaults, -⟩ | ⟨h, hnot, -⟩ | ⟨h, hnot, -⟩ <;> simp [*]
  · rcases hstatus with ⟨h, -, hused⟩ | ⟨h, -, hmisused⟩ | ⟨h, -, hused⟩ <;> simp [*]
  · rcases hstatus with ⟨h, hfaults, -⟩ | ⟨h, -, hmisused⟩ | ⟨h, hnot, hused⟩ <;> simp [*]
  · rintro args o rfl ho
    rw [answer_run, run_of_ok ho]
    refine ⟨rfl, lineParts_linesText fun text => endFree_of_mem_actions, rfl,
      lineParts_linesText ?_⟩
    exact List.forall_mem_map.mpr fun f => endFree_of_mem_faults
  · rintro args e rfl he
    rw [answer_run, run_of_error he]
    exact ⟨RunOptions.parse_eq_error_iff.mp he, rfl, rfl⟩
  · rintro command args args' hfixed rfl
    obtain ⟨stdout, hanswer⟩ := exists_answer_of_fixed hfixed
    rw [hanswer, hanswer]

/-- A run that halts at its first fault, one whose last binding has no text, and an argument after
a command that takes none. -/
theorem answer_classified_halted_and_rejected :
    let faulty := ["--set", "R1=true", "--halt-on-fault"]
    let bad := ["--halt-on-fault", "--set"]
    RunOptions.parse faulty = .ok ⟨[(⟨1⟩, .bool true)], .halt⟩ ∧
      (answer ("run" :: faulty)).status = 2 ∧
      (answer ("run" :: faulty)).stdout = "" ∧
      (answer ("run" :: faulty)).stderr = "fault: invalid expression: type mismatch: " ++
        "operator `>` cannot be applied to bool and number\n" ∧
      RunOptions.parse bad = .error (.missingValue "--set") ∧
      RunOptions.FirstBad bad (.missingValue "--set") ∧
      (answer ("run" :: bad)).status = 1 ∧
      (answer ("run" :: bad)).stderr = "error: missing value for `--set`\n" ++ runUsage ++ "\n" ∧
      "describe" ∈ fixedCommands ∧
      answer ["describe", "--set"] = answer ["describe"] := by
  intro faulty bad
  have hfaulty : RunOptions.parse faulty = .ok ⟨[(⟨1⟩, .bool true)], .halt⟩ := rfl
  have hbad : RunOptions.parse bad = .error (.missingValue "--set") := rfl
  have hdescribe : "describe" ∈ fixedCommands := List.mem_cons_self
  obtain ⟨htwo, -, -, hrun, -, -⟩ := answer_classified ("run" :: faulty)
  obtain ⟨hstdout, -, hstderr, -⟩ := hrun faulty _ rfl hfaulty
  obtain ⟨-, hone, -, -, hrejected, -⟩ := answer_classified ("run" :: bad)
  obtain ⟨hfirst, -, hmessage⟩ := hrejected bad _ rfl hbad
  obtain ⟨-, -, -, -, -, hfixed⟩ := answer_classified ["describe"]
  refine ⟨hfaulty, htwo.mpr ⟨faulty, _, rfl, hfaulty, by decide +kernel⟩,
    hstdout.trans (by decide +kernel), hstderr.trans (by decide +kernel), hbad, hfirst,
    hone.mpr (.inr (.inr ⟨bad, _, rfl, hbad⟩)), hmessage.trans (by decide +kernel), hdescribe, ?_⟩
  exact hfixed "describe" [] ["--set"] hdescribe rfl

end ParametricPlan.CommandLine
