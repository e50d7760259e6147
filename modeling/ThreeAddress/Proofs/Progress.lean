import Mathlib.Algebra.GroupWithZero.Nat
import ThreeAddress.Command.Run
import ThreeAddress.Proofs.Acceptance
import ThreeAddress.Proofs.Reuse

/-!
How a run goes on.  A run that stops early has met a format, an input or an
output that is no good; every other run has compiled all units and has put out
all of them, and its tally is the sum of what each unit adds on its own,
although one pipeline serves for all of them.
-/

namespace ThreeAddress

/-- Whether a failure is a verdict on what was found, and not an obstacle that
has stopped the run. -/
def Failure.isVerdict : Failure → Bool
  | .errorsFound _ => true
  | .warningsDenied _ => true
  | _ => false

/-- A run that has met no obstacle. -/
def Outcome.Completed (outcome : Outcome) : Prop :=
  ∀ failure ∈ outcome.failure, failure.isVerdict = true

namespace CompilationUnit

variable (unit : CompilationUnit)

/-- The text that a unit is put out as, compiled alone. -/
def rendered (format : Format) : String :=
  (compile unit.contents).render format

/-- The number of errors that are reported in a unit, compiled alone. -/
def errorCount : Nat :=
  (compile unit.contents).analysis.diagnostics.countP fun diagnostic =>
    diagnostic.kind ≠ .unusedVariable

/-- The number of variables that are reported to be unused in a unit, compiled
alone. -/
def unusedCount : Nat :=
  (compile unit.contents).analysis.diagnostics.countP fun diagnostic =>
    diagnostic.kind = .unusedVariable

end CompilationUnit

namespace Options

/-- The notes on units, each compiled alone. -/
def allNotes (options : Options) (format : Format)
    (units : List CompilationUnit) : List String :=
  units.flatMap fun unit => options.notes format unit (compile unit.contents)

/-- What goes to standard output for units, each compiled alone. -/
def allOutput (options : Options) (format : Format)
    (units : List CompilationUnit) : String :=
  match options.output with
  | none =>
      String.join (units.map fun unit =>
        options.heading unit ++ unit.rendered format)
  | some _ => ""

/-- A tally with what units add to it, each compiled alone. -/
def tallied (options : Options) (format : Format) (units : List CompilationUnit)
    (tally : Tally) : Tally where
  notes := tally.notes ++ options.allNotes format units
  output := tally.output ++ options.allOutput format units
  errors := tally.errors + (units.map CompilationUnit.errorCount).sum
  warnings := tally.warnings + (units.map CompilationUnit.unusedCount).sum

theorem tallied_nil (options : Options) (format : Format) (tally : Tally) :
    options.tallied format [] tally = tally := by
  rcases houtput : options.output with _ | output <;>
    simp [tallied, allNotes, allOutput, houtput]

/-- A unit is counted in with the numbers of its errors and of its unused
variables. -/
theorem count_eq (options : Options) (format : Format) (unit : CompilationUnit)
    (tally : Tally) :
    options.count format unit (compile unit.contents) tally =
      { tally with
        notes := tally.notes ++ options.allNotes format [unit]
        errors := tally.errors + unit.errorCount
        warnings := tally.warnings + unit.unusedCount } := by
  have hwarning : Diagnostic.isWarning =
      fun diagnostic => decide (diagnostic.kind = .unusedVariable) :=
    funext fun diagnostic => Bool.eq_iff_iff.mpr
      (Diagnostic.Kind.isWarning_iff.trans decide_eq_true_iff.symm)
  simp [count, allNotes, Analysis.errors, Analysis.warnings, hwarning,
    CompilationUnit.errorCount, CompilationUnit.unusedCount,
    List.countP_eq_length_filter]

/-- Units are counted in one after another. -/
theorem tallied_cons (options : Options) (format : Format)
    (unit : CompilationUnit) (rest : List CompilationUnit) (tally : Tally) :
    options.tallied format (unit :: rest) tally =
      options.tallied format rest
        { options.count format unit (compile unit.contents) tally with
          output := tally.output ++ options.allOutput format [unit] } := by
  rw [count_eq]
  rcases houtput : options.output with _ | output <;>
    simp [tallied, allNotes, allOutput, houtput, Nat.add_assoc,
      String.append_assoc]

end Options

/-- A computation on a state hands its result and its state over to the next. -/
theorem run_bind {σ α β : Type} (first : StateM σ α) (next : α → StateM σ β)
    (state : σ) : (first >>= next).run state =
      (next (first.run state).1).run (first.run state).2 :=
  rfl

namespace Store

section Steps

variable {σ : Type} (store : Store (StateM σ)) (options : Options)
  (format : Format) (pipeline : Pipeline) (tally : Tally)
  (unit : CompilationUnit) (rest : List CompilationUnit) (state : σ)

/-- Without an output path, the text of a unit is added to the tally. -/
theorem putOut_cons_of_none (houtput : options.output = none) :
    store.putOut options format pipeline tally (unit :: rest) =
      store.putOut options format (pipeline.compile unit.contents).2
        { options.count format unit (compile unit.contents) tally with
          output := tally.output ++ options.allOutput format [unit] }
        rest := by
  rw [putOut, houtput]
  simp [Pipeline.compile_eq, Options.count, Options.allOutput, houtput,
    CompilationUnit.rendered, String.append_assoc]

/-- With an output path, the text of a unit is written before the next unit is
compiled. -/
theorem run_putOut_cons_of_some {output : Path}
    (houtput : options.output = some output) :
    (store.putOut options format pipeline tally (unit :: rest)).run state =
      match (store.save (Options.target format output unit)
          (unit.rendered format)).run state with
      | (.error failure, after) =>
          ((options.count format unit (compile unit.contents) tally,
            some failure), after)
      | (.ok (), after) =>
          (store.putOut options format (pipeline.compile unit.contents).2
            (options.count format unit (compile unit.contents) tally)
            rest).run after := by
  rw [putOut, houtput]
  simp only [Pipeline.compile_eq, run_bind, CompilationUnit.rendered]
  rcases (store.save (Options.target format output unit)
    ((compile unit.contents).render format)).run state with ⟨_ | _, after⟩ <;> rfl

theorem run_makeRoom (path : Path) :
    (store.makeRoom path).run state =
      match path.parent? with
      | none => (.ok (), state)
      | some parent =>
          if parent.text.isEmpty then (.ok (), state)
          else
            match (store.createDirectories parent).run state with
            | (.error cause, after) =>
                (.error (.directoryNotCreated parent cause), after)
            | (.ok (), after) => (.ok (), after) := by
  rw [makeRoom]
  rcases path.parent? with _ | parent
  · rfl
  · by_cases hempty : parent.text.isEmpty = true
    · simp only [hempty]
      rfl
    · dsimp only
      rw [if_neg hempty, if_neg hempty, run_bind]
      rcases (store.createDirectories parent).run state with ⟨_ | _, after⟩ <;>
        rfl

theorem run_save (path : Path) (contents : String) :
    (store.save path contents).run state =
      match (store.makeRoom path).run state with
      | (.error failure, after) => (.error failure, after)
      | (.ok (), middle) =>
          match (store.write path contents.toUTF8).run middle with
          | (.error cause, after) =>
              (.error (.outputNotWritten path cause), after)
          | (.ok (), after) => (.ok (), after) := by
  rw [save, run_bind]
  rcases (store.makeRoom path).run state with ⟨_ | _, middle⟩
  · rfl
  · dsimp only
    rw [run_bind]
    rcases (store.write path contents.toUTF8).run middle with ⟨_ | _, after⟩ <;>
      rfl

theorem run_readText (path : Path) :
    (store.readText path).run state =
      match (store.read path).run state with
      | (.error cause, after) => (.error cause, after)
      | (.ok contents, after) => (decodeText contents, after) := by
  rw [readText, run_bind]
  rcases (store.read path).run state with ⟨_ | _, after⟩ <;> rfl

theorem run_readSources_cons (root : Path) (names : List String)
    (others : List (List String)) :
    (store.readSources root (names :: others)).run state =
      match (store.readText (root.below names)).run state with
      | (.error cause, after) => (.error (.unreadableSource cause), after)
      | (.ok contents, middle) =>
          match (store.readSources root others).run middle with
          | (.error failure, after) => (.error failure, after)
          | (.ok files, after) => (.ok (⟨names, contents⟩ :: files), after) := by
  rw [readSources, run_bind]
  rcases (store.readText (root.below names)).run state with ⟨_ | _, middle⟩
  · rfl
  · dsimp only
    rw [run_bind]
    rcases (store.readSources root others).run middle with ⟨_ | _, after⟩ <;> rfl

/-- The source files are found, read and then sorted. -/
theorem run_sources (root : Path) (extension : String) :
    (store.sources root extension).run state =
      match (store.isPresent root).run state with
      | (false, after) => (.error (.missingSource root), after)
      | (true, present) =>
          let (found, middle) := (store.files root).run present
          match (store.readSources root (found.filter
              (SourceFile.hasExtension root extension))).run middle with
          | (.error failure, after) => (.error failure, after)
          | (.ok files, after) =>
              (.ok (files.mergeSort SourceFile.precedes), after) := by
  rw [sources, run_bind]
  rcases (store.isPresent root).run state with ⟨_ | _, present⟩
  · rfl
  · dsimp only
    rw [if_pos rfl, run_bind]
    rcases (store.files root).run present with ⟨found, middle⟩
    dsimp only
    rw [run_bind]
    rcases (store.readSources root (found.filter
      (SourceFile.hasExtension root extension))).run middle with
        ⟨_ | _, after⟩ <;> rfl

/-- The units are standard input, a file, or the source files of a
directory. -/
theorem run_units :
    (store.units options).run state =
      match options.input with
      | none =>
          let (contents, after) := store.standardInput.run state
          match decodeText contents with
          | .error cause => (.error (.unreadableStandardInput cause), after)
          | .ok text => (.ok [⟨none, text⟩], after)
      | some path =>
          match (store.isDirectory path).run state with
          | (true, middle) =>
              match (store.sources path options.extension).run middle with
              | (.error failure, after) => (.error failure, after)
              | (.ok files, after) =>
                  (.ok (files.map fun file =>
                    ⟨some file.path, file.contents⟩), after)
          | (false, middle) =>
              match (store.readText path).run middle with
              | (.error cause, after) =>
                  (.error (.unreadableInput path cause), after)
              | (.ok text, after) => (.ok [⟨none, text⟩], after) := by
  rw [units]
  rcases options.input with _ | path
  · dsimp only
    rw [run_bind]
    rcases store.standardInput.run state with ⟨contents, after⟩
    dsimp only
    rcases decodeText contents <;> rfl
  · dsimp only
    rw [run_bind]
    rcases (store.isDirectory path).run state with ⟨_ | _, middle⟩
    · dsimp only
      rw [if_neg (by decide), run_bind]
      rcases (store.readText path).run middle with ⟨_ | _, after⟩ <;> rfl
    · dsimp only
      rw [if_pos rfl, run_bind]
      rcases (store.sources path options.extension).run middle with
        ⟨_ | _, after⟩ <;> rfl

theorem run_run :
    (store.run options).run state =
      match Format.ofName? options.emit with
      | none => (.failed (.unsupportedFormat options.emit), state)
      | some format =>
          match (store.units options).run state with
          | (.error failure, after) => (.failed failure, after)
          | (.ok units, middle) =>
              match (store.putOut options format {} {} units).run middle with
              | ((tally, some failure), after) =>
                  (⟨tally.notes, "", some failure⟩, after)
              | ((tally, none), after) =>
                  (⟨tally.notes, tally.output, options.verdict tally⟩,
                    after) := by
  rw [run]
  rcases Format.ofName? options.emit with _ | format
  · rfl
  · dsimp only
    rw [run_bind]
    rcases (store.units options).run state with ⟨_ | units, middle⟩
    · rfl
    · dsimp only
      rw [run_bind]
      rcases (store.putOut options format {} {} units).run middle with
        ⟨⟨tally, _ | failure⟩, after⟩ <;> rfl

end Steps

variable {σ : Type} {store : Store (StateM σ)} {options : Options}
  {format : Format} {pipeline : Pipeline} {tally last : Tally}
  {units : List CompilationUnit} {state after : σ}

/-- If all units are put out with an output path, the first is saved and then
the others are put out. -/
theorem exists_of_putOut_cons {unit : CompilationUnit}
    {rest : List CompilationUnit} {output : Path}
    (houtput : options.output = some output)
    (hrun : (store.putOut options format pipeline tally (unit :: rest)).run
      state = ((last, none), after)) :
    ∃ middle, (store.save (Options.target format output unit)
        (unit.rendered format)).run state = (.ok (), middle) ∧
      (store.putOut options format (pipeline.compile unit.contents).2
        (options.count format unit (compile unit.contents) tally) rest).run
          middle = ((last, none), after) := by
  rw [run_putOut_cons_of_some _ _ _ _ _ _ _ _ houtput] at hrun
  split at hrun
  · cases hrun
  · rename_i middle hsaved
    exact ⟨middle, hsaved, hrun⟩

/-- If all units are put out, the tally is what each adds to it alone. -/
theorem putOut_tally
    (hrun : (store.putOut options format pipeline tally units).run state =
      ((last, none), after)) : last = options.tallied format units tally := by
  induction units generalizing pipeline tally state with
  | nil =>
      rw [Options.tallied_nil]
      exact (congrArg (fun result => result.1.1) hrun).symm
  | cons unit rest ih =>
      rcases houtput : options.output with _ | output
      · rw [putOut_cons_of_none _ _ _ _ _ _ _ houtput] at hrun
        rw [Options.tallied_cons]
        exact ih hrun
      · obtain ⟨middle, -, hrest⟩ := exists_of_putOut_cons houtput hrun
        rw [ih hrest, Options.tallied_cons]
        simp [Options.allOutput, houtput, Options.count]

/-! What stops a run early is an obstacle and no verdict. -/

theorem save_obstacle {path : Path} {contents : String} {failure : Failure}
    (hrun : (store.save path contents).run state = (.error failure, after)) :
    failure.isVerdict = false := by
  rw [run_save, run_makeRoom] at hrun
  split at hrun
  · rename_i hroom
    cases hrun
    split at hroom
    · cases hroom
    · split at hroom
      · cases hroom
      · split at hroom
        · cases hroom
          rfl
        · cases hroom
  · split at hrun
    · cases hrun
      rfl
    · cases hrun

theorem putOut_obstacle {failure : Failure}
    (hrun : (store.putOut options format pipeline tally units).run state =
      ((last, some failure), after)) : failure.isVerdict = false := by
  induction units generalizing pipeline tally state with
  | nil => cases hrun
  | cons unit rest ih =>
      rcases houtput : options.output with _ | output
      · rw [putOut_cons_of_none _ _ _ _ _ _ _ houtput] at hrun
        exact ih hrun
      · rw [run_putOut_cons_of_some _ _ _ _ _ _ _ _ houtput] at hrun
        split at hrun
        · rename_i hsaved
          cases hrun
          exact save_obstacle hsaved
        · exact ih hrun

theorem readSources_obstacle {root : Path} {chosen : List (List String)}
    {failure : Failure}
    (hrun : (store.readSources root chosen).run state =
      (.error failure, after)) : failure.isVerdict = false := by
  induction chosen generalizing state with
  | nil => cases hrun
  | cons names others ih =>
      rw [run_readSources_cons] at hrun
      split at hrun
      · cases hrun
        rfl
      · split at hrun
        · rename_i hothers
          cases hrun
          exact ih hothers
        · cases hrun

theorem sources_obstacle {root : Path} {extension : String}
    {failure : Failure}
    (hrun : (store.sources root extension).run state =
      (.error failure, after)) : failure.isVerdict = false := by
  rw [run_sources] at hrun
  split at hrun
  · cases hrun
    rfl
  · split at hrun
    split at hrun
    · rename_i hread
      cases hrun
      exact readSources_obstacle hread
    · cases hrun

theorem units_obstacle {failure : Failure}
    (hrun : (store.units options).run state = (.error failure, after)) :
    failure.isVerdict = false := by
  rw [run_units] at hrun
  split at hrun
  · split at hrun
    split at hrun
    · cases hrun
      rfl
    · cases hrun
  · split at hrun
    · split at hrun
      · rename_i hsources
        cases hrun
        exact sources_obstacle hsources
      · cases hrun
    · split at hrun
      · cases hrun
        rfl
      · cases hrun

/-- A run that has met no obstacle knows its format, has read its units, has put
out all of them and has passed its verdict on the tally. -/
theorem exists_of_completed
    (hcompleted : ((store.run options).run state).1.Completed) :
    ∃ format units middle after,
      Format.ofName? options.emit = some format ∧
      (store.units options).run state = (.ok units, middle) ∧
      (store.putOut options format {} {} units).run middle =
        ((options.tallied format units {}, none), after) ∧
      (store.run options).run state =
        (⟨options.allNotes format units, options.allOutput format units,
          options.verdict (options.tallied format units {})⟩, after) := by
  have hrun := run_run store options state
  rcases hformat : Format.ofName? options.emit with _ | format
  · simp only [hformat] at hrun
    rw [hrun] at hcompleted
    cases hcompleted _ rfl
  · rcases hunits : (store.units options).run state with ⟨failure | units, middle⟩
    · simp only [hformat, hunits] at hrun
      rw [hrun] at hcompleted
      have hverdict := hcompleted failure rfl
      rw [units_obstacle hunits] at hverdict
      contradiction
    · rcases hput : (store.putOut options format {} {} units).run middle with
        ⟨⟨tally, _ | failure⟩, after⟩
      · obtain rfl := putOut_tally hput
        refine ⟨format, units, middle, after, rfl, rfl, hput, ?_⟩
        simp only [hformat, hunits, hput] at hrun
        rw [hrun]
        simp [Options.tallied]
      · simp only [hformat, hunits, hput] at hrun
        rw [hrun] at hcompleted
        have hverdict := hcompleted failure rfl
        rw [putOut_obstacle hput] at hverdict
        contradiction

theorem run_execute {arguments : List String}
    (hrequest : Options.ofArguments arguments = .run options) :
    (store.execute arguments).run state =
      (((store.run options).run state).1.report,
        ((store.run options).run state).2) := by
  rw [execute, hrequest]
  rfl

end Store

end ThreeAddress
