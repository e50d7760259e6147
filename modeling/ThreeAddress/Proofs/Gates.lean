import ThreeAddress.Proofs.Progress

/-!
The gates of a run: failing on errors and failing on warnings.  They decide on
the verdict that comes after everything has been put out, and on nothing else;
on the command line they can be added and removed without a change to what the
other arguments say.
-/

namespace ThreeAddress

namespace Options

def gated (options : Options) (check deny : Bool) : Options :=
  { options with check := check, denyWarnings := deny }

def isGate (argument : String) : Bool :=
  argument == "--check" || argument == "--deny-warnings"

def withoutGates (arguments : List String) : List String :=
  arguments.filter fun argument => !isGate argument

def gates (check deny : Bool) : List String :=
  (if check then ["--check"] else []) ++
    if deny then ["--deny-warnings"] else []

def Given.gated (given : Given) (check deny : Bool) : Given :=
  { given with check := check, denyWarnings := deny }

/-- What an argument leads to, with other gates. -/
def Progress.gated (check deny : Bool) : Progress → Progress
  | .more given => .more (given.gated check deny)
  | .wants field given => .wants field (given.gated check deny)
  | .help => .help
  | .version => .version
  | .misuse => .misuse

theorem Given.set?_gated (given : Given) (check deny : Bool) (field : Field)
    (value : String) : (given.gated check deny).set? field value =
      (given.set? field value).map fun next => next.gated check deny := by
  rcases field <;> simp only [Given.set?, Given.gated] <;> split <;> simp_all

theorem valued_gated (given : Given) (check deny : Bool) (field : Field)
    (value : Option String) : valued (given.gated check deny) field value =
      (valued given field value).gated check deny := by
  rcases value with _ | value
  · rfl
  · rw [valued, valued, Given.set?_gated]
    rcases given.set? field value <;> rfl

theorem short_gated (given : Given) (check deny : Bool) (letters : List Char) :
    short (given.gated check deny) letters =
      (short given letters).gated check deny := by
  fun_induction short given letters with
  | case1 => rfl
  | case2 rest ih => exact ih
  | case3 => rfl
  | case4 => rfl
  | case5 rest => exact valued_gated given check deny .input (attached rest)
  | case6 rest => exact valued_gated given check deny .output (attached rest)
  | case7 letters hnil hverbose hhelp hversion hinput houtput =>
      rw [short]
      · rfl
      all_goals assumption

/-- An argument with the name of a gate that does not set it has a value. -/
theorem exists_value {name : List Char} {word : String}
    (hname : String.ofList (name.takeWhile (· != '=')) = word)
    (hgate : String.ofList ('-' :: '-' :: name) ≠ "--" ++ word) :
    ∃ sign rest, name.dropWhile (· != '=') = sign :: rest := by
  rcases hdrop : name.dropWhile (· != '=') with _ | ⟨sign, rest⟩
  · have htake : name.takeWhile (· != '=') = name := by
      simpa [hdrop] using List.takeWhile_append_dropWhile (p := (· != '=')) (l := name)
    refine absurd ?_ hgate
    rw [← hname, htake, ← String.toList_inj]
    simp
  · exact ⟨sign, rest, rfl⟩

/-- Arguments that set no gate mean the same whatever gates are set. -/
theorem long_gated (given : Given) (check deny : Bool) {name : List Char}
    (hgate : isGate (String.ofList ('-' :: '-' :: name)) = false) :
    long (given.gated check deny) name = (long given name).gated check deny := by
  simp only [isGate, Bool.or_eq_false_iff, beq_eq_false_iff_ne] at hgate
  simp only [long]
  split
  · exact valued_gated given check deny .input _
  · exact valued_gated given check deny .output _
  · exact valued_gated given check deny .emit _
  · exact valued_gated given check deny .extension _
  · rename_i hname
    obtain ⟨sign, rest, hdrop⟩ := exists_value hname hgate.1
    rw [hdrop]
    rfl
  · rename_i hname
    obtain ⟨sign, rest, hdrop⟩ := exists_value hname hgate.2
    rw [hdrop]
    rfl
  · split <;> rfl
  · split <;> rfl
  · split <;> rfl
  · rfl

theorem argument_gated (given : Given) (check deny : Bool) {text : String}
    (hgate : isGate text = false) : argument (given.gated check deny) text =
      (argument given text).gated check deny := by
  simp only [argument]
  split
  · rename_i name htext
    rw [← String.ofList_toList (s := text), htext] at hgate
    exact long_gated given check deny hgate
  · exact short_gated given check deny _
  · rfl

/-- An argument that sets a gate changes that gate only, and is misused if the
gate is set already. -/
theorem argument_of_isGate (given : Given) {text : String}
    (hgate : isGate text = true) :
    argument given text = .misuse ∨
      ∃ next, argument given text = .more next ∧
        ∀ check deny, next.gated check deny = given.gated check deny := by
  simp only [isGate, Bool.or_eq_true, beq_iff_eq] at hgate
  rcases hgate with rfl | rfl
  · by_cases hset : given.check = true
    · exact Or.inl (if_pos hset)
    · exact Or.inr ⟨_, if_neg hset, fun _ _ => rfl⟩
  · by_cases hset : given.denyWarnings = true
    · exact Or.inl (if_pos hset)
    · exact Or.inr ⟨_, if_neg hset, fun _ _ => rfl⟩

theorem isGate_of_isValue {text : String} (hvalue : isValue text = true) :
    isGate text = false := by
  refine Bool.eq_false_iff.mpr fun hgate => ?_
  simp only [isGate, Bool.or_eq_true, beq_iff_eq] at hgate
  rcases hgate with rfl | rfl <;> exact absurd hvalue (by decide)

theorem withoutGates_cons_of_isGate {text : String} (rest : List String)
    (hgate : isGate text = true) :
    withoutGates (text :: rest) = withoutGates rest :=
  List.filter_cons_of_neg (by simp [hgate])

theorem withoutGates_cons {text : String} (rest : List String)
    (hgate : isGate text = false) :
    withoutGates (text :: rest) = text :: withoutGates rest :=
  List.filter_cons_of_pos (by simp [hgate])

/-- With the arguments that set gates removed, and other gates set beforehand,
arguments say the same but for the gates. -/
theorem read_withoutGates {given : Given} {arguments : List String}
    {options : Options} (hread : read given arguments = .run options)
    (check deny : Bool) :
    read (given.gated check deny) (withoutGates arguments) =
      .run (options.gated check deny) := by
  fun_induction read given arguments with
  | case1 given =>
      cases hread
      rfl
  | case2 given others hnone =>
      obtain rfl := List.isEmpty_iff.mp hnone
      cases hread
      rfl
  | case4 given first rest hfirst next hmore ih =>
      by_cases hgate : isGate first = true
      · rw [withoutGates_cons_of_isGate rest hgate]
        rcases argument_of_isGate given hgate with hmisuse | ⟨other, hother, hsame⟩
        · cases hmore.symm.trans hmisuse
        · cases hmore.symm.trans hother
          rw [← hsame]
          exact ih hread
      · rw [Bool.not_eq_true] at hgate
        rw [withoutGates_cons rest hgate, read, if_neg hfirst,
          argument_gated given check deny hgate, hmore]
        exact ih hread
  | case6 given first hfirst field next hwants value others hvalue filled hset ih =>
      have hgate : isGate first = false := by
        refine Bool.eq_false_iff.mpr fun hgate => ?_
        rcases argument_of_isGate given hgate with hmisuse | ⟨other, hother, -⟩
        · cases hwants.symm.trans hmisuse
        · cases hwants.symm.trans hother
      rw [withoutGates_cons _ hgate,
        withoutGates_cons _ (isGate_of_isValue hvalue), read, if_neg hfirst,
        argument_gated given check deny hgate, hwants]
      simp only [Progress.gated, hvalue, if_true, Given.set?_gated, hset,
        Option.map_some]
      exact ih hread
  | _ => cases hread

/-- Gates can be added to arguments that set none. -/
theorem ofArguments_gates {arguments : List String} {options : Options}
    (hrequest : ofArguments arguments = .run options) (check deny : Bool) :
    ofArguments (gates check deny ++ withoutGates arguments) =
      .run (options.gated check deny) := by
  rw [← read_withoutGates hrequest check deny]
  rcases check <;> rcases deny <;> rfl

end Options

/-- The last line on standard error: on the errors if failing on them was asked
for and there are some, else on the warnings, likewise. -/
def verdictLine (check deny : Bool) (errors warnings : Nat) : String :=
  if check ∧ 0 < errors then
    "Error: compilation reported " ++ errors.repr ++ " error(s)\n"
  else if deny ∧ 0 < warnings then
    "Error: compilation reported " ++ warnings.repr ++
      " warning(s) and warnings are denied\n"
  else ""

theorem Failure.report_errorsFound (count : Nat) :
    (Failure.errorsFound count).report =
      "Error: compilation reported " ++ count.repr ++ " error(s)\n" := by
  change "Error: " ++ ("compilation reported " ++ count.repr ++ " error(s)") ++
    "\n" ++ "" = _
  rw [← String.toList_inj]
  simp

theorem Failure.report_warningsDenied (count : Nat) :
    (Failure.warningsDenied count).report =
      "Error: compilation reported " ++ count.repr ++
        " warning(s) and warnings are denied\n" := by
  change "Error: " ++ ("compilation reported " ++ count.repr ++
    " warning(s) and warnings are denied") ++ "\n" ++ "" = _
  rw [← String.toList_inj]
  simp

theorem Options.verdict_gated (options : Options) (check deny : Bool)
    (tally : Tally) : (options.gated check deny).verdict tally =
      if check ∧ 0 < tally.errors then some (.errorsFound tally.errors)
      else if deny ∧ 0 < tally.warnings then
        some (.warningsDenied tally.warnings)
      else none := by
  simp only [Options.verdict, Options.gated, Bool.and_eq_true,
    decide_eq_true_eq]

/-- The report of a run that passes a verdict shows it in its exit code and in
its last line. -/
theorem Outcome.report_verdict (options : Options) (check deny : Bool)
    (notes : List String) (output : String) (tally : Tally) :
    (Outcome.mk notes output ((options.gated check deny).verdict tally)).report =
      ⟨if check ∧ 0 < tally.errors ∨ deny ∧ 0 < tally.warnings then 1 else 0,
        output,
        listing notes ++
          verdictLine check deny tally.errors tally.warnings⟩ := by
  rw [Options.verdict_gated, verdictLine]
  by_cases herrors : check = true ∧ 0 < tally.errors
  · rw [if_pos herrors, if_pos herrors, if_pos (Or.inl herrors),
      ← Failure.report_errorsFound]
    rfl
  · by_cases hwarnings : deny = true ∧ 0 < tally.warnings
    · rw [if_neg herrors, if_neg herrors, if_pos hwarnings, if_pos hwarnings,
        if_pos (Or.inr hwarnings), ← Failure.report_warningsDenied]
      rfl
    · rw [if_neg herrors, if_neg herrors, if_neg hwarnings, if_neg hwarnings,
        if_neg (not_or.mpr ⟨herrors, hwarnings⟩), String.append_empty]
      rfl

namespace Store

section Gated

variable {m : Type → Type} [Monad m] (store : Store m) (options : Options)
  (check deny : Bool)

theorem units_gated :
    store.units (options.gated check deny) = store.units options :=
  rfl

/-- No step of putting out depends on the gates. -/
theorem putOut_gated (format : Format) (pipeline : Pipeline) (tally : Tally)
    (units : List CompilationUnit) :
    store.putOut (options.gated check deny) format pipeline tally units =
      store.putOut options format pipeline tally units := by
  induction units generalizing pipeline tally with
  | nil => rfl
  | cons unit rest ih =>
      simp only [putOut, ih]
      rfl

end Gated

/-- A run that meets no obstacle meets none with other gates, and then differs
in the verdict only. -/
theorem run_gated {σ : Type} {store : Store (StateM σ)} {options : Options}
    {state : σ} (hcompleted : ((store.run options).run state).1.Completed) :
    ∃ format units middle after,
      Format.ofName? options.emit = some format ∧
      (store.units options).run state = (.ok units, middle) ∧
      ∀ check deny, (store.run (options.gated check deny)).run state =
        (⟨options.allNotes format units, options.allOutput format units,
          (options.gated check deny).verdict
            (options.tallied format units {})⟩, after) := by
  obtain ⟨format, units, middle, after, hformat, hunits, hput, -⟩ :=
    exists_of_completed hcompleted
  refine ⟨format, units, middle, after, hformat, hunits, fun check deny => ?_⟩
  have hgated : Format.ofName? (options.gated check deny).emit = some format :=
    hformat
  rw [run_run, hgated]
  simp only [units_gated, hunits, putOut_gated, hput]
  simp [Options.tallied]

end Store

/-- The gates decide on the verdict only.  If a command line asks for a run that
meets no obstacle, then the same command line with any gates in the place of its
own asks for the run with these gates.  All such runs leave the same files
behind, print the same on standard output, and print the same diagnostics on
standard error.  The exit code is 1 if failing on errors is asked for and some
unit has an error, or failing on warnings is asked for and some unit has an
unused variable, and 0 otherwise; and the last line tells the number of errors
in all units in the first case and that of unused variables in the second. -/
theorem gates_decide_verdict_only {σ : Type} (store : Store (StateM σ))
    (state : σ) (arguments : List String) (options : Options)
    (hrequest : Options.ofArguments arguments = .run options)
    (hcompleted : ((store.run options).run state).1.Completed) :
    ∃ format units middle after,
      Format.ofName? options.emit = some format ∧
      (store.units options).run state = (.ok units, middle) ∧
      (∀ check deny, Options.ofArguments
        (Options.gates check deny ++ Options.withoutGates arguments) =
          .run (options.gated check deny)) ∧
      ∀ check deny others,
        Options.ofArguments others = .run (options.gated check deny) →
        (store.execute others).run state =
          (⟨if check ∧ 0 < (units.map CompilationUnit.errorCount).sum ∨
              deny ∧ 0 < (units.map CompilationUnit.unusedCount).sum
            then 1 else 0,
            options.allOutput format units,
            listing (options.allNotes format units) ++
              verdictLine check deny
                (units.map CompilationUnit.errorCount).sum
                (units.map CompilationUnit.unusedCount).sum⟩,
            after) := by
  obtain ⟨format, units, middle, after, hformat, hunits, hrun⟩ :=
    Store.run_gated hcompleted
  refine ⟨format, units, middle, after, hformat, hunits,
    Options.ofArguments_gates hrequest, ?_⟩
  intro check deny others hothers
  rw [Store.run_execute hothers, hrun check deny,
    Outcome.report_verdict]
  simp [Options.tallied]

/-- A file with an error and an unused variable fails on the one or on the
other, and leaves the same files and the same standard output behind. -/
theorem gates_decide_verdict_only_of_file :
    let store := Store.memory ByteArray.empty
    let tree : FileTree := ⟨[(["a.mc"], .file "int x; y = 1;".toUTF8)], []⟩
    let options : Options :=
      { input := some ⟨.relative, ["a.mc"]⟩
        output := some ⟨.relative, ["out", "a.ir"]⟩
        check := true }
    let checking := ["-i", "a.mc", "--check", "-o", "out/a.ir"]
    let denying := ["-i", "a.mc", "-o", "out/a.ir", "--deny-warnings"]
    Options.ofArguments checking = .run options ∧
      ((store.run options).run tree).1.Completed ∧
      ((store.execute checking).run tree).2 =
        ((store.execute denying).run tree).2 ∧
      ((store.execute checking).run tree).1.output =
        ((store.execute denying).run tree).1.output ∧
      ((store.execute denying).run tree).1.exit = 1 := by
  intro store tree options checking denying
  have hchecking : Options.ofArguments checking = .run options := by
    decide +kernel
  have hdenying : Options.ofArguments denying =
      .run (options.gated false true) := by decide +kernel
  have hfailure : ((store.run options).run tree).1.failure =
      some (.errorsFound 1) := by decide +kernel
  have hcompleted : ((store.run options).run tree).1.Completed := by
    intro failure hmem
    cases hfailure.symm.trans hmem
    rfl
  obtain ⟨format, units, middle, after, -, -, -, hruns⟩ :=
    gates_decide_verdict_only store tree checking options hchecking hcompleted
  refine ⟨hchecking, hcompleted, ?_, ?_, by decide +kernel⟩
  · rw [hruns true false checking hchecking, hruns false true denying hdenying]
  · rw [hruns true false checking hchecking, hruns false true denying hdenying]

end ThreeAddress
