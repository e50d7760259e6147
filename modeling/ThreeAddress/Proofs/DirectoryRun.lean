import ThreeAddress.Proofs.SourceFiles

/-!
Runs on a directory.  Every source file is compiled as if it were the only one,
and its text goes to a place of its own: all outputs lie below one directory, to
which the output path leads throughout the run, and there no two source files
have the same names, since replacing the one extension that they share by
another keeps them apart.
-/

namespace ThreeAddress

namespace Path

/-- The segments below which the paths to something below a path go on. -/
def trunk (path : Path) : List String :=
  if path.segments.getLast? = some "" then path.segments.dropLast
  else path.segments

theorem below_eq (path : Path) {names : List String} (hnames : names ≠ []) :
    path.below names = ⟨path.anchor, path.trunk ++ names⟩ := by
  rw [below, if_neg (by simpa using hnames), trunk]
  split <;> rfl

end Path

namespace Options

theorem outputNames_append (format : Format) (directory : List String)
    (name : String) : outputNames format (directory ++ [name]) =
      directory ++ [withExtension name format.extension] := by
  simp [outputNames]

/-- A stem with an extension is longer than the step upwards. -/
theorem stem_append_ne_up {stem : String} (format : Format)
    (hstem : stem ≠ "") : stem ++ "." ++ format.extension ≠ ".." := by
  intro heq
  have hlength := congrArg String.length heq
  have hextension : 0 < format.extension.length := by cases format <;> decide
  have hpositive : stem.length ≠ 0 := by
    simpa [String.length_eq_zero_iff] using hstem
  simp only [String.length_append] at hlength
  have hdots : "..".length = 2 ∧ ".".length = 1 := by decide
  omega

theorem stem_eq_of_withExtension {name other stem more extension : String}
    (format : Format) (hname : splitName name = (stem, some extension))
    (hother : splitName other = (more, some extension))
    (heq : withExtension name format.extension =
      withExtension other format.extension) : stem = more := by
  rw [withExtension_eq _ hname, withExtension_eq _ hother] at heq
  have hstem := stem_append_ne_up format (splitName_eq_some hname).1
  have hmore := stem_append_ne_up format (splitName_eq_some hother).1
  split at heq
  · rename_i hdot
    split at heq
    · rename_i hsame
      rw [hdot, hsame]
    · exact absurd heq.symm hmore
  · split at heq
    · exact absurd heq hstem
    · exact (String.append_left_inj _).mp ((String.append_left_inj _).mp heq)

/-- The outputs of different source files have different names. -/
theorem outputNames_injective {format : Format} {extension : String}
    {first second : List String} (hfirst : IsSourcePath extension first)
    (hsecond : IsSourcePath extension second)
    (heq : outputNames format first = outputNames format second) :
    first = second := by
  obtain ⟨directory, name, stem, rfl, -, hname⟩ := hfirst
  obtain ⟨other, more, rest, rfl, -, hmore⟩ := hsecond
  rw [outputNames_append, outputNames_append] at heq
  obtain ⟨rfl, hlast⟩ := List.append_inj' heq rfl
  have hstem := stem_eq_of_withExtension format hname hmore (by simpa using hlast)
  rw [(splitName_eq_some hname).2, (splitName_eq_some hmore).2, hstem]

end Options

/-- The text of a source file, compiled alone, is in a file below the directory
to which the output path leads, with the names of the source file but for the
extension. -/
structure Delivered (format : Format) (output : Path) (base : List String)
    (tree : FileTree) (file : SourceFile) : Prop where
  leads : tree.follow (tree.start output.anchor) output.trunk =
    .ok (.below base)
  located : tree.locate (output.below (Options.outputNames format file.path)) =
    .ok (.below (base ++ Options.outputNames format file.path))
  contents : tree.at?
    (.below (base ++ Options.outputNames format file.path)) =
      some (.file ((compile file.contents).render format).toUTF8)
  proper : ∀ name ∈ (Options.outputNames format file.path).getLast?,
    FileTree.IsProper name

namespace Delivered

variable {format : Format} {output : Path} {base : List String}
  {tree : FileTree} {file : SourceFile}

/-- A text stays where it was delivered, unless its file is written again. -/
theorem grown {after : FileTree} {written : List (List String)}
    (hdelivered : Delivered format output base tree file)
    (hgrown : FileTree.Grown written tree after)
    (hother : base ++ Options.outputNames format file.path ∉ written) :
    Delivered format output base after file where
  leads := hgrown.follow_start_eq hdelivered.leads
  located := hgrown.locate_eq hdelivered.located
  contents := by
    refine hgrown.kept _ _ hdelivered.contents fun names hmem heq => ?_
    cases heq
    exact hother hmem
  proper := hdelivered.proper

theorem read_eq (hdelivered : Delivered format output base tree file) :
    tree.read (output.below (Options.outputNames format file.path)) =
      .ok ((compile file.contents).render format).toUTF8 :=
  FileTree.read_of_locate hdelivered.located hdelivered.contents

/-- A delivered text has the names of the source file, but for the one extension
in place of the other: a step upwards names no file, so the stem is no dot. -/
theorem outputNames_eq {extension : String}
    (hdelivered : Delivered format output base tree file)
    (hsource : IsSourcePath extension file.path) :
    ∃ directory stem, file.path = directory ++ [stem ++ "." ++ extension] ∧
      Options.outputNames format file.path =
        directory ++ [stem ++ "." ++ format.extension] := by
  obtain ⟨directory, name, stem, hpath, -, hname⟩ := hsource
  have houtput := Options.outputNames_append format directory name
  rw [withExtension_eq _ hname, ← hpath] at houtput
  have hproper := hdelivered.proper
  rw [houtput] at hproper
  rw [if_neg] at houtput
  · refine ⟨directory, stem, ?_, houtput⟩
    rw [hpath, (splitName_eq_some hname).2]
  · intro hdot
    rw [if_pos hdot] at hproper
    exact (hproper ".." (by simp)).2 rfl

/-- Different source files are delivered to different places. -/
theorem locate_ne {found : List String} {other : SourceFile}
    {extension : String} (hdelivered : Delivered format output base tree file)
    (hother : Delivered format output found tree other)
    (hsource : IsSourcePath extension file.path)
    (hotherSource : IsSourcePath extension other.path)
    (hne : file.path ≠ other.path) :
    tree.locate (output.below (Options.outputNames format file.path)) ≠
      tree.locate (output.below (Options.outputNames format other.path)) := by
  obtain rfl : base = found := by
    have hleads := hdelivered.leads.symm.trans hother.leads
    cases hleads
    rfl
  rw [hdelivered.located, hother.located]
  intro heq
  simp only [Except.ok.injEq, Place.below.injEq, List.append_cancel_left_eq] at heq
  exact hne (Options.outputNames_injective hsource hotherSource heq)

end Delivered

def SourceFile.unit (file : SourceFile) : CompilationUnit :=
  ⟨some file.path, file.contents⟩

namespace Store

variable {input : ByteArray} {tree after : FileTree}

/-- An attempt that succeeds made its change. -/
theorem eq_ok_of_attempt {change : FileTree → Except Cause FileTree}
    (hrun : (FileTree.attempt change).run tree = (.ok (), after)) :
    change tree = .ok after := by
  rw [FileTree.attempt, run_bind, StateT.run_get] at hrun
  dsimp only [pure] at hrun
  rcases hchange : change tree with cause | changed
  · rw [hchange] at hrun
    cases hrun
  · rw [hchange] at hrun
    cases hrun
    rfl

theorem makeRoom_memory {path : Path}
    (hrun : ((memory input).makeRoom path).run tree = (.ok (), after)) :
    FileTree.Grown [] tree after := by
  rw [run_makeRoom] at hrun
  split at hrun
  · cases hrun
    exact .refl tree
  · rename_i parent _
    split at hrun
    · cases hrun
      exact .refl tree
    · rcases hcreate : ((memory input).createDirectories parent).run tree with
        ⟨cause | done, made⟩
      · rw [hcreate] at hrun
        cases hrun
      · rw [hcreate] at hrun
        cases hrun
        exact FileTree.createDirectories_grown (eq_ok_of_attempt hcreate)

theorem exists_of_save {path : Path} {contents : String}
    (hrun : ((memory input).save path contents).run tree = (.ok (), after)) :
    ∃ middle, FileTree.Grown [] tree middle ∧
      middle.write path contents.toUTF8 = .ok after := by
  rw [run_save] at hrun
  rcases hroom : ((memory input).makeRoom path).run tree with
    ⟨failure | done, middle⟩
  · rw [hroom] at hrun
    cases hrun
  · rcases hwrite : ((memory input).write path contents.toUTF8).run middle with
      ⟨cause | done, written⟩
    · simp only [hroom, hwrite] at hrun
      cases hrun
    · simp only [hroom, hwrite] at hrun
      cases hrun
      exact ⟨middle, makeRoom_memory hroom, eq_ok_of_attempt hwrite⟩

/-- A text that is saved below a path is in a file there, and nothing else
changes but for new directories. -/
theorem save_memory {output : Path} {directory : List String}
    {name contents : String}
    (hproper : ∀ segment ∈ directory, FileTree.IsProper segment)
    (hrun : ((memory input).save (output.below (directory ++ [name]))
      contents).run tree = (.ok (), after)) :
    ∃ base, after.follow (after.start output.anchor) output.trunk =
        .ok (.below base) ∧
      after.locate (output.below (directory ++ [name])) =
        .ok (.below (base ++ (directory ++ [name]))) ∧
      after.at? (.below (base ++ (directory ++ [name]))) =
        some (.file contents.toUTF8) ∧
      FileTree.IsProper name ∧
      FileTree.Grown [base ++ (directory ++ [name])] tree after := by
  obtain ⟨middle, hroom, hwrite⟩ := exists_of_save hrun
  obtain ⟨before, last, found, hsegments, hlast, hfollow, hlocate, hcontents,
    hgrown⟩ := FileTree.write_grown hwrite
  have hbelow := output.below_eq (List.append_ne_nil_of_right_ne_nil directory
    (List.cons_ne_nil name []))
  have hsplit : output.trunk ++ directory = before ∧ name = last := by
    rw [hbelow] at hsegments
    have hparts : (output.trunk ++ directory) ++ [name] = before ++ [last] := by
      simpa using hsegments
    obtain ⟨hbefore, hname⟩ := List.append_inj' hparts rfl
    exact ⟨hbefore, by simpa using hname⟩
  obtain ⟨rfl, rfl⟩ := hsplit
  have hanchor : (output.below (directory ++ [name])).anchor = output.anchor := by
    rw [hbelow]
  rw [hanchor, FileTree.follow_append] at hfollow
  rcases htrunk : after.follow (after.start output.anchor) output.trunk with
    cause | ⟨⟨base⟩⟩
  · rw [htrunk] at hfollow
    cases hfollow
  · rw [htrunk] at hfollow
    cases FileTree.follow_proper hproper hfollow
    rw [List.append_assoc] at hlocate hcontents hgrown
    exact ⟨base, rfl, hlocate, hcontents, hlast, hroom.trans hgrown⟩

/-- The text of a source file is delivered when it is saved. -/
theorem save_delivers {format : Format} {output : Path} {extension : String}
    {file : SourceFile} (hsource : IsSourcePath extension file.path)
    (hrun : ((memory input).save (Options.target format output file.unit)
      (file.unit.rendered format)).run tree = (.ok (), after)) :
    ∃ base, Delivered format output base after file ∧
      FileTree.Grown [base ++ Options.outputNames format file.path]
        tree after := by
  obtain ⟨directory, name, stem, hpath, hproper, -⟩ := hsource
  have hnames := Options.outputNames_append format directory name
  rw [← hpath] at hnames
  rw [Options.target, SourceFile.unit] at hrun
  dsimp only at hrun
  rw [hnames] at hrun
  obtain ⟨base, hleads, hlocated, hcontents, hname, hgrown⟩ :=
    save_memory hproper hrun
  rw [← hnames] at hlocated hcontents hgrown
  refine ⟨base, ⟨hleads, hlocated, hcontents, ?_⟩, hgrown⟩
  rw [hnames]
  simpa using hname

/-- Source files with different paths are all delivered, and nothing but their
outputs is written. -/
theorem putOut_delivers {options : Options} {format : Format} {output : Path}
    {extension : String} {pipeline : Pipeline} {tally counted : Tally}
    {files : List SourceFile} (houtput : options.output = some output)
    (hsources : ∀ file ∈ files, IsSourcePath extension file.path)
    (hdistinct : files.Pairwise fun first second => first.path ≠ second.path)
    (hrun : ((memory input).putOut options format pipeline tally
      (files.map SourceFile.unit)).run tree = ((counted, none), after)) :
    (∃ written, FileTree.Grown written tree after ∧ ∀ names ∈ written,
      ∃ base, ∃ file ∈ files,
        after.follow (after.start output.anchor) output.trunk =
          .ok (.below base) ∧
        names = base ++ Options.outputNames format file.path) ∧
      ∀ file ∈ files, ∃ base, Delivered format output base after file := by
  induction files generalizing pipeline tally tree with
  | nil =>
      cases hrun
      exact ⟨⟨[], .refl _, by simp⟩, by simp⟩
  | cons file rest ih =>
      obtain ⟨middle, hsaved, hrun⟩ := exists_of_putOut_cons houtput hrun
      obtain ⟨hapart, hdistinct⟩ := List.pairwise_cons.mp hdistinct
      obtain ⟨⟨written, hgrown, hwritten⟩, hrest⟩ := ih
        (fun other hmem => hsources other (List.mem_cons_of_mem _ hmem))
        hdistinct hrun
      have hsource := hsources file List.mem_cons_self
      obtain ⟨base, hhead, hfirst⟩ := save_delivers hsource hsaved
      have hleads := hgrown.follow_start_eq hhead.leads
      -- all outputs lie below one directory, so equal places have equal names
      have hother : base ++ Options.outputNames format file.path ∉ written := by
        intro hmem
        obtain ⟨found, other, hotherMem, hfound, heq⟩ := hwritten _ hmem
        obtain rfl : base = found := by
          rw [hleads] at hfound
          cases hfound
          rfl
        exact hapart other hotherMem (Options.outputNames_injective hsource
          (hsources other (List.mem_cons_of_mem _ hotherMem))
          (List.append_cancel_left heq))
      refine ⟨⟨_, hfirst.trans hgrown, ?_⟩, ?_⟩
      · intro names hmem
        rcases List.mem_cons.mp hmem with rfl | hmem
        · exact ⟨base, file, List.mem_cons_self, hleads, rfl⟩
        · obtain ⟨found, other, hotherMem, hfound⟩ := hwritten names hmem
          exact ⟨found, other, List.mem_cons_of_mem _ hotherMem, hfound⟩
      · intro other hmem
        rcases List.mem_cons.mp hmem with rfl | hmem
        · exact ⟨base, hhead.grown hgrown hother⟩
        · exact hrest other hmem

/-- The units of a directory are the source files in it. -/
theorem run_units_of_directory {options : Options} {root : Path}
    (hinput : options.input = some root)
    (hdirectory : tree.isDirectory root = true) :
    ((memory input).units options).run tree =
      match ((memory input).sources root options.extension).run tree with
      | (.error failure, after) => (.error failure, after)
      | (.ok files, after) => (.ok (files.map SourceFile.unit), after) := by
  have hasked : ((memory input).isDirectory root).run tree =
      (tree.isDirectory root, tree) := rfl
  rw [run_units, hinput]
  simp only [hasked, hdirectory]
  rcases ((memory input).sources root options.extension).run tree with
    ⟨_ | _, after⟩ <;> rfl

/-- A run on a directory that meets no obstacle compiles the source files in it,
which are all read before anything is written, and delivers them if there is an
output path. -/
theorem exists_of_directory {options : Options} {root : Path}
    (hformed : tree.WellFormed) (hinput : options.input = some root)
    (hdirectory : tree.isDirectory root = true)
    (hcompleted : (((memory input).run options).run tree).1.Completed) :
    ∃ format files, Format.ofName? options.emit = some format ∧
      ((memory input).sources root options.extension).run tree =
        (.ok files, tree) ∧
      (((memory input).run options).run tree).1.output =
        options.allOutput format (files.map SourceFile.unit) ∧
      ∀ output, options.output = some output → ∀ file ∈ files,
        ∃ base, Delivered format output base
          (((memory input).run options).run tree).2 file := by
  obtain ⟨format, units, middle, after, hformat, hunits, hput, hrun⟩ :=
    exists_of_completed hcompleted
  rw [run_units_of_directory hinput hdirectory] at hunits
  rcases hsources : ((memory input).sources root options.extension).run tree with
    ⟨failure | files, read⟩
  · rw [hsources] at hunits
    cases hunits
  · rw [hsources] at hunits
    cases hunits
    obtain ⟨rfl, hordered, hfiles⟩ := sources_memory hformed hdirectory hsources
    refine ⟨format, files, hformat, rfl,
      congrArg (fun result => result.1.output) hrun, ?_⟩
    intro output houtput
    rw [hrun]
    refine (putOut_delivers houtput (fun file hmem => (hfiles file hmem).2)
      (hordered.imp ?_) hput).2
    exact fun hbefore => SourceFile.pathBefore_orders.ne hbefore

end Store

theorem Outcome.report_output (outcome : Outcome) :
    outcome.report.output = outcome.output := by
  rw [report]
  rcases outcome.failure with _ | failure <;> rfl

/-- Without an output path, every source file comes after its heading. -/
theorem Options.allOutput_of_none {options : Options} (format : Format)
    (houtput : options.output = none) (files : List SourceFile) :
    options.allOutput format (files.map SourceFile.unit) =
      String.join (files.map fun file =>
        "== " ++ "/".intercalate file.path ++ " ==\n" ++
          (compile file.contents).render format) := by
  rw [allOutput, houtput, List.map_map]
  rfl

/-- A run on a directory that meets no obstacle compiles every source file as if
it were the only one and loses no output.  Without an output path, the texts
stand on standard output in the order of the paths, each after its heading.  With
an output path, standard output is empty, and the text of each source file is in
a file of its own, with the same names below the output path but for the
extension; any other run with the same options that finds the same source file
leaves the same text there, whatever else it finds. -/
theorem execute_directory_delivers (input : ByteArray) (tree : FileTree)
    (arguments : List String) (options : Options) (root : Path)
    (hformed : tree.WellFormed)
    (hrequest : Options.ofArguments arguments = .run options)
    (hinput : options.input = some root)
    (hdirectory : tree.isDirectory root = true)
    (hcompleted : (((Store.memory input).run options).run tree).1.Completed) :
    ∃ format files report after,
      Format.ofName? options.emit = some format ∧
      ((Store.memory input).sources root options.extension).run tree =
        (.ok files, tree) ∧
      ((Store.memory input).execute arguments).run tree = (report, after) ∧
      (files.Pairwise fun first second =>
        SourceFile.pathBefore first.path second.path = true) ∧
      (∀ file ∈ files, (tree.read (root.below file.path) >>= decodeText) =
        .ok file.contents) ∧
      (options.output = none → report.output =
        String.join (files.map fun file =>
          "== " ++ "/".intercalate file.path ++ " ==\n" ++
            (compile file.contents).render format)) ∧
      ∀ output, options.output = some output →
        report.output = "" ∧
        (files.Pairwise fun first second =>
          after.locate (output.below (Options.outputNames format first.path)) ≠
            after.locate
              (output.below (Options.outputNames format second.path))) ∧
        (∀ file ∈ files, ∃ directory stem,
          file.path = directory ++ [stem ++ "." ++ options.extension] ∧
          Options.outputNames format file.path =
            directory ++ [stem ++ "." ++ format.extension] ∧
          after.read (output.below (Options.outputNames format file.path)) =
            .ok ((compile file.contents).render format).toUTF8) ∧
        ∀ (other : FileTree) others,
          other.WellFormed → other.isDirectory root = true →
          (((Store.memory input).run options).run other).1.Completed →
          ((Store.memory input).sources root options.extension).run other =
            (.ok others, other) →
          ∀ file ∈ files, file ∈ others →
            (((Store.memory input).execute arguments).run other).2.read
                (output.below (Options.outputNames format file.path)) =
              after.read
                (output.below (Options.outputNames format file.path)) := by
  obtain ⟨format, files, hformat, hsources, hprinted, hdelivered⟩ :=
    Store.exists_of_directory hformed hinput hdirectory hcompleted
  obtain ⟨-, hordered, hfiles⟩ := Store.sources_memory hformed hdirectory hsources
  refine ⟨format, files, _, _, hformat, hsources,
    Store.run_execute hrequest, hordered,
    fun file hmem => (hfiles file hmem).1, ?_, ?_⟩
  · intro houtput
    rw [Outcome.report_output, hprinted,
      Options.allOutput_of_none format houtput]
  · intro output houtput
    refine ⟨?_, ?_, ?_, ?_⟩
    · rw [Outcome.report_output, hprinted, Options.allOutput, houtput]
    · refine hordered.imp_of_mem ?_
      intro first second hfirst hsecond hbefore
      obtain ⟨base, hplace⟩ := hdelivered output houtput first hfirst
      obtain ⟨other, hother⟩ := hdelivered output houtput second hsecond
      exact hplace.locate_ne hother (hfiles first hfirst).2
        (hfiles second hsecond).2 (SourceFile.pathBefore_orders.ne hbefore)
    · intro file hmem
      obtain ⟨base, hplace⟩ := hdelivered output houtput file hmem
      obtain ⟨directory, stem, hpath, hnames⟩ :=
        hplace.outputNames_eq (hfiles file hmem).2
      exact ⟨directory, stem, hpath, hnames, hplace.read_eq⟩
    · intro other others hformedOther hdirectoryOther hcompletedOther
        hsourcesOther file hmem hmemOther
      obtain ⟨formatOther, filesOther, hformatOther, hfound, -, hdeliveredOther⟩ :=
        Store.exists_of_directory hformedOther hinput hdirectoryOther
          hcompletedOther
      rw [hformat] at hformatOther
      cases hformatOther
      rw [hsourcesOther] at hfound
      cases hfound
      obtain ⟨base, hplace⟩ := hdelivered output houtput file hmem
      obtain ⟨found, hplaceOther⟩ :=
        hdeliveredOther output houtput file hmemOther
      rw [Store.run_execute hrequest, hplaceOther.read_eq, hplace.read_eq]

/-- Two source files that the tree does not list in their order, one of which
has a dot in its stem.  The one path starts at the root, and the other leads
upwards from the working directory. -/
theorem execute_directory_delivers_of_two :
    let store := Store.memory ByteArray.empty
    let tree : FileTree := ⟨[(["w"], .directory), (["d"], .directory),
      (["d", "b.mc"], .file "int x;".toUTF8),
      (["d", "a.c.mc"], .file "int y; y = 2;".toUTF8)], ["w"]⟩
    let root : Path := ⟨.root, ["d"]⟩
    let options : Options :=
      { input := some root, output := some ⟨.relative, ["..", "out"]⟩ }
    let arguments := ["-i", "/d", "-o", "../out"]
    tree.WellFormed ∧ Options.ofArguments arguments = .run options ∧
      tree.isDirectory root = true ∧
      ((store.run options).run tree).1.Completed ∧
      ((store.execute arguments).run tree).1.output = "" ∧
      ((store.execute arguments).run tree).2.read
          ⟨.relative, ["..", "out", "a.c.ir"]⟩ =
        .ok ((compile "int y; y = 2;").render .ir).toUTF8 ∧
      ((store.execute arguments).run tree).2.read
          ⟨.relative, ["..", "out", "b.ir"]⟩ =
        .ok ((compile "int x;").render .ir).toUTF8 := by
  intro store tree root options arguments
  have hformed : tree.WellFormed := ⟨by decide, by decide⟩
  have hrequest : Options.ofArguments arguments = .run options := by
    decide +kernel
  have hdirectory : tree.isDirectory root = true := by decide +kernel
  have hsources : (store.sources root options.extension).run tree =
      (.ok [⟨["a.c.mc"], "int y; y = 2;"⟩, ⟨["b.mc"], "int x;"⟩], tree) := by
    have hread : (store.readSources root ((tree.files root).filter
        (SourceFile.hasExtension root options.extension))).run tree =
          (.ok [⟨["b.mc"], "int x;"⟩, ⟨["a.c.mc"], "int y; y = 2;"⟩], tree) :=
      rfl
    have hprecedes : SourceFile.precedes ⟨["b.mc"], "int x;"⟩
        ⟨["a.c.mc"], "int y; y = 2;"⟩ = false := by decide +kernel
    have hpresent : (store.isPresent root).run tree = (true, tree) := rfl
    have hfiles : (store.files root).run tree = (tree.files root, tree) := rfl
    rw [Store.run_sources, hpresent]
    simp only [hfiles, hread]
    simp [List.mergeSort, hprecedes]
  have hfailure : ((store.run options).run tree).1.failure = none := by
    rw [Store.run_run, Store.run_units_of_directory rfl hdirectory, hsources]
    decide +kernel
  have hcompleted : ((store.run options).run tree).1.Completed := by
    intro failure hmem
    rw [hfailure] at hmem
    cases hmem
  obtain ⟨format, files, report, after, hformat, hfiles, hexecute, -, -, -, hall⟩ :=
    execute_directory_delivers ByteArray.empty tree arguments options root
      hformed hrequest rfl hdirectory hcompleted
  cases (show some Format.ir = some format from hformat)
  cases hsources.symm.trans hfiles
  obtain ⟨hprinted, -, hdelivered, -⟩ := hall _ rfl
  rw [hexecute]
  refine ⟨hformed, hrequest, hdirectory, hcompleted, hprinted, ?_, ?_⟩
  · obtain ⟨directory, stem, -, -, hread⟩ :=
      hdelivered ⟨["a.c.mc"], "int y; y = 2;"⟩ (by simp)
    exact hread
  · obtain ⟨directory, stem, -, -, hread⟩ :=
      hdelivered ⟨["b.mc"], "int x;"⟩ (by simp)
    exact hread

end ThreeAddress
