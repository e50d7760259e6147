import ThreeAddress.Compilation
import ThreeAddress.Proofs.Acceptance
import ThreeAddress.Proofs.Declarations
import ThreeAddress.Proofs.Usage

/-!
The marks beside the symbols.  The table keeps, for each symbol, whether it is
used and whether it has a value, and at every site of the walk these marks are
what the visits made so far account for.  So the names that are reported as used
too early, and the variables that are warned of in the end, are told by the
tree.
-/

namespace ThreeAddress

theorem modify_map_of_nodup {items : List Symbol} (hnodup : items.Nodup)
    {index : Nat} {item : Symbol} (hitem : items[index]? = some item)
    (value : Symbol → Usage) (change : Usage → Usage) :
    (items.map value).modify index change = items.map fun other =>
      if other = item then change (value other) else value other := by
  refine List.ext_getElem? fun place => ?_
  rw [List.getElem?_modify, List.getElem?_map, List.getElem?_map]
  cases hother : items[place]? with
  | none => rfl
  | some other =>
      have hlength := (List.getElem?_eq_some_iff.mp hitem).1
      have hsame : index = place ↔ other = item := by
        rw [← List.getElem?_inj hlength hnodup, hitem, hother,
          Option.some.injEq, eq_comm]
      by_cases hplace : index = place
      · simp [hplace, hsame.mp hplace]
      · simp [hplace, mt hsame.mpr hplace]

namespace Analyzer

variable (analyzer : Analyzer) {name : String} {id : Nat}

theorem assign_usages (hfound : analyzer.table.resolve name = some id)
    (line : Nat) (literal : Option String) :
    (analyzer.assign name line literal).table.usages =
      analyzer.table.usages.modify id fun _ => ⟨true, true⟩ := by
  rw [assign, hfound]
  change (checkAssigned _ _ _ _ _).table.usages = _
  rw [checkAssigned_table]
  exact List.modify_modify_eq _ _ id analyzer.table.usages

theorem use_of_isInitialized (hfound : analyzer.table.resolve name = some id)
    (hvalue : analyzer.table.isInitialized id = true) (line : Nat) :
    analyzer.use name line = analyzer.update fun table => table.markUsed id := by
  simp only [use, hfound, hvalue, if_true]

theorem use_of_not_isInitialized
    (hfound : analyzer.table.resolve name = some id)
    (hvalue : analyzer.table.isInitialized id = false) (line : Nat) :
    analyzer.use name line = analyzer.report line (.uninitialized name) := by
  simp only [use, hfound, hvalue, Bool.false_eq_true, if_false]

end Analyzer

/-- A name is found to stand for the symbol that it refers to, or for nothing
if it refers to none. -/
theorem Mirrors.resolve_cases {table : SymbolTable} {site : Site}
    {earlier : List Visit} (hmirrors : Mirrors table site earlier) (node : Node)
    (name : String) :
    (table.resolve name = none ∧
      Occurrence.referent? ⟨earlier, ⟨node, site.scopes⟩⟩ name = none) ∨
    ∃ id symbol, table.resolve name = some id ∧
      table.symbols[id]? = some symbol ∧
        Occurrence.referent? ⟨earlier, ⟨node, site.scopes⟩⟩ name =
          some symbol := by
  have hresolves := hmirrors.resolves node name
  unfold Occurrence.Resolves at hresolves
  unfold Occurrence.referent?
  generalize table.resolve name = found at hresolves ⊢
  generalize Occurrence.binding? ⟨earlier, ⟨node, site.scopes⟩⟩ name = binding
    at hresolves ⊢
  cases hresolves with
  | none => exact Or.inl ⟨rfl, rfl⟩
  | @some declaration id hdenotes =>
      obtain ⟨symbol, hsymbol, hid⟩ := hdenotes
      exact Or.inr ⟨id, symbol, rfl, hid, hsymbol⟩

/-- An analyzer at a site of the walk, after some visits: the marks beside the
symbols are what the visits account for, and so are the names that have been
reported as used too early. -/
structure Recorded (analyzer : Analyzer) (site : Site) (earlier : List Visit) :
    Prop where
  mirrors : Mirrors analyzer.table site earlier
  usages : analyzer.table.usages = usagesAfter earlier
  premature : Diagnostic.ofKind .useBeforeInit analyzer.diagnostics =
    (occurrences [] earlier).filterMap Occurrence.premature?

namespace Recorded

variable {analyzer : Analyzer} {site next : Site} {earlier : List Visit}

theorem start : Recorded {} ⟨[0], 1⟩ [] :=
  ⟨Mirrors.start, rfl, rfl⟩

/-- A symbol is marked as having a value when it has one. -/
theorem isInitialized_eq (hrecorded : Recorded analyzer site earlier) {id : Nat}
    {symbol : Symbol} (hid : analyzer.table.symbols[id]? = some symbol) :
    analyzer.table.isInitialized id = hasValue earlier symbol := by
  rw [hrecorded.mirrors.symbols] at hid
  rw [SymbolTable.isInitialized, hrecorded.usages, usagesAfter,
    List.getElem?_map, hid]
  rfl

/-- Changing the marks of one symbol. -/
theorem usages_modify (hrecorded : Recorded analyzer site earlier) {id : Nat}
    {symbol : Symbol} (hid : analyzer.table.symbols[id]? = some symbol)
    (change : Usage → Usage) :
    analyzer.table.usages.modify id change =
      (declared earlier).map fun other =>
        if other = symbol then change (usageAfter earlier other)
        else usageAfter earlier other := by
  have hnodup : (declared earlier).Nodup := .of_map _ (declared_nodup earlier)
  rw [hrecorded.mirrors.symbols] at hid
  rw [hrecorded.usages]
  exact modify_map_of_nodup hnodup hid (usageAfter earlier) change

/-- On a visit that brings in no symbol, assigns to none and refers to none, the
marks stay as they are. -/
theorem usages_idle (hrecorded : Recorded analyzer site earlier) {visit : Visit}
    (hsymbol : Occurrence.symbol? ⟨earlier, visit⟩ = none)
    (hassigned : Occurrence.assigned? ⟨earlier, visit⟩ = none)
    (hread : Occurrence.read? ⟨earlier, visit⟩ = none) :
    analyzer.table.usages = usagesAfter (earlier ++ [visit]) := by
  rw [usagesAfter_append_of_eq_none hsymbol, hrecorded.usages, usagesAfter]
  simp [hassigned, hread, usageAfter]

theorem usages_declare (hrecorded : Recorded analyzer site earlier) (ty : Ty)
    (name : Name) (initializer : Option Node) (position : Option Position) :
    let visit : Visit :=
      ⟨.declaration ty name initializer position, site.scopes⟩
    (analyzer.declare name.text ty visit.node.line initializer.isSome
        (initializer.bind Node.literalText?)).table.usages =
      usagesAfter (earlier ++ [visit]) := by
  intro visit
  rcases hrecorded.mirrors.declare_cases ty name initializer position with
    ⟨hsymbol, htable⟩ | ⟨symbol, hsymbol, -, htable⟩
  · rw [htable]
    exact hrecorded.usages_idle hsymbol rfl rfl
  · rw [htable, usagesAfter_append_of_eq_some hsymbol, ← hrecorded.usages]
    rfl

theorem usages_assign (hrecorded : Recorded analyzer site earlier)
    (target : Name) (value : Option Node) (position : Option Position)
    (line : Nat) (literal : Option String) :
    let visit : Visit := ⟨.assignment target value position, site.scopes⟩
    (analyzer.assign target.text line literal).table.usages =
      usagesAfter (earlier ++ [visit]) := by
  intro visit
  rcases hrecorded.mirrors.resolve_cases (.assignment target value position)
      target.text with ⟨hnone, hreferent⟩ | ⟨id, symbol, hfound, hid, hreferent⟩
  · rw [Analyzer.assign, hnone]
    exact hrecorded.usages_idle rfl hreferent rfl
  · have hassigned : Occurrence.assigned? ⟨earlier, visit⟩ = some symbol :=
      hreferent
    have hread : Occurrence.read? ⟨earlier, visit⟩ = none := rfl
    rw [Analyzer.assign_usages _ hfound, hrecorded.usages_modify hid,
      usagesAfter_append_of_eq_none rfl]
    refine List.map_congr_left fun other _ => ?_
    by_cases hother : other = symbol
    · simp [hother, hassigned]
    · simp [hother, Ne.symm hother, hassigned, hread, usageAfter]

theorem usages_use (hrecorded : Recorded analyzer site earlier) (text : String)
    (position : Option Position) (line : Nat) :
    let visit : Visit := ⟨.identifier text position, site.scopes⟩
    (analyzer.use text line).table.usages = usagesAfter (earlier ++ [visit]) := by
  intro visit
  rcases hrecorded.mirrors.resolve_cases (.identifier text position) text with
    ⟨hnone, hreferent⟩ | ⟨id, symbol, hfound, hid, hreferent⟩
  · rw [Analyzer.use, hnone]
    exact hrecorded.usages_idle rfl rfl hreferent
  · have hread : Occurrence.read? ⟨earlier, visit⟩ = some symbol := hreferent
    have hassigned : Occurrence.assigned? ⟨earlier, visit⟩ = none := rfl
    have hmarked := hrecorded.isInitialized_eq hid
    rw [usagesAfter_append_of_eq_none rfl]
    cases hvalue : hasValue earlier symbol with
    | true =>
        rw [Analyzer.use_of_isInitialized _ hfound (hmarked.trans hvalue)]
        refine (hrecorded.usages_modify hid _).trans ?_
        refine List.map_congr_left fun other _ => ?_
        by_cases hother : other = symbol
        · simp [hother, hassigned, hread, usageAfter, hvalue]
        · simp [hother, Ne.symm hother, hassigned, hread, usageAfter]
    | false =>
        -- a use without a value does not count
        rw [Analyzer.use_of_not_isInitialized _ hfound (hmarked.trans hvalue)]
        refine hrecorded.usages.trans ?_
        refine List.map_congr_left fun other _ => ?_
        by_cases hother : other = symbol
        · simp [hother, hassigned, hread, usageAfter, hvalue]
        · simp [Ne.symm hother, hassigned, hread, usageAfter]

/-- Every move keeps the marks in step with the visits. -/
theorem usages_move (hrecorded : Recorded analyzer site earlier)
    {step : Option Step} {visit : Option Visit}
    (hmove : Move site step visit next) :
    (analyzer.run step.toList).table.usages =
      usagesAfter (earlier ++ visit.toList) := by
  cases hmove with
  | pass site node hpassed =>
      have hsymbol := Visit.symbol?_of_isPassed hpassed site.scopes
      obtain ⟨hassigned, hread, -⟩ := Occurrence.silent
        ⟨earlier, ⟨node, site.scopes⟩⟩ (Node.use?_of_isPassed hpassed)
      exact hrecorded.usages_idle (by simp [Occurrence.symbol?, hsymbol])
        hassigned hread
  | declare site ty name initializer position =>
      exact hrecorded.usages_declare ty name initializer position
  | assign site target value position =>
      exact hrecorded.usages_assign target value position _ _
  | use site text position => exact hrecorded.usages_use text position _
  | apply site operator left right position =>
      rw [Option.toList_none, List.append_nil, ← hrecorded.usages]
      simp only [Option.toList_some, Analyzer.run, List.foldl_cons,
        List.foldl_nil, Analyzer.step, Analyzer.apply]
      split <;> rfl
  | enter scopes fresh form condition body position =>
      exact hrecorded.usages_idle rfl rfl rfl
  | leave inner scope scopes fresh =>
      rw [Option.toList_none, List.append_nil, ← hrecorded.usages]
      change analyzer.table.pop.usages = _
      rw [SymbolTable.pop_eq hrecorded.mirrors.stack]

/-- An identifier is reported if it refers to a symbol without a value. -/
theorem useBeforeInit_use (hrecorded : Recorded analyzer site earlier)
    (text : String) (position : Option Position) :
    let visit : Visit := ⟨.identifier text position, site.scopes⟩
    Diagnostic.ofKind .useBeforeInit
        (analyzer.use text visit.node.line).diagnostics =
      Diagnostic.ofKind .useBeforeInit analyzer.diagnostics ++
        (Occurrence.premature? ⟨earlier, visit⟩).toList := by
  intro visit
  have hpremature : Occurrence.premature? ⟨earlier, visit⟩ =
      (Occurrence.referent? ⟨earlier, visit⟩ text).bind fun symbol =>
        if hasValue earlier symbol then none
        else some ⟨.uninitialized text, visit.node.line⟩ := rfl
  rcases hrecorded.mirrors.resolve_cases (.identifier text position) text with
    ⟨hnone, hreferent⟩ | ⟨id, symbol, hfound, hid, hreferent⟩
  · rw [hpremature, hreferent, Analyzer.use, hnone]
    exact (analyzer.ofKind_report_of_ne (by simp [Problem.kind]) _).trans
      (List.append_nil _).symm
  · have hmarked := hrecorded.isInitialized_eq hid
    rw [hpremature, hreferent, Option.bind_some]
    cases hvalue : hasValue earlier symbol with
    | true =>
        rw [Analyzer.use_of_isInitialized _ hfound (hmarked.trans hvalue)]
        exact (List.append_nil _).symm
    | false =>
        rw [Analyzer.use_of_not_isInitialized _ hfound (hmarked.trans hvalue),
          Analyzer.ofKind_report]
        rfl

/-- A move reports the identifier that its visit is, if it is used too early. -/
theorem useBeforeInit_move (hrecorded : Recorded analyzer site earlier)
    {step : Option Step} {visit : Option Visit}
    (hmove : Move site step visit next) :
    Diagnostic.ofKind .useBeforeInit (analyzer.run step.toList).diagnostics =
      Diagnostic.ofKind .useBeforeInit analyzer.diagnostics ++
        (occurrences earlier visit.toList).filterMap
          Occurrence.premature? := by
  cases hmove with
  | pass site node hpassed =>
      obtain ⟨-, -, hpremature⟩ := Occurrence.silent
        ⟨earlier, ⟨node, site.scopes⟩⟩ (Node.use?_of_isPassed hpassed)
      simp [occurrences, hpremature]
  | declare site ty name initializer position =>
      exact (analyzer.ofKind_declare (by decide) _ _ _ _ _).trans
        (List.append_nil _).symm
  | assign site target value position =>
      exact (analyzer.ofKind_assign (by decide) (by decide) _ _ _).trans
        (List.append_nil _).symm
  | use site text position =>
      refine (hrecorded.useBeforeInit_use text position).trans ?_
      rw [Option.toList_some, occurrences, occurrences, List.filterMap_cons]
      cases Occurrence.premature? ⟨earlier, _⟩ <;> rfl
  | apply site operator left right position =>
      exact (analyzer.ofKind_apply (by decide) _ _ _ _).trans
        (List.append_nil _).symm
  | enter scopes fresh form condition body position =>
      exact (List.append_nil _).symm
  | leave inner scope scopes fresh => exact (List.append_nil _).symm

theorem move (hrecorded : Recorded analyzer site earlier)
    {step : Option Step} {visit : Option Visit}
    (hmove : Move site step visit next) :
    Recorded (analyzer.run step.toList) next (earlier ++ visit.toList) where
  mirrors := hrecorded.mirrors.move hmove
  usages := hrecorded.usages_move hmove
  premature := by
    rw [hrecorded.useBeforeInit_move hmove, hrecorded.premature,
      occurrences_append, List.filterMap_append, List.nil_append]

theorem route {last : Site} {steps : List Step} {visits : List Visit}
    (hrecorded : Recorded analyzer site earlier)
    (hroute : Route site steps visits last) :
    Recorded (analyzer.run steps) last (earlier ++ visits) := by
  induction hroute generalizing analyzer earlier with
  | refl site => simpa using hrecorded
  | cons hmove hroute ih =>
      rw [Analyzer.run_append, ← List.append_assoc]
      exact ih (hrecorded.move hmove)

end Recorded

theorem Node.walk_recorded (root : Node) :
    Recorded (({} : Analyzer).run root.walk)
      ⟨[0], 1 + Node.countConditionals root.preorder⟩ (root.visits [0] 1) :=
  Recorded.start.route (root.walk_route 0 [] 1)

theorem analyze_symbols (root : Node) :
    (analyze root).symbols = declared (root.visits [0] 1) :=
  root.walk_recorded.mirrors.symbols

/-- Uses before initialization are reported exactly where they are made: one by
one, in the order of the visits and on the lines of the identifiers.  An
identifier that refers to a symbol is reported if the declaration that brings in
this symbol has no initializer and no assignment to the symbol has been visited
before. -/
theorem analyze_reports_premature_uses (root : Node) :
    let visits := root.visits [0] 1
    visits.map Visit.node = root.preorder ∧
      Diagnostic.ofKind .useBeforeInit (analyze root).diagnostics =
        (occurrences [] visits).filterMap Occurrence.premature? ∧
      ∀ occurrence ∈ occurrences [] visits, ∀ symbol,
        occurrence.read? = some symbol →
          symbol ∈ (analyze root).symbols ∧
          ∃ creator ∈ occurrences [] occurrence.earlier,
            creator.symbol? = some symbol ∧
            (occurrence.premature?.isSome = true ↔
              creator.visit.node.hasInitializer = false ∧
                ∀ other ∈ occurrences [] occurrence.earlier,
                  other.assigned? ≠ some symbol) := by
  intro visits
  refine ⟨root.visits_map_node [0] 1, ?_, ?_⟩
  · rw [analyze_ofKind (by decide)]
    exact root.walk_recorded.premature
  · intro occurrence hmem symbol hread
    have hdeclared := Occurrence.mem_of_referent? hread
    obtain ⟨creator, hcreator, hsymbol⟩ := List.mem_filterMap.mp hdeclared
    refine ⟨?_, creator, hcreator, hsymbol, ?_⟩
    · rw [analyze_symbols]
      exact Occurrence.declared_subset hmem hdeclared
    · rw [Occurrence.premature?_isSome hread,
        hasValue_eq_false_iff hcreator hsymbol]

/-- Neither the value of another variable of that name nor the initializer of a
redeclaration counts, and a variable may occur in the value that it is
assigned. -/
theorem analyze_reports_premature_uses_of_shadowing :
    let source := "int x;\nwhile (x < 1) \x7b\n  int x = 2;\n  x = x;\n\x7d\n" ++
      "int z; int z = 1;\nreturn x + z;\nx = x;"
    let root := parse (tokenize source)
    let symbol : Symbol := ⟨"z", .int, 0, 6, none⟩
    Diagnostic.ofKind .useBeforeInit (analyze root).diagnostics =
        [⟨.uninitialized "x", 2⟩, ⟨.uninitialized "x", 7⟩,
          ⟨.uninitialized "z", 7⟩] ∧
      ∃ occurrence ∈ occurrences [] (root.visits [0] 1),
        occurrence.read? = some symbol ∧
          ∃ creator ∈ occurrences [] occurrence.earlier,
            creator.symbol? = some symbol ∧
              creator.visit.node.hasInitializer = false ∧
                ∀ other ∈ occurrences [] occurrence.earlier,
                  other.assigned? ≠ some symbol := by
  intro source root symbol
  obtain ⟨-, hreports, hexact⟩ := analyze_reports_premature_uses root
  have hpremature : (occurrences [] (root.visits [0] 1)).filterMap
      Occurrence.premature? = [⟨.uninitialized "x", 2⟩,
        ⟨.uninitialized "x", 7⟩, ⟨.uninitialized "z", 7⟩] := by decide +kernel
  obtain ⟨occurrence, hmem, hread, hearly⟩ :
      ∃ occurrence ∈ occurrences [] (root.visits [0] 1),
        occurrence.read? = some symbol ∧
          occurrence.premature?.isSome = true := by decide +kernel
  obtain ⟨-, creator, hcreator, hsymbol, hiff⟩ :=
    hexact occurrence hmem symbol hread
  exact ⟨hreports.trans hpremature, occurrence, hmem, hread, creator, hcreator,
    hsymbol, hiff.mp hearly⟩

/-- The warning for a symbol that nothing uses. -/
def Symbol.warning (symbol : Symbol) : Diagnostic :=
  ⟨.unused symbol.name symbol.line, symbol.line⟩

/-- What the visits account for is what is warned of in the end. -/
theorem Recorded.unused_eq {analyzer : Analyzer} {site : Site}
    {earlier : List Visit} (hrecorded : Recorded analyzer site earlier) :
    analyzer.unused =
      ((declared earlier).filter fun symbol => !isUsed earlier symbol).map
        Symbol.warning := by
  have hhistory : analyzer.table.history =
      (declared earlier).map fun symbol =>
        (symbol, usageAfter earlier symbol) := by
    rw [SymbolTable.history, hrecorded.usages, hrecorded.mirrors.symbols]
    have hzip : ((declared earlier).map id).zip
        ((declared earlier).map (usageAfter earlier)) = _ := List.zip_map'
    rwa [List.map_id] at hzip
  rw [Analyzer.unused, hhistory, List.filter_map, List.map_map]
  rfl

/-- No step warns of anything. -/
theorem Analyzer.run_kind_ne (analyzer : Analyzer)
    (hnone : ∀ diagnostic ∈ analyzer.diagnostics,
      diagnostic.kind ≠ .unusedVariable) (steps : List Step) :
    ∀ diagnostic ∈ (analyzer.run steps).diagnostics,
      diagnostic.kind ≠ .unusedVariable := by
  induction steps generalizing analyzer with
  | nil => exact hnone
  | cons step rest ih =>
      refine ih (analyzer.step step) ?_
      rcases analyzer.step_cases step with ⟨problem, line, hkind, heq⟩ | ⟨heq, -⟩
      · rw [heq, List.forall_mem_append]
        exact ⟨hnone, List.forall_mem_singleton.mpr hkind⟩
      · rw [heq]
        exact hnone

/-- The errors of an analysis are what the steps report. -/
theorem analyze_errors (root : Node) :
    (analyze root).errors =
      (({} : Analyzer).run root.walk).diagnostics := by
  have hsteps : ∀ diagnostic ∈ (({} : Analyzer).run root.walk).diagnostics,
      (!diagnostic.isWarning) = true := by
    intro diagnostic hmem
    have hkind := Analyzer.run_kind_ne {} (by simp) root.walk diagnostic hmem
    rw [Bool.not_eq_true', Bool.eq_false_iff]
    exact mt Diagnostic.Kind.isWarning_iff.mp hkind
  have hwarnings : ∀ diagnostic ∈ (({} : Analyzer).run root.walk).unused,
      ¬(!diagnostic.isWarning) = true := by
    intro diagnostic hmem
    obtain ⟨entry, -, rfl⟩ := List.mem_map.mp hmem
    simp [Diagnostic.isWarning, Diagnostic.Kind.isWarning_iff, Diagnostic.kind,
      Problem.kind]
  rw [Analysis.errors, analyze, Analyzer.outcome, List.filter_append,
    List.filter_eq_self.mpr hsteps, List.filter_eq_nil_iff.mpr hwarnings,
    List.append_nil]

/-- Warnings of unused variables are exact and come last.  The diagnostics are
errors, and after them one warning for each symbol that nothing uses, in the
order of the symbols and on the lines of their declarations: no assignment of
the tree is made to it, and no identifier refers to it when it has a value. -/
theorem analyze_warns_of_unused (root : Node) :
    let visits := root.visits [0] 1
    visits.map Visit.node = root.preorder ∧
      ∃ errors : List Diagnostic,
        (analyze root).diagnostics = errors ++
          ((analyze root).symbols.filter fun symbol =>
            !isUsed visits symbol).map Symbol.warning ∧
        (∀ diagnostic ∈ errors, diagnostic.kind ≠ .unusedVariable) ∧
        ((analyze root).hasErrors = true ↔ errors ≠ []) := by
  intro visits
  refine ⟨root.visits_map_node [0] 1, _, ?_,
    Analyzer.run_kind_ne {} (by simp) root.walk, ?_⟩
  · rw [analyze_symbols]
    exact congrArg _ root.walk_recorded.unused_eq
  · rw [Analysis.hasErrors, analyze_errors, Bool.not_eq_true',
      List.isEmpty_eq_false_iff]

example :
    (analyze (parse (tokenize
      "int x;\nint y;\nif (x) \x7b int y = 1; return y; \x7d"))).diagnostics =
      [⟨.uninitialized "x", 3⟩, ⟨.unused "x" 1, 1⟩, ⟨.unused "y" 2, 2⟩] := by
  decide +kernel

end ThreeAddress
