import Mathlib.Data.List.Forall2
import ThreeAddress.Analysis
import ThreeAddress.Proofs.SymbolTable
import ThreeAddress.Proofs.Traversal

/-!
Analysis scopes names lexically.  At every site of the walk the table mirrors
the visits made so far, so that looking up a name finds what the name refers to
by the rules of the tree alone, and the uses that are reported are those that
refer to nothing.
-/

namespace ThreeAddress

/-- A table at a site of the walk, after some visits: its open scopes are those
around the site, and its symbols those that the visits bring in. -/
structure Mirrors (table : SymbolTable) (site : Site)
    (earlier : List Visit) : Prop where
  wellFormed : table.WellFormed
  stack : table.stack.reverse = site.scopes
  count : table.scopes.length = site.fresh
  symbols : table.symbols = declared earlier

/-- The name that a step looks up. -/
def Step.name? : Step → Option String
  | assign name _ _ => some name
  | use name _ => some name
  | _ => none

namespace Analyzer

@[simp]
theorem run_nil (analyzer : Analyzer) : analyzer.run [] = analyzer := rfl

theorem run_append (analyzer : Analyzer) (first second : List Step) :
    analyzer.run (first ++ second) = (analyzer.run first).run second :=
  List.foldl_append

/-- What the used names are found to stand for, one after another. -/
def lookups (analyzer : Analyzer) : List Step → List (Option Nat)
  | [] => []
  | step :: rest =>
      (step.name?.map analyzer.table.resolve).toList ++
        (analyzer.step step).lookups rest

theorem lookups_append (analyzer : Analyzer) (first second : List Step) :
    analyzer.lookups (first ++ second) =
      analyzer.lookups first ++ (analyzer.run first).lookups second := by
  induction first generalizing analyzer with
  | nil => rfl
  | cons step rest ih => simp [lookups, run, ih]

theorem checkAssigned_table (analyzer : Analyzer) (name : String)
    (line id : Nat) (literal : Option String) :
    (analyzer.checkAssigned name line id literal).table = analyzer.table := by
  unfold checkAssigned
  split
  · rfl
  · dsimp only
    split
    · rfl
    · rfl

end Analyzer

theorem rel_findSome? {scopes : List Nat} {relation : Visit → Nat → Prop}
    {bindings : Nat → Option Visit} {lookup : Nat → Option Nat}
    (hrelated : ∀ scope ∈ scopes,
      Option.Rel relation (bindings scope) (lookup scope)) :
    Option.Rel relation (scopes.findSome? bindings)
      (scopes.findSome? lookup) := by
  induction scopes with
  | nil => exact .none
  | cons scope rest ih =>
      have hhead := hrelated scope List.mem_cons_self
      have htail := ih fun other hother =>
        hrelated other (List.mem_cons_of_mem _ hother)
      rw [List.findSome?_cons, List.findSome?_cons]
      generalize bindings scope = binding at hhead ⊢
      generalize lookup scope = found at hhead ⊢
      cases hhead with
      | some hdeclaration => exact .some hdeclaration
      | none => exact htail

namespace Mirrors

variable {table : SymbolTable} {site : Site} {earlier : List Visit}

theorem start : Mirrors SymbolTable.start ⟨[0], 1⟩ [] :=
  ⟨SymbolTable.start_wellFormed, rfl, rfl, rfl⟩

/-- In an open scope a name is found to stand for the first declaration of it
there. -/
theorem findIn_denotes (hmirrors : Mirrors table site earlier)
    (name : String) {scope : Nat} (hscope : scope ∈ site.scopes) :
    Option.Rel (Visit.Denotes table.symbols)
      (earlier.find? fun visit => visit.declares name scope)
      (table.findIn name scope) := by
  have hlinked := hmirrors.wellFormed.linked
  rw [hmirrors.stack] at hlinked
  have hlt := hmirrors.wellFormed.linked_forall_lt hlinked scope hscope
  have hfind := declared_find? earlier name scope
  rw [hmirrors.wellFormed.findIn_eq name hlt, hmirrors.symbols]
  cases hfirst : earlier.find? fun visit => visit.declares name scope with
  | none =>
      rw [hfirst, Option.bind_none, List.find?_eq_none] at hfind
      rw [List.findIdx?_eq_none_iff.mpr fun symbol hsymbol =>
        eq_false_of_ne_true (hfind symbol hsymbol)]
      exact .none
  | some first =>
      obtain ⟨symbol, hsymbol⟩ := Visit.exists_symbol_of_find? hfirst
      rw [hfirst, Option.bind_some, hsymbol,
        List.find?_eq_bind_findIdx?_getElem?] at hfind
      obtain ⟨id, hid, hget⟩ := Option.bind_eq_some_iff.mp hfind
      rw [hid]
      exact .some ⟨symbol, hsymbol, hget⟩

/-- Looking up a name finds what it refers to. -/
theorem resolves (hmirrors : Mirrors table site earlier) (node : Node)
    (name : String) :
    Occurrence.Resolves ⟨earlier, ⟨node, site.scopes⟩⟩ name table.symbols
      (table.resolve name) := by
  rw [hmirrors.wellFormed.resolve_eq, hmirrors.stack]
  exact rel_findSome? fun scope hscope => hmirrors.findIn_denotes name hscope

theorem resolve_eq_none_iff (hmirrors : Mirrors table site earlier)
    (node : Node) (name : String) :
    table.resolve name = none ↔
      Occurrence.Undeclared ⟨earlier, ⟨node, site.scopes⟩⟩ name :=
  (hmirrors.resolves node name).eq_none_iff

theorem markUsed (hmirrors : Mirrors table site earlier) (id : Nat) :
    Mirrors (table.markUsed id) site earlier :=
  ⟨SymbolTable.markUsed_wellFormed hmirrors.wellFormed id, hmirrors.stack,
    hmirrors.count, hmirrors.symbols⟩

theorem markInitialized (hmirrors : Mirrors table site earlier) (id : Nat) :
    Mirrors (table.markInitialized id) site earlier :=
  ⟨SymbolTable.markInitialized_wellFormed hmirrors.wellFormed id,
    hmirrors.stack, hmirrors.count, hmirrors.symbols⟩

/-- A visit that brings in no symbol changes nothing. -/
theorem visit (hmirrors : Mirrors table site earlier) {visit : Visit}
    (hsymbol : Occurrence.symbol? ⟨earlier, visit⟩ = none) :
    Mirrors table site (earlier ++ [visit]) :=
  ⟨hmirrors.wellFormed, hmirrors.stack, hmirrors.count, by
    rw [declared_append_singleton, hsymbol, hmirrors.symbols]
    exact (List.append_nil _).symm⟩

theorem push {scopes : List Nat} {fresh : Nat}
    (hmirrors : Mirrors table ⟨scopes, fresh⟩ earlier) (kind : Scope.Kind) :
    Mirrors (table.push kind) ⟨fresh :: scopes, fresh + 1⟩ earlier where
  wellFormed := SymbolTable.push_wellFormed hmirrors.wellFormed kind
  stack := by simp [SymbolTable.push, hmirrors.stack, hmirrors.count]
  count := by simp [SymbolTable.push, hmirrors.count]
  symbols := hmirrors.symbols

theorem pop {inner scope fresh : Nat} {scopes : List Nat}
    (hmirrors : Mirrors table ⟨inner :: scope :: scopes, fresh⟩ earlier) :
    Mirrors table.pop ⟨scope :: scopes, fresh⟩ earlier := by
  have hpop := SymbolTable.pop_eq hmirrors.stack
  have hwellFormed := SymbolTable.pop_wellFormed hmirrors.wellFormed
  rw [hpop] at hwellFormed ⊢
  exact ⟨hwellFormed, List.reverse_reverse _, hmirrors.count,
    hmirrors.symbols⟩

theorem current_eq {scope fresh : Nat} {scopes : List Nat}
    (hmirrors : Mirrors table ⟨scope :: scopes, fresh⟩ earlier) :
    table.current = scope := by
  obtain ⟨rest, hstack⟩ := hmirrors.wellFormed.stack_eq
  rw [hmirrors.stack] at hstack
  exact (List.cons.inj hstack).1.symm

/-- What a name stands for in the current scope itself. -/
theorem lookupLocal_eq {scope fresh : Nat} {scopes : List Nat}
    (hmirrors : Mirrors table ⟨scope :: scopes, fresh⟩ earlier)
    (name : String) :
    ((table.lookupLocal name).bind fun id => table.symbols[id]?) =
      (earlier.find? fun visit => visit.declares name scope).bind
        Visit.symbol? := by
  have hdenotes := hmirrors.findIn_denotes name List.mem_cons_self
  rw [SymbolTable.lookupLocal, hmirrors.current_eq]
  generalize table.findIn name scope = found at hdenotes ⊢
  generalize (earlier.find? fun visit => visit.declares name scope) = first
    at hdenotes ⊢
  cases hdenotes with
  | some hdenotes =>
      obtain ⟨symbol, hsymbol, hid⟩ := hdenotes
      rw [Option.bind_some, Option.bind_some, hid, hsymbol]
  | none => rfl

/-- A declaration brings in its symbol, unless there is one of that name. -/
theorem declare_cases {analyzer : Analyzer}
    (hmirrors : Mirrors analyzer.table site earlier) (ty : Ty) (name : Name)
    (initializer : Option Node) (position : Option Position) :
    let visit : Visit :=
      ⟨.declaration ty name initializer position, site.scopes⟩
    let next := analyzer.declare name.text ty visit.node.line
      initializer.isSome (initializer.bind Node.literalText?)
    (Occurrence.symbol? ⟨earlier, visit⟩ = none ∧
      next.table = analyzer.table) ∨
    ∃ symbol, Occurrence.symbol? ⟨earlier, visit⟩ = some symbol ∧
      symbol.scope = analyzer.table.current ∧
        next.table = analyzer.table.declare symbol initializer.isSome := by
  intro visit next
  obtain ⟨scopes, fresh⟩ := site
  obtain ⟨outer, hstack⟩ := hmirrors.wellFormed.stack_eq
  obtain rfl : scopes = analyzer.table.current :: outer :=
    hmirrors.stack.symm.trans hstack
  have hlocal := hmirrors.lookupLocal_eq name.text
  simp only [next]
  rw [Analyzer.declare, hlocal]
  cases hfirst : earlier.find? fun visit =>
      visit.declares name.text analyzer.table.current with
  | some first =>
      obtain ⟨symbol, hsymbol⟩ := Visit.exists_symbol_of_find? hfirst
      rw [Option.bind_some, hsymbol]
      refine Or.inl ⟨?_, rfl⟩
      rw [Option.eq_none_iff_forall_ne_some]
      intro found hfound
      obtain ⟨hvisit, hnone⟩ := Occurrence.symbol?_eq_some_iff.mp hfound
      cases hvisit
      simp only [hfirst, reduceCtorEq] at hnone
  | none =>
      exact Or.inr ⟨_, Occurrence.symbol?_eq_some_iff.mpr ⟨rfl, hfirst⟩, rfl,
        rfl⟩

theorem declare {analyzer : Analyzer}
    (hmirrors : Mirrors analyzer.table site earlier) (ty : Ty) (name : Name)
    (initializer : Option Node) (position : Option Position) :
    Mirrors
      (analyzer.declare name.text ty
        (Node.declaration ty name initializer position).line
        initializer.isSome (initializer.bind Node.literalText?)).table
      site
      (earlier ++
        [⟨.declaration ty name initializer position, site.scopes⟩]) := by
  rcases hmirrors.declare_cases ty name initializer position with
    ⟨hsymbol, htable⟩ | ⟨symbol, hsymbol, hscope, htable⟩
  · rw [htable]
    exact hmirrors.visit hsymbol
  · have hlt : symbol.scope < analyzer.table.scopes.length :=
      hscope ▸ hmirrors.wellFormed.current_lt
    rw [htable]
    refine ⟨SymbolTable.declare_wellFormed hmirrors.wellFormed hlt _,
      hmirrors.stack, ?_, ?_⟩
    · simpa [SymbolTable.declare] using hmirrors.count
    · rw [declared_append_singleton, hsymbol, ← hmirrors.symbols]
      rfl

theorem assign {analyzer : Analyzer}
    (hmirrors : Mirrors analyzer.table site earlier) (name : String)
    (line : Nat) (literal : Option String) :
    Mirrors (analyzer.assign name line literal).table site earlier := by
  unfold Analyzer.assign
  split
  · exact hmirrors
  · rename_i id hfound
    rw [Analyzer.checkAssigned_table]
    exact (hmirrors.markUsed id).markInitialized id

theorem use {analyzer : Analyzer}
    (hmirrors : Mirrors analyzer.table site earlier) (name : String)
    (line : Nat) : Mirrors (analyzer.use name line).table site earlier := by
  unfold Analyzer.use
  split
  · exact hmirrors
  · rename_i id hfound
    split
    · exact hmirrors.markUsed id
    · exact hmirrors

theorem apply {analyzer : Analyzer}
    (hmirrors : Mirrors analyzer.table site earlier) (operator : Operator)
    (left right : Operand) (line : Nat) :
    Mirrors (analyzer.apply operator left right line).table site earlier := by
  unfold Analyzer.apply
  dsimp only
  split
  · exact hmirrors
  · exact hmirrors

/-- Every move keeps the table in step with the visits. -/
theorem move {analyzer : Analyzer} {next : Site} {step : Option Step}
    {visit : Option Visit} (hmirrors : Mirrors analyzer.table site earlier)
    (hmove : Move site step visit next) :
    Mirrors (analyzer.run step.toList).table next
      (earlier ++ visit.toList) := by
  cases hmove with
  | pass site node hpassed =>
      refine hmirrors.visit ?_
      rw [Occurrence.symbol?, Visit.symbol?_of_isPassed hpassed]
      rfl
  | declare site ty name initializer position =>
      exact hmirrors.declare ty name initializer position
  | assign site target value position =>
      exact (hmirrors.assign _ _ _).visit rfl
  | use site text position => exact (hmirrors.use _ _).visit rfl
  | apply site operator left right position =>
      rw [Option.toList_none, List.append_nil]
      exact hmirrors.apply _ _ _ _
  | enter scopes fresh form condition body position =>
      exact (hmirrors.push _).visit rfl
  | leave inner scope scopes fresh =>
      rw [Option.toList_none, List.append_nil]
      exact hmirrors.pop

/-- So does every route. -/
theorem route {analyzer : Analyzer} {last : Site} {steps : List Step}
    {visits : List Visit} (hmirrors : Mirrors analyzer.table site earlier)
    (hroute : Route site steps visits last) :
    Mirrors (analyzer.run steps).table last (earlier ++ visits) := by
  induction hroute generalizing analyzer earlier with
  | refl site => simpa using hmirrors
  | cons hmove hroute ih =>
      rw [Analyzer.run_append, ← List.append_assoc]
      exact ih (hmirrors.move hmove)

end Mirrors

def Diagnostic.ofKind (kind : Kind) (diagnostics : List Diagnostic) :
    List Diagnostic :=
  diagnostics.filter fun diagnostic => diagnostic.kind == kind

theorem Diagnostic.ofKind_append (kind : Kind)
    (first second : List Diagnostic) :
    ofKind kind (first ++ second) = ofKind kind first ++ ofKind kind second :=
  List.filter_append _ _

namespace Analyzer

open Diagnostic (ofKind ofKind_append)

variable {kind : Diagnostic.Kind} (analyzer : Analyzer)

theorem ofKind_report (line : Nat) (problem : Problem) :
    ofKind kind (analyzer.report line problem).diagnostics =
      ofKind kind analyzer.diagnostics ++
        if problem.kind = kind then [⟨problem, line⟩] else [] := by
  rw [report, ofKind_append]
  by_cases hkind : problem.kind = kind <;>
    simp [ofKind, Diagnostic.kind, hkind]

theorem ofKind_report_of_ne {problem : Problem} (hkind : kind ≠ problem.kind)
    (line : Nat) :
    ofKind kind (analyzer.report line problem).diagnostics =
      ofKind kind analyzer.diagnostics := by
  rw [ofKind_report, if_neg hkind.symm, List.append_nil]

/-- Declarations are reported as redeclarations only. -/
theorem ofKind_declare (hkind : kind ≠ .redeclaration) (name : String)
    (ty : Ty) (line : Nat) (initialized : Bool) (literal : Option String) :
    ofKind kind
        (analyzer.declare name ty line initialized literal).diagnostics =
      ofKind kind analyzer.diagnostics := by
  unfold declare
  dsimp only
  split
  · exact analyzer.ofKind_report_of_ne hkind line
  · rfl

theorem ofKind_checkAssigned (hkind : kind ≠ .typeMismatch) (name : String)
    (line id : Nat) (literal : Option String) :
    ofKind kind (analyzer.checkAssigned name line id literal).diagnostics =
      ofKind kind analyzer.diagnostics := by
  unfold checkAssigned
  split
  · rfl
  · dsimp only
    split
    · rfl
    · exact analyzer.ofKind_report_of_ne hkind line

/-- Operators are reported as type mismatches only. -/
theorem ofKind_apply (hkind : kind ≠ .typeMismatch) (operator : Operator)
    (left right : Operand) (line : Nat) :
    ofKind kind (analyzer.apply operator left right line).diagnostics =
      ofKind kind analyzer.diagnostics := by
  unfold apply
  dsimp only
  split
  · rfl
  · exact analyzer.ofKind_report_of_ne hkind line

theorem ofKind_unused (hkind : kind ≠ .unusedVariable) :
    ofKind kind analyzer.unused = [] := by
  rw [ofKind, List.filter_eq_nil_iff]
  intro diagnostic hdiagnostic
  obtain ⟨entry, _, rfl⟩ := List.mem_map.mp hdiagnostic
  simpa [Diagnostic.kind, Problem.kind] using hkind.symm

theorem undeclaredUse_assign (name : String) (line : Nat)
    (literal : Option String) :
    ofKind .undeclaredUse (analyzer.assign name line literal).diagnostics =
      ofKind .undeclaredUse analyzer.diagnostics ++
        if analyzer.table.resolve name = none then
          [⟨.assignedUndeclared name, line⟩] else [] := by
  unfold assign
  split
  · rename_i hfound
    rw [ofKind_report, hfound]
    rfl
  · rename_i id hfound
    rw [ofKind_checkAssigned _ (by decide), hfound]
    exact (List.append_nil _).symm

theorem undeclaredUse_use (name : String) (line : Nat) :
    ofKind .undeclaredUse (analyzer.use name line).diagnostics =
      ofKind .undeclaredUse analyzer.diagnostics ++
        if analyzer.table.resolve name = none then
          [⟨.undeclared name, line⟩] else [] := by
  unfold use
  split
  · rename_i hfound
    rw [ofKind_report, hfound]
    rfl
  · rename_i id hfound
    rw [hfound]
    split
    · exact (List.append_nil _).symm
    · rw [ofKind_report_of_ne _ (by simp [Problem.kind])]
      exact (List.append_nil _).symm

end Analyzer

namespace Mirrors

open Diagnostic (ofKind ofKind_append)

variable {analyzer : Analyzer} {site next : Site} {earlier : List Visit}

/-- What is reported at the use of a name. -/
theorem report?_toList (hmirrors : Mirrors analyzer.table site earlier)
    (node : Node) {use : Use} (huse : node.use? = some use) :
    (if analyzer.table.resolve use.name = none then
        [(⟨use.problem, use.line⟩ : Diagnostic)] else []) =
      (occurrences earlier [⟨node, site.scopes⟩]).filterMap
        Occurrence.report? := by
  have hnone := hmirrors.resolve_eq_none_iff node use.name
  by_cases hresolve : analyzer.table.resolve use.name = none
  · simp [occurrences, Occurrence.report?, huse, hresolve, hnone.mp hresolve]
  · have hdeclared := mt hnone.mpr hresolve
    simp [occurrences, Occurrence.report?, huse, hresolve, hdeclared]

/-- What the moves report of a kind adds up along a route. -/
theorem ofKind_route {kind : Diagnostic.Kind}
    {report? : Occurrence → Option Diagnostic}
    (hmoves : ∀ {analyzer : Analyzer} {site next : Site} {earlier : List Visit}
      {step : Option Step} {visit : Option Visit},
      Mirrors analyzer.table site earlier → Move site step visit next →
        ofKind kind (analyzer.run step.toList).diagnostics =
          ofKind kind analyzer.diagnostics ++
            (occurrences earlier visit.toList).filterMap report?)
    {last : Site} {steps : List Step} {visits : List Visit}
    (hmirrors : Mirrors analyzer.table site earlier)
    (hroute : Route site steps visits last) :
    ofKind kind (analyzer.run steps).diagnostics =
      ofKind kind analyzer.diagnostics ++
        (occurrences earlier visits).filterMap report? := by
  induction hroute generalizing analyzer earlier with
  | refl site => simp [occurrences]
  | cons hmove hroute ih =>
      rw [Analyzer.run_append, ih (hmirrors.move hmove),
        hmoves hmirrors hmove, occurrences_append,
        List.filterMap_append, List.append_assoc]

/-- A move reports the undeclared name that its visit uses, if it does. -/
theorem undeclaredUse_move {step : Option Step} {visit : Option Visit}
    (hmirrors : Mirrors analyzer.table site earlier)
    (hmove : Move site step visit next) :
    ofKind .undeclaredUse (analyzer.run step.toList).diagnostics =
      ofKind .undeclaredUse analyzer.diagnostics ++
        (occurrences earlier visit.toList).filterMap Occurrence.report? := by
  cases hmove with
  | pass site node hpassed =>
      have huse := Node.use?_of_isPassed hpassed
      simp [occurrences, Occurrence.report?, huse]
  | declare site ty name initializer position =>
      exact (analyzer.ofKind_declare (by decide) _ _ _ _ _).trans
        (List.append_nil _).symm
  | assign site target value position =>
      have hreport :=
        hmirrors.report?_toList (.assignment target value position) rfl
      exact (analyzer.undeclaredUse_assign _ _ _).trans (congrArg _ hreport)
  | use site text position =>
      have hreport := hmirrors.report?_toList (.identifier text position) rfl
      exact (analyzer.undeclaredUse_use _ _).trans (congrArg _ hreport)
  | apply site operator left right position =>
      exact (analyzer.ofKind_apply (by decide) _ _ _ _).trans
        (List.append_nil _).symm
  | enter scopes fresh form condition body position =>
      exact (List.append_nil _).symm
  | leave inner scope scopes fresh => exact (List.append_nil _).symm

theorem undeclaredUse_route {last : Site} {steps : List Step}
    {visits : List Visit} (hmirrors : Mirrors analyzer.table site earlier)
    (hroute : Route site steps visits last) :
    ofKind .undeclaredUse (analyzer.run steps).diagnostics =
      ofKind .undeclaredUse analyzer.diagnostics ++
        (occurrences earlier visits).filterMap Occurrence.report? :=
  ofKind_route undeclaredUse_move hmirrors hroute

/-- A move looks up the name that its visit uses, if it does. -/
theorem lookups_move {step : Option Step} {visit : Option Visit}
    (hmirrors : Mirrors analyzer.table site earlier)
    (hmove : Move site step visit next) :
    List.Forall₂ (Occurrence.Finds (declared earlier))
      ((occurrences earlier visit.toList).filter Occurrence.isUse)
      (analyzer.lookups step.toList) := by
  have hfinds : ∀ (node : Node) {use : Use}, node.use? = some use →
      Occurrence.Finds (declared earlier) ⟨earlier, ⟨node, site.scopes⟩⟩
        (analyzer.table.resolve use.name) := by
    intro node use huse
    rw [← hmirrors.symbols]
    exact ⟨use, huse, hmirrors.resolves node use.name⟩
  cases hmove with
  | pass site node hpassed =>
      have huse := Node.use?_of_isPassed hpassed
      simp [occurrences, Occurrence.isUse, huse, Analyzer.lookups]
  | declare site ty name initializer position => exact .nil
  | assign site target value position =>
      have hfound := hfinds (.assignment target value position) rfl
      exact .cons hfound .nil
  | use site text position =>
      have hfound := hfinds (.identifier text position) rfl
      exact .cons hfound .nil
  | apply site operator left right position => exact .nil
  | enter scopes fresh form condition body position => exact .nil
  | leave inner scope scopes fresh => exact .nil

theorem lookups_route {last : Site} {steps : List Step}
    {visits : List Visit} (hmirrors : Mirrors analyzer.table site earlier)
    (hroute : Route site steps visits last) :
    List.Forall₂ (Occurrence.Finds (declared (earlier ++ visits)))
      ((occurrences earlier visits).filter Occurrence.isUse)
      (analyzer.lookups steps) := by
  induction hroute generalizing analyzer earlier with
  | refl site => exact .nil
  | cons hmove hroute ih =>
      rw [Analyzer.lookups_append, occurrences_append, List.filter_append]
      refine List.rel_append ?_ ?_
      · exact (hmirrors.lookups_move hmove).imp fun occurrence found hfinds =>
          hfinds.mono (declared_mono _ _)
      · rw [← List.append_assoc]
        exact ih (hmirrors.move hmove)

end Mirrors

/-- Names are scoped lexically.  The uses of undeclared names are reported one
by one, in the order of the visits and on the lines of the nodes; all other used
names are found to stand for the first declaration in the innermost scope that
has one. -/
theorem analyze_resolves_lexically (root : Node) :
    let visits := root.visits [0] 1
    visits.map Visit.node = root.preorder ∧
      Diagnostic.ofKind .undeclaredUse (analyze root).diagnostics =
        (occurrences [] visits).filterMap Occurrence.report? ∧
      List.Forall₂ (Occurrence.Finds (analyze root).symbols)
        ((occurrences [] visits).filter Occurrence.isUse)
        (({} : Analyzer).lookups root.walk) ∧
      ((analyze root).symbols.map fun symbol =>
        (symbol.name, symbol.scope)).Nodup := by
  intro visits
  have hroute := root.walk_route 0 [] 1
  have hstart : Mirrors ({} : Analyzer).table ⟨[0], 1⟩ [] := Mirrors.start
  have hsymbols : (analyze root).symbols = declared visits :=
    (hstart.route hroute).symbols
  refine ⟨root.visits_map_node [0] 1, ?_, ?_, ?_⟩
  · rw [analyze, Analyzer.outcome, Diagnostic.ofKind_append,
      Analyzer.ofKind_unused _ (by decide), List.append_nil,
      hstart.undeclaredUse_route hroute]
    rfl
  · rw [hsymbols]
    exact hstart.lookups_route hroute
  · rw [hsymbols]
    exact declared_nodup visits

end ThreeAddress
