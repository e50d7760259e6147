import ThreeAddress.Instruction.Lowering
import ThreeAddress.Proofs.Scoping

/-!
Every declaration of a tree is accounted for.  Code declares each of them, in
the order of the tree.  Analysis takes the first one of a name directly in a
scope for a symbol, and reports every other one on its own line, with the line
of the first.
-/

namespace ThreeAddress

def Instruction.isDeclaration (instruction : Instruction) : Bool :=
  instruction.opcode == .declare

def Node.declaration? : Node → Option Instruction
  | declaration ty name _ _ => some (.declare ty name.text)
  | _ => none

namespace Node

mutual

/-- The code of a tree declares what the tree declares. -/
theorem lower_declarations (node : Node) (next : Nat) :
    (node.lower next).code.filter Instruction.isDeclaration =
      node.preorder.filterMap declaration? := by
  cases node with
  | compound form statements position =>
      exact lowerAll_declarations statements next
  | declaration ty name initializer position =>
      have hvalue := lowerOption_declarations initializer next
      cases initializer with
      | none => rfl
      | some value =>
          simpa [lower, preorder, declaration?, Instruction.isDeclaration,
            Instruction.declare, Instruction.assign] using hvalue
  | assignment target value position =>
      have hvalue := lowerOption_declarations value next
      simpa [lower, preorder, List.filterMap_cons, declaration?,
        Instruction.isDeclaration, Instruction.assign] using hvalue
  | conditional form condition body position =>
      simp [lower, preorder, List.filterMap_cons, declaration?,
        lowerOption_declarations condition, lowerOption_declarations body]
  | result value position => exact lowerOption_declarations value next
  | binary operator left right position =>
      have hleft := lower_declarations left next
      have hright := lower_declarations right (left.lower next).next
      simp [lower, preorder, List.filterMap_cons, declaration?, hleft, hright,
        Instruction.isDeclaration, Instruction.binary]
  | identifier text position => rfl
  | literal text position => rfl

theorem lowerAll_declarations (nodes : List Node) (next : Nat) :
    (lowerAll nodes next).code.filter Instruction.isDeclaration =
      (preorderAll nodes).filterMap declaration? := by
  cases nodes with
  | nil => rfl
  | cons node rest =>
      simp [lowerAll, preorderAll, lower_declarations node,
        lowerAll_declarations rest]

theorem lowerOption_declarations (node : Option Node) (next : Nat) :
    (lowerOption node next).code.filter Instruction.isDeclaration =
      (preorderOption node).filterMap declaration? := by
  cases node with
  | none => rfl
  | some node => exact lower_declarations node next

end

end Node

/-- What is to be reported at a declaration that is not the first of its name
directly in its scope. -/
def Occurrence.redeclaration? (occurrence : Occurrence) : Option Diagnostic :=
  occurrence.visit.symbol?.bind fun symbol =>
    ((occurrence.earlier.find? fun visit =>
      visit.declares symbol.name symbol.scope).bind Visit.symbol?).map
        fun first => ⟨.redeclared symbol.name first.line, symbol.line⟩

/-- A declaration brings in its symbol or is reported, and not both. -/
theorem Occurrence.symbol?_isSome (occurrence : Occurrence)
    (hsymbol : occurrence.visit.symbol?.isSome = true) :
    occurrence.symbol?.isSome = !occurrence.redeclaration?.isSome := by
  obtain ⟨symbol, hvisit⟩ := Option.isSome_iff_exists.mp hsymbol
  cases hfirst : occurrence.earlier.find? fun visit =>
      visit.declares symbol.name symbol.scope with
  | none =>
      have hnew := symbol?_eq_some_iff.mpr ⟨hvisit, hfirst⟩
      simp [hnew, redeclaration?, hvisit, hfirst]
  | some first =>
      obtain ⟨found, hfound⟩ := Visit.exists_symbol_of_find? hfirst
      have hnone : occurrence.symbol? = none := by
        rw [Option.eq_none_iff_forall_ne_some]
        intro other hother
        obtain ⟨hsame, hfree⟩ := symbol?_eq_some_iff.mp hother
        obtain rfl := Option.some.inj (hvisit.symm.trans hsame)
        simp [hfirst] at hfree
      simp [hnone, redeclaration?, hvisit, hfirst, hfound]

namespace Analyzer

open Diagnostic (ofKind)

variable {kind : Diagnostic.Kind} (analyzer : Analyzer)

/-- Assignments are reported as undeclared uses and type mismatches only. -/
theorem ofKind_assign (hundeclared : kind ≠ .undeclaredUse)
    (hmismatch : kind ≠ .typeMismatch) (name : String) (line : Nat)
    (literal : Option String) :
    ofKind kind (analyzer.assign name line literal).diagnostics =
      ofKind kind analyzer.diagnostics := by
  unfold assign
  split
  · exact analyzer.ofKind_report_of_ne hundeclared line
  · rw [ofKind_checkAssigned _ hmismatch]
    rfl

/-- Names are reported as undeclared or as used too early only. -/
theorem ofKind_use (hundeclared : kind ≠ .undeclaredUse)
    (hearly : kind ≠ .useBeforeInit) (name : String) (line : Nat) :
    ofKind kind (analyzer.use name line).diagnostics =
      ofKind kind analyzer.diagnostics := by
  unfold use
  split
  · exact analyzer.ofKind_report_of_ne hundeclared line
  · split
    · rfl
    · exact analyzer.ofKind_report_of_ne hearly line

end Analyzer

/-- The errors of an analysis are those that the walk meets. -/
theorem analyze_ofKind {kind : Diagnostic.Kind} (hkind : kind ≠ .unusedVariable)
    (root : Node) :
    Diagnostic.ofKind kind (analyze root).diagnostics =
      Diagnostic.ofKind kind (({} : Analyzer).run root.walk).diagnostics := by
  rw [analyze, Analyzer.outcome, Diagnostic.ofKind_append,
    Analyzer.ofKind_unused _ hkind, List.append_nil]

namespace Mirrors

open Diagnostic (ofKind)

variable {analyzer : Analyzer} {site next : Site} {earlier : List Visit}

/-- A declaration is reported if the scope has one of that name already. -/
theorem redeclaration_declare (hmirrors : Mirrors analyzer.table site earlier)
    (ty : Ty) (name : Name) (initializer : Option Node)
    (position : Option Position) :
    ofKind .redeclaration
        (analyzer.declare name.text ty
          (Node.declaration ty name initializer position).line
          initializer.isSome
          (initializer.bind Node.literalText?)).diagnostics =
      ofKind .redeclaration analyzer.diagnostics ++
        (occurrences earlier
          [⟨.declaration ty name initializer position,
            site.scopes⟩]).filterMap Occurrence.redeclaration? := by
  obtain ⟨scopes, fresh⟩ := site
  obtain ⟨outer, hstack⟩ := hmirrors.wellFormed.stack_eq
  obtain rfl : scopes = analyzer.table.current :: outer :=
    hmirrors.stack.symm.trans hstack
  have hreport : Occurrence.redeclaration? ⟨earlier,
      ⟨.declaration ty name initializer position,
        analyzer.table.current :: outer⟩⟩ =
      ((earlier.find? fun visit => visit.declares name.text
        analyzer.table.current).bind Visit.symbol?).map fun first =>
          ⟨.redeclared name.text first.line,
            (Node.declaration ty name initializer position).line⟩ := rfl
  rw [Analyzer.declare, hmirrors.lookupLocal_eq name.text, occurrences,
    occurrences, List.filterMap_cons, hreport]
  cases (earlier.find? fun visit => visit.declares name.text
      analyzer.table.current).bind Visit.symbol? with
  | some first => simp [Analyzer.ofKind_report, Problem.kind]
  | none => simp [Analyzer.update]

/-- A move reports the declaration that its visit is, if there is an earlier
one. -/
theorem redeclaration_move {step : Option Step} {visit : Option Visit}
    (hmirrors : Mirrors analyzer.table site earlier)
    (hmove : Move site step visit next) :
    ofKind .redeclaration (analyzer.run step.toList).diagnostics =
      ofKind .redeclaration analyzer.diagnostics ++
        (occurrences earlier visit.toList).filterMap
          Occurrence.redeclaration? := by
  cases hmove with
  | pass site node hpassed =>
      have hsymbol := Visit.symbol?_of_isPassed hpassed site.scopes
      simp [occurrences, Occurrence.redeclaration?, hsymbol]
  | declare site ty name initializer position =>
      exact hmirrors.redeclaration_declare ty name initializer position
  | assign site target value position =>
      exact (analyzer.ofKind_assign (by decide) (by decide) _ _ _).trans
        (List.append_nil _).symm
  | use site text position =>
      exact (analyzer.ofKind_use (by decide) (by decide) _ _).trans
        (List.append_nil _).symm
  | apply site operator left right position =>
      exact (analyzer.ofKind_apply (by decide) _ _ _ _).trans
        (List.append_nil _).symm
  | enter scopes fresh form condition body position =>
      exact (List.append_nil _).symm
  | leave inner scope scopes fresh => exact (List.append_nil _).symm

theorem redeclaration_route {last : Site} {steps : List Step}
    {visits : List Visit} (hmirrors : Mirrors analyzer.table site earlier)
    (hroute : Route site steps visits last) :
    ofKind .redeclaration (analyzer.run steps).diagnostics =
      ofKind .redeclaration analyzer.diagnostics ++
        (occurrences earlier visits).filterMap Occurrence.redeclaration? :=
  ofKind_route redeclaration_move hmirrors hroute

end Mirrors

/-- On a route that starts in a scope every visit is made in one. -/
theorem Route.scopes_ne_nil {site last : Site} {steps : List Step}
    {visits : List Visit} (hroute : Route site steps visits last)
    (hscopes : site.scopes ≠ []) : ∀ visit ∈ visits, visit.scopes ≠ [] := by
  induction hroute with
  | refl site => simp
  | cons hmove hroute ih =>
      intro visit hvisit
      rw [List.mem_append, Option.mem_toList] at hvisit
      rcases hvisit with hvisit | hvisit
      · cases hmove <;> cases hvisit <;> exact hscopes
      · refine ih ?_ visit hvisit
        cases hmove <;> simp_all

theorem occurrences_map_visit (earlier visits : List Visit) :
    (occurrences earlier visits).map Occurrence.visit = visits := by
  induction visits generalizing earlier with
  | nil => rfl
  | cons visit rest ih => simp [occurrences, ih]

theorem Visit.symbol?_isSome {visit : Visit} (hscopes : visit.scopes ≠ []) :
    visit.symbol?.isSome = visit.node.declaration?.isSome := by
  obtain ⟨node, scopes⟩ := visit
  obtain ⟨scope, outer, rfl⟩ := List.exists_cons_of_ne_nil hscopes
  cases node <;> rfl

/-- Each declaration counts once, as a symbol or as a report. -/
theorem length_declarations (earlier : List Visit) {visits : List Visit}
    (hscopes : ∀ visit ∈ visits, visit.scopes ≠ []) :
    ((visits.map Visit.node).filterMap Node.declaration?).length =
      ((occurrences earlier visits).filterMap Occurrence.symbol?).length +
        ((occurrences earlier visits).filterMap
          Occurrence.redeclaration?).length := by
  simp only [List.length_filterMap_eq_countP]
  induction visits generalizing earlier with
  | nil => rfl
  | cons visit rest ih =>
      obtain ⟨hhead, hrest⟩ := List.forall_mem_cons.mp hscopes
      have hdeclaration := Visit.symbol?_isSome hhead
      simp only [occurrences, List.map_cons, List.countP_cons,
        ih (earlier ++ [visit]) hrest]
      cases hsymbol : visit.symbol? with
      | none =>
          rw [hsymbol] at hdeclaration
          simp [← hdeclaration, Occurrence.symbol?, Occurrence.redeclaration?,
            hsymbol]
      | some symbol =>
          have hone := Occurrence.symbol?_isSome ⟨earlier, visit⟩
            (by simp [hsymbol])
          rw [hsymbol] at hdeclaration
          cases hreport : (Occurrence.redeclaration? ⟨earlier, visit⟩).isSome <;>
            simp [← hdeclaration, hone, hreport] <;> omega

/-- The declarations of a tree are accounted for.  Code declares each, in order.
The symbols are those of the declarations that are the first of their name
directly in their scope, and every other declaration is reported once, on its own
line and with the line of that first one; nothing else is reported as a
redeclaration. -/
theorem analyze_accounts_declarations (root : Node) :
    let visits := root.visits [0] 1
    visits.map Visit.node = root.preorder ∧
      (generate root).filter Instruction.isDeclaration =
        root.preorder.filterMap Node.declaration? ∧
      (analyze root).symbols =
        (occurrences [] visits).filterMap Occurrence.symbol? ∧
      ((analyze root).symbols.map fun symbol =>
        (symbol.name, symbol.scope)).Nodup ∧
      Diagnostic.ofKind .redeclaration (analyze root).diagnostics =
        (occurrences [] visits).filterMap Occurrence.redeclaration? ∧
      (∀ occurrence ∈ occurrences [] visits,
        occurrence.visit.node.declaration?.isSome = true →
          occurrence.symbol?.isSome = !occurrence.redeclaration?.isSome) ∧
      ((generate root).filter Instruction.isDeclaration).length =
        (analyze root).symbols.length +
          (Diagnostic.ofKind .redeclaration
            (analyze root).diagnostics).length := by
  intro visits
  have hroute := root.walk_route 0 [] 1
  have hstart : Mirrors ({} : Analyzer).table ⟨[0], 1⟩ [] := Mirrors.start
  have hnodes := root.visits_map_node [0] 1
  have hcode : (generate root).filter Instruction.isDeclaration =
      root.preorder.filterMap Node.declaration? := root.lower_declarations 0
  have hsymbols : (analyze root).symbols = declared visits :=
    (hstart.route hroute).symbols
  have hreports : Diagnostic.ofKind .redeclaration (analyze root).diagnostics =
      (occurrences [] visits).filterMap Occurrence.redeclaration? :=
    (analyze_ofKind (by decide) root).trans (hstart.redeclaration_route hroute)
  have hscopes : ∀ visit ∈ visits, visit.scopes ≠ [] :=
    hroute.scopes_ne_nil (by simp)
  refine ⟨hnodes, hcode, hsymbols, ?_, hreports, ?_, ?_⟩
  · rw [hsymbols]
    exact declared_nodup visits
  · intro occurrence hoccurrence hdeclaration
    have hvisit : occurrence.visit ∈ visits := by
      rw [← occurrences_map_visit [] visits]
      exact List.mem_map_of_mem hoccurrence
    apply occurrence.symbol?_isSome
    rwa [Visit.symbol?_isSome (hscopes _ hvisit)]
  · rw [hcode, ← hnodes, hsymbols, hreports]
    exact length_declarations [] hscopes

end ThreeAddress
