import ThreeAddress.Proofs.Operands
import ThreeAddress.Proofs.Temporaries
import ThreeAddress.Proofs.UsageMarks

/-!
Type mismatches along the walk.  An operator is checked when it is left, after
its operands, and an assignment when it is entered.  In the order in which nodes
are left, what is reported is what the tree tells of them.
-/

namespace ThreeAddress

namespace Node

/-- Put an operator after what is below it, and any other node before. -/
def depart (occurrence : Occurrence) (below : List Occurrence) :
    List Occurrence :=
  if occurrence.visit.node.isBinary then below ++ [occurrence]
  else occurrence :: below

mutual

/-- The nodes of a tree as they occur, an operator after its operands and any
other node before its children. -/
def departures : Node → (scopes : List Nat) → (fresh : Nat) →
    (earlier : List Visit) → List Occurrence
  | compound form statements position, scopes, fresh, earlier =>
      let visit : Visit := ⟨compound form statements position, scopes⟩
      depart ⟨earlier, visit⟩
        (departuresAll statements scopes fresh (earlier ++ [visit]))
  | declaration ty name initializer position, scopes, fresh, earlier =>
      let visit : Visit := ⟨declaration ty name initializer position, scopes⟩
      depart ⟨earlier, visit⟩
        (departuresOption initializer scopes fresh (earlier ++ [visit]))
  | assignment target value position, scopes, fresh, earlier =>
      let visit : Visit := ⟨assignment target value position, scopes⟩
      depart ⟨earlier, visit⟩
        (departuresOption value scopes fresh (earlier ++ [visit]))
  | conditional form condition body position, scopes, fresh, earlier =>
      let visit : Visit := ⟨conditional form condition body position, scopes⟩
      let tested := visitsOption condition (fresh :: scopes) (fresh + 1)
      depart ⟨earlier, visit⟩
        (departuresOption condition (fresh :: scopes) (fresh + 1)
            (earlier ++ [visit]) ++
          departuresOption body (fresh :: scopes)
            (fresh + 1 + countConditionals (preorderOption condition))
            (earlier ++ [visit] ++ tested))
  | result value position, scopes, fresh, earlier =>
      let visit : Visit := ⟨result value position, scopes⟩
      depart ⟨earlier, visit⟩
        (departuresOption value scopes fresh (earlier ++ [visit]))
  | binary operator left right position, scopes, fresh, earlier =>
      let visit : Visit := ⟨binary operator left right position, scopes⟩
      depart ⟨earlier, visit⟩
        (left.departures scopes fresh (earlier ++ [visit]) ++
          right.departures scopes (fresh + countConditionals left.preorder)
            (earlier ++ [visit] ++ left.visits scopes fresh))
  | identifier text position, scopes, _, earlier =>
      depart ⟨earlier, ⟨identifier text position, scopes⟩⟩ []
  | literal text position, scopes, _, earlier =>
      depart ⟨earlier, ⟨literal text position, scopes⟩⟩ []

def departuresAll : List Node → (scopes : List Nat) → (fresh : Nat) →
    (earlier : List Visit) → List Occurrence
  | [], _, _, _ => []
  | node :: rest, scopes, fresh, earlier =>
      node.departures scopes fresh earlier ++
        departuresAll rest scopes (fresh + countConditionals node.preorder)
          (earlier ++ node.visits scopes fresh)

def departuresOption : Option Node → (scopes : List Nat) → (fresh : Nat) →
    (earlier : List Visit) → List Occurrence
  | none, _, _, _ => []
  | some node, scopes, fresh, earlier => node.departures scopes fresh earlier

end

theorem departuresAll_append (first second : List Node) (scopes : List Nat)
    (fresh : Nat) (earlier : List Visit) :
    departuresAll (first ++ second) scopes fresh earlier =
      departuresAll first scopes fresh earlier ++
        departuresAll second scopes
          (fresh + countConditionals (preorderAll first))
          (earlier ++ visitsAll first scopes fresh) := by
  induction first generalizing fresh earlier with
  | nil => simp [departuresAll, visitsAll, preorderAll]
  | cons node rest ih =>
      simp [departuresAll, visitsAll, preorderAll, ih, Nat.add_assoc]

theorem departuresAll_toList (node : Option Node) (scopes : List Nat)
    (fresh : Nat) (earlier : List Visit) :
    departuresAll node.toList scopes fresh earlier =
      departuresOption node scopes fresh earlier := by
  cases node with
  | none => rfl
  | some node => simp [departuresAll, departuresOption]

theorem departures_eq (node : Node) (scopes : List Nat) (fresh : Nat)
    (earlier : List Visit) :
    node.departures scopes fresh earlier =
      depart ⟨earlier, ⟨node, scopes⟩⟩
        (departuresAll node.children
          (if node.isConditional then fresh :: scopes else scopes)
          (if node.isConditional then fresh + 1 else fresh)
          (earlier ++ [⟨node, scopes⟩])) := by
  cases node with
  | conditional form condition body position =>
      simp [departures, children, isConditional, departuresAll_append,
        departuresAll_toList, visitsAll_toList, preorderAll_toList]
  | _ =>
      simp [departures, children, isConditional, departuresAll,
        departuresAll_toList]

theorem depart_perm (occurrence : Occurrence) (below : List Occurrence) :
    (depart occurrence below).Perm (occurrence :: below) := by
  unfold depart
  split
  · exact List.perm_append_singleton occurrence below
  · exact .refl _

theorem departuresAll_perm {nodes : List Node}
    (hnodes : ∀ node ∈ nodes, ∀ scopes fresh earlier,
      (node.departures scopes fresh earlier).Perm
        (occurrences earlier (node.visits scopes fresh)))
    (scopes : List Nat) (fresh : Nat) (earlier : List Visit) :
    (departuresAll nodes scopes fresh earlier).Perm
      (occurrences earlier (visitsAll nodes scopes fresh)) := by
  induction nodes generalizing fresh earlier with
  | nil => exact .nil
  | cons node rest ih =>
      obtain ⟨hnode, hrest⟩ := List.forall_mem_cons.mp hnodes
      rw [departuresAll, visitsAll, occurrences_append]
      exact (hnode scopes fresh earlier).append (ih hrest _ _)

/-- The departures are the occurrences in another order. -/
theorem departures_perm (node : Node) :
    ∀ scopes fresh earlier, (node.departures scopes fresh earlier).Perm
      (occurrences earlier (node.visits scopes fresh)) := by
  induction node using children_induction with
  | step node ih =>
      intro scopes fresh earlier
      rw [departures_eq, visits_eq, occurrences]
      exact (depart_perm _ _).trans
        (List.Perm.cons _ (departuresAll_perm ih _ _ _))

end Node

/-! What analysis reports along the walk. -/

theorem Mirrors.operandType_eq {analyzer : Analyzer} {site : Site}
    {earlier : List Visit} (hmirrors : Mirrors analyzer.table site earlier)
    (node : Node) :
    analyzer.operandType node.operand =
      Occurrence.ty ⟨earlier, ⟨node, site.scopes⟩⟩ := by
  cases node with
  | identifier text position =>
      rcases hmirrors.resolve_cases (.identifier text position) text with
        ⟨hnone, hreferent⟩ | ⟨id, symbol, hfound, hid, hreferent⟩
      · simp [Analyzer.operandType, Node.operand, Occurrence.ty, hnone,
          hreferent]
      · simp [Analyzer.operandType, Node.operand, Occurrence.ty, hfound,
          hreferent, SymbolTable.typeOf, hid]
  | _ => rfl

open Diagnostic (ofKind)

/-- A table at a site of the walk, after visits of regular nodes. -/
structure Typed (table : SymbolTable) (site : Site) (earlier : List Visit) :
    Prop where
  mirrors : Mirrors table site earlier
  regular : ∀ visit ∈ earlier, visit.node.isRegular = true

namespace Typed

variable {analyzer : Analyzer} {site next : Site} {scope fresh : Nat}
  {scopes : List Nat} {earlier visits : List Visit}

theorem route {steps : List Step} (htyped : Typed analyzer.table site earlier)
    (hroute : Route site steps visits next)
    (hvisits : ∀ node ∈ visits.map Visit.node, node.isRegular = true) :
    Typed (analyzer.run steps).table next (earlier ++ visits) :=
  ⟨htyped.mirrors.route hroute, List.forall_mem_append.mpr
    ⟨htyped.regular, List.forall_mem_map.mp hvisits⟩⟩

/-- Entering a regular node. -/
theorem enter {step : Option Step} {visit : Visit}
    (htyped : Typed analyzer.table site earlier)
    (hmove : Move site step (some visit) next)
    (hvisit : visit.node.isRegular = true) :
    Typed (analyzer.run step.toList).table next (earlier ++ [visit]) :=
  htyped.route (.single hmove) (by simpa using hvisit)

/-- Walking through a regular tree. -/
theorem walk (htyped : Typed analyzer.table ⟨scope :: scopes, fresh⟩ earlier)
    {node : Node} (hregular : node.Regular) :
    Typed (analyzer.run node.walk).table
      ⟨scope :: scopes, fresh + Node.countConditionals node.preorder⟩
      (earlier ++ node.visits (scope :: scopes) fresh) :=
  htyped.route (node.walk_route scope scopes fresh)
    (by rwa [Node.visits_map_node])

theorem walkOption
    (htyped : Typed analyzer.table ⟨scope :: scopes, fresh⟩ earlier)
    {value : Option Node} (hregular : ∀ node ∈ value, node.Regular) :
    Typed (analyzer.run (Node.walkOption value)).table
      ⟨scope :: scopes,
        fresh + Node.countConditionals (Node.preorderOption value)⟩
      (earlier ++ Node.visitsOption value (scope :: scopes) fresh) := by
  cases value with
  | none =>
      simpa [Node.walkOption, Node.visitsOption, Node.preorderOption] using
        htyped
  | some node => exact htyped.walk (hregular node rfl)

/-- When both operands have been visited, their types are still those that were
known where they stand. -/
theorem operandTypes {occurrence : Occurrence} {left right : Node}
    (hscopes : occurrence.visit.scopes = site.scopes)
    (hleft : left.isExpression = true) (hright : right.isExpression = true)
    (htyped : Typed analyzer.table site
      (occurrence.through (left.preorder ++ right.preorder))) :
    analyzer.operandType left.operand = (occurrence.below [] left).ty ∧
      analyzer.operandType right.operand =
        (occurrence.below left.preorder right).ty := by
  have hlookup : ∀ node : Node, analyzer.operandType node.operand =
      (occurrence.below (left.preorder ++ right.preorder) node).ty := by
    intro node
    rw [htyped.mirrors.operandType_eq node, Occurrence.below, hscopes]
  constructor
  · calc analyzer.operandType left.operand
      _ = (occurrence.below (left.preorder ++ right.preorder) left).ty :=
        hlookup left
      _ = (occurrence.below left.preorder left).ty :=
        occurrence.ty_below_append _ hright left
      _ = (occurrence.below [] left).ty :=
        occurrence.ty_below_append [] hleft left
  · rw [hlookup right]
    exact occurrence.ty_below_append _ hright right

end Typed

/-- The mismatches reported on some steps are those at some occurrences. -/
def Reports (analyzer : Analyzer) (steps : List Step)
    (occurrences : List Occurrence) : Prop :=
  ofKind .typeMismatch (analyzer.run steps).diagnostics =
    ofKind .typeMismatch analyzer.diagnostics ++
      occurrences.filterMap Occurrence.mismatch?

namespace Analyzer

theorem typeMismatch_checkAssigned (analyzer : Analyzer) (name : String)
    (line id : Nat) (literal : Option String) :
    ofKind .typeMismatch
        (analyzer.checkAssigned name line id literal).diagnostics =
      ofKind .typeMismatch analyzer.diagnostics ++
        (literal.bind fun text =>
          if (analyzer.table.typeOf id).compatible (Ty.ofLiteral text) then none
          else some (⟨.assignmentMismatch (Ty.ofLiteral text) name
            (analyzer.table.typeOf id), line⟩ : Diagnostic)).toList := by
  cases literal with
  | none => exact (List.append_nil _).symm
  | some text =>
      rw [checkAssigned, Option.bind_some]
      split
      · exact (List.append_nil _).symm
      · exact analyzer.ofKind_report line _

end Analyzer

namespace Reports

variable {analyzer : Analyzer}

theorem append {steps others : List Step} {first second : List Occurrence}
    (hfirst : Reports analyzer steps first)
    (hsecond : Reports (analyzer.run steps) others second) :
    Reports analyzer (steps ++ others) (first ++ second) := by
  unfold Reports at hfirst hsecond ⊢
  rw [Analyzer.run_append, hsecond, hfirst, List.filterMap_append,
    List.append_assoc]

theorem single {steps : List Step} {occurrence : Occurrence}
    (hsteps : ofKind .typeMismatch (analyzer.run steps).diagnostics =
      ofKind .typeMismatch analyzer.diagnostics ++
        occurrence.mismatch?.toList) :
    Reports analyzer steps [occurrence] := by
  unfold Reports
  rw [hsteps]
  cases hmismatch : occurrence.mismatch? <;> simp [hmismatch]

/-- Steps on which no mismatch is reported. -/
theorem silent {steps : List Step} {occurrences : List Occurrence}
    (hsteps : ofKind .typeMismatch (analyzer.run steps).diagnostics =
      ofKind .typeMismatch analyzer.diagnostics)
    (hnone : ∀ occurrence ∈ occurrences, occurrence.mismatch? = none) :
    Reports analyzer steps occurrences := by
  unfold Reports
  rw [hsteps, List.filterMap_eq_nil_iff.mpr hnone, List.append_nil]

/-- An assignment is reported if its literal does not suit the symbol. -/
theorem assign {site : Site} {earlier : List Visit}
    (hmirrors : Mirrors analyzer.table site earlier) (target : Name)
    (value : Option Node) (position : Option Position) :
    Reports analyzer
      [.assign target.text (Node.assignment target value position).line
        (value.bind Node.literalText?)]
      [⟨earlier, ⟨.assignment target value position, site.scopes⟩⟩] := by
  refine single ?_
  change ofKind _ (analyzer.assign _ _ _).diagnostics = _
  simp only [Occurrence.mismatch?]
  rcases hmirrors.resolve_cases (.assignment target value position)
      target.text with ⟨hnone, hreferent⟩ | ⟨id, symbol, hfound, hid, hreferent⟩
  · rw [hreferent, Analyzer.assign, hnone]
    exact (analyzer.ofKind_report_of_ne (by simp [Problem.kind]) _).trans
      (List.append_nil _).symm
  · have hty : analyzer.table.typeOf id = symbol.ty := by
      simp [SymbolTable.typeOf, hid]
    rw [hreferent, Option.bind_some, Analyzer.assign, hfound, ← hty]
    exact Analyzer.typeMismatch_checkAssigned _ _ _ _ _

/-- Entering a node reports its mismatch, unless it is an operator. -/
theorem enter {site next : Site} {earlier : List Visit} {step : Option Step}
    {visit : Visit} (hmirrors : Mirrors analyzer.table site earlier)
    (hmove : Move site step (some visit) next)
    (hbinary : visit.node.isBinary = false) :
    Reports analyzer step.toList [⟨earlier, visit⟩] := by
  cases hmove with
  | pass _ node hpassed =>
      refine silent rfl (List.forall_mem_singleton.mpr ?_)
      cases node with
      | binary operator left right position => simp [Node.isBinary] at hbinary
      | assignment target value position => simp [Node.isPassed] at hpassed
      | _ => rfl
  | declare _ ty name initializer position =>
      exact silent (analyzer.ofKind_declare (by decide) _ _ _ _ _)
        (List.forall_mem_singleton.mpr rfl)
  | assign _ target value position =>
      exact assign hmirrors target value position
  | use _ text position =>
      exact silent (analyzer.ofKind_use (by decide) (by decide) _ _)
        (List.forall_mem_singleton.mpr rfl)
  | enter scopes fresh form condition body position =>
      exact silent rfl (List.forall_mem_singleton.mpr rfl)

/-- An operator is reported if it does not suit its operands.  They have been
visited by then, and with them nothing has been declared. -/
theorem apply {site : Site} {earlier : List Visit} (operator : Operator)
    {left right : Node} (position : Option Position)
    (hleft : left.isExpression = true) (hright : right.isExpression = true) :
    let occurrence : Occurrence :=
      ⟨earlier, ⟨.binary operator left right position, site.scopes⟩⟩
    Typed analyzer.table site
        (occurrence.through (left.preorder ++ right.preorder)) →
      Reports analyzer
        [.apply operator left.operand right.operand occurrence.visit.node.line]
        [occurrence] := by
  intro occurrence htyped
  let first := occurrence.below [] left
  let second := occurrence.below left.preorder right
  obtain ⟨hfirst, hsecond⟩ := htyped.operandTypes rfl hleft hright
  -- the visits before either operand are among those made by now
  have hregular := htyped.regular
  rw [Occurrence.through_append, List.forall_mem_append] at hregular
  have hbefore := hregular.1
  rw [← List.nil_append left.preorder, Occurrence.through_append,
    List.forall_mem_append] at hbefore
  have haccepts : operator.accepts first.ty second.ty =
      !operator.clashes first second :=
    operator.accepts_eq hbefore.1 hregular.1
  have hmismatch : occurrence.mismatch? =
      if operator.clashes first second then
        some ⟨.operandMismatch operator first.ty second.ty,
          occurrence.visit.node.line⟩
      else none := rfl
  refine single ?_
  change ofKind _ (analyzer.apply _ _ _ _).diagnostics = _
  rw [Analyzer.apply, hfirst, hsecond, haccepts, hmismatch]
  cases operator.clashes first second with
  | true => exact analyzer.ofKind_report _ _
  | false => exact (List.append_nil _).symm

end Reports

namespace Node

mutual

/-- The walk through a regular tree reports its mismatches as the nodes are
left. -/
theorem walk_reports (node : Node) (hregular : node.Regular)
    {analyzer : Analyzer} {scope fresh : Nat} {scopes : List Nat}
    {earlier : List Visit}
    (htyped : Typed analyzer.table ⟨scope :: scopes, fresh⟩ earlier) :
    Reports analyzer node.walk
      (node.departures (scope :: scopes) fresh earlier) := by
  obtain ⟨hnode, hchildren⟩ := regular_iff.mp hregular
  cases node with
  | compound form statements position =>
      have hmove := Move.pass ⟨scope :: scopes, fresh⟩
        (compound form statements position) rfl
      exact (Reports.enter htyped.mirrors hmove rfl).append
        (walkAll_reports statements hchildren (htyped.enter hmove hnode))
  | declaration ty name initializer position =>
      have hmove := Move.declare ⟨scope :: scopes, fresh⟩ ty name initializer
        position
      exact (Reports.enter htyped.mirrors hmove rfl).append
        (walkOption_reports initializer (by simpa [children] using hchildren)
          (htyped.enter hmove hnode))
  | assignment target value position =>
      have hmove := Move.assign ⟨scope :: scopes, fresh⟩ target value position
      exact (Reports.enter htyped.mirrors hmove rfl).append
        (walkOption_reports value (by simpa [children] using hchildren)
          (htyped.enter hmove hnode))
  | conditional form condition body position =>
      have hmove := Move.enter (scope :: scopes) fresh form condition body
        position
      obtain ⟨hcondition, hbody⟩ := List.forall_mem_append.mp hchildren
      simp only [Option.mem_toList] at hcondition hbody
      have hinside := htyped.enter hmove hnode
      have hparts := (walkOption_reports condition hcondition hinside).append
        (walkOption_reports body hbody (hinside.walkOption hcondition))
      have hleave : Reports
          ((analyzer.run [.enter form]).run
            (walkOption condition ++ walkOption body)) [.leave] [] :=
        .silent rfl (List.forall_mem_nil _)
      have hreports := (Reports.enter htyped.mirrors hmove rfl).append
        (hparts.append hleave)
      simpa [walk, departures, depart, isBinary] using hreports
  | result value position =>
      have hmove := Move.pass ⟨scope :: scopes, fresh⟩ (result value position)
        rfl
      exact (Reports.enter htyped.mirrors hmove rfl).append
        (walkOption_reports value (by simpa [children] using hchildren)
          (htyped.enter hmove hnode))
  | binary operator left right position =>
      have hmove := Move.pass ⟨scope :: scopes, fresh⟩
        (binary operator left right position) rfl
      -- the operator is visited before its operands and checked after them
      have hexpressions := hnode
      simp only [isRegular, Bool.and_eq_true] at hexpressions
      obtain ⟨hleft, hright⟩ := hexpressions
      have hregularLeft := left.regular_of_isExpression hleft
      have hregularRight := right.regular_of_isExpression hright
      have hbefore := htyped.enter hmove hnode
      have hbetween := hbefore.walk hregularLeft
      have hafter := hbetween.walk hregularRight
      rw [Occurrence.through_operands hleft hright] at hafter
      have happly := Reports.apply operator position hleft hright hafter
      have hreports := (walk_reports left hregularLeft hbefore).append
        ((walk_reports right hregularRight hbetween).append happly)
      simpa [walk, departures, depart, isBinary] using hreports
  | identifier text position =>
      have hmove := Move.use ⟨scope :: scopes, fresh⟩ text position
      exact Reports.enter htyped.mirrors hmove rfl
  | literal text position =>
      have hmove := Move.pass ⟨scope :: scopes, fresh⟩ (literal text position)
        rfl
      exact Reports.enter htyped.mirrors hmove rfl

theorem walkAll_reports (nodes : List Node)
    (hregular : ∀ node ∈ nodes, node.Regular) {analyzer : Analyzer}
    {scope fresh : Nat} {scopes : List Nat} {earlier : List Visit}
    (htyped : Typed analyzer.table ⟨scope :: scopes, fresh⟩ earlier) :
    Reports analyzer (walkAll nodes)
      (departuresAll nodes (scope :: scopes) fresh earlier) := by
  cases nodes with
  | nil => exact .silent rfl (by simp [departuresAll])
  | cons node rest =>
      obtain ⟨hnode, hrest⟩ := List.forall_mem_cons.mp hregular
      exact (walk_reports node hnode htyped).append
        (walkAll_reports rest hrest (htyped.walk hnode))

theorem walkOption_reports (value : Option Node)
    (hregular : ∀ node ∈ value, node.Regular) {analyzer : Analyzer}
    {scope fresh : Nat} {scopes : List Nat} {earlier : List Visit}
    (htyped : Typed analyzer.table ⟨scope :: scopes, fresh⟩ earlier) :
    Reports analyzer (walkOption value)
      (departuresOption value (scope :: scopes) fresh earlier) := by
  cases value with
  | none => exact .silent rfl (by simp [departuresOption])
  | some node => exact walk_reports node (hregular node rfl) htyped

end

end Node

/-- Type mismatches in parsed programs are exact.  One is reported for each
operator that does not suit its operands and each assignment of a literal that
does not suit its symbol, on the line of the node; operators are reported when
they are left, after their operands.  The operands are looked at where they are
visited, and a declared type is always that of numbers or characters. -/
theorem analyze_reports_mismatches (tokens : List Token) :
    let root := parse tokens
    let visits := root.visits [0] 1
    let departures := root.departures [0] 1 []
    visits.map Visit.node = root.preorder ∧
      departures.Perm (occurrences [] visits) ∧
      ofKind .typeMismatch (analyze root).diagnostics =
        departures.filterMap Occurrence.mismatch? ∧
      (∀ occurrence ∈ occurrences [] visits,
        ∀ operand ∈ occurrence.operands, operand ∈ occurrences [] visits) ∧
      ∀ symbol ∈ (analyze root).symbols, symbol.ty ∈ Ty.declarable := by
  intro root visits departures
  have hregular := parse_regular tokens
  have hstart : Typed ({} : Analyzer).table ⟨[0], 1⟩ [] :=
    ⟨Mirrors.start, List.forall_mem_nil _⟩
  refine ⟨root.visits_map_node [0] 1, root.departures_perm [0] 1 [], ?_,
    root.visits_hasOperands hregular [0] 1 [], ?_⟩
  · rw [analyze_ofKind (by decide)]
    exact root.walk_reports hregular hstart
  · rw [analyze_symbols]
    exact ty_mem_declarable (hstart.walk hregular).regular

/-- Neither an undeclared name, nor a nested operand of a comparison, nor logic
is reported. -/
example :
    let source := "char c = 'a';\nx = c + true;\nc = 1.5;\n" ++
      "c = (\"a\" < 1) == (c == 2.5);\nreturn x * 2 && \"b\" < y;"
    ofKind .typeMismatch (analyze (parse (tokenize source))).diagnostics =
      [⟨.operandMismatch .add .char .bool, 2⟩,
        ⟨.assignmentMismatch .float "c" .char, 3⟩,
        ⟨.operandMismatch .lt .string .int, 4⟩,
        ⟨.operandMismatch .eq .char .float, 4⟩] := by
  decide +kernel

end ThreeAddress
