import ThreeAddress.Analysis
import ThreeAddress.Proofs.Declarations
import ThreeAddress.Proofs.Enclosure
import ThreeAddress.Proofs.Usage

/-!
The types of operands and of assigned literals, told from the tree alone.  In a
parsed tree only the types of numbers and characters are declared, and
operators stand above expressions, which declare nothing.  So whether an
operator suits its operands is told where the operands stand, and arithmetic is
done on everything but literals that are texts or truth values.
-/

namespace ThreeAddress

namespace Occurrence

/-- The type that is known of a leaf: that of the symbol that an identifier
refers to, or that of a literal. -/
def ty (occurrence : Occurrence) : Ty :=
  match occurrence.visit.node with
  | .identifier text _ =>
      ((occurrence.referent? text).map Symbol.ty).getD .unknown
  | .literal text _ => Ty.ofLiteral text
  | _ => .unknown

/-- The visits up to here, and those of some nodes that follow in the same
scopes. -/
def through (occurrence : Occurrence) (nodes : List Node) : List Visit :=
  occurrence.earlier ++ occurrence.visit ::
    nodes.map fun node => ⟨node, occurrence.visit.scopes⟩

/-- A node that follows in the same scopes, after some others. -/
def below (occurrence : Occurrence) (others : List Node) (node : Node) :
    Occurrence :=
  ⟨occurrence.through others, ⟨node, occurrence.visit.scopes⟩⟩

/-- The operands of an operator, where they are visited. -/
def operands (occurrence : Occurrence) : List Occurrence :=
  match occurrence.visit.node with
  | .binary _ left right _ =>
      [occurrence.below [] left, occurrence.below left.preorder right]
  | _ => []

end Occurrence

/-- Whether a node is a literal on which no arithmetic is done: a text or a
truth value. -/
def Node.barsArithmetic : Node → Bool
  | literal text _ =>
      Ty.ofLiteral text == .string || Ty.ofLiteral text == .bool
  | _ => false

/-- Whether an operator does not suit its operands.  Arithmetic is barred by
some literals; values are not compared when both their types are known and do
not go together; logic suits everything. -/
def Operator.clashes (operator : Operator) (left right : Occurrence) : Bool :=
  match operator.family with
  | .arithmetic =>
      left.visit.node.barsArithmetic || right.visit.node.barsArithmetic
  | .comparison =>
      left.ty != .unknown && right.ty != .unknown &&
        !left.ty.compatible right.ty
  | .logical => false

namespace Occurrence

/-- What is to be reported at an operator that does not suit its operands, and
at an assignment of a literal that does not suit the symbol. -/
def mismatch? (occurrence : Occurrence) : Option Diagnostic :=
  match occurrence.visit.node with
  | .binary operator left right _ =>
      let first := occurrence.below [] left
      let second := occurrence.below left.preorder right
      if operator.clashes first second then
        some ⟨.operandMismatch operator first.ty second.ty,
          occurrence.visit.node.line⟩
      else none
  | .assignment target value _ =>
      (occurrence.referent? target.text).bind fun symbol =>
        (value.bind Node.literalText?).bind fun text =>
          if symbol.ty.compatible (Ty.ofLiteral text) then none
          else
            some ⟨.assignmentMismatch (Ty.ofLiteral text) target.text
              symbol.ty, occurrence.visit.node.line⟩
  | _ => none

end Occurrence

/-! Operators above expressions, and types that can be declared. -/

namespace Node

/-- Whether a declared type is one that can be declared, and the operands of an
operator are expressions. -/
def isRegular : Node → Bool
  | declaration ty _ _ _ => Ty.declarable.contains ty
  | binary _ left right _ => left.isExpression && right.isExpression
  | _ => true

/-- A tree all of whose nodes are regular. -/
def Regular (node : Node) : Prop :=
  ∀ part ∈ node.preorder, part.isRegular = true

theorem regular_iff {node : Node} :
    node.Regular ↔
      node.isRegular = true ∧ ∀ child ∈ node.children, child.Regular := by
  unfold Regular
  rw [preorder_eq, List.forall_mem_cons]
  simp only [mem_preorderAll_iff]
  refine and_congr_right fun _ => ⟨fun hparts child hchild part hpart =>
    hparts part ⟨child, hchild, hpart⟩, ?_⟩
  rintro hchildren part ⟨child, hchild, hpart⟩
  exact hchildren child hchild part hpart

theorem regular_of_isExpression (node : Node)
    (hnode : node.isExpression = true) : node.Regular := by
  induction node, hnode using expression_induction with
  | identifier text position => simp [Regular, preorder, isRegular]
  | literal text position => simp [Regular, preorder, isRegular]
  | binary operator left right position hleft hright hnode ihleft ihright =>
      refine regular_iff.mpr ⟨by simp [isRegular, hleft, hright], ?_⟩
      simpa [children] using ⟨ihleft, ihright⟩

end Node

namespace Reading

theorem Expression.regular {cursor after : Cursor} {value : Option Node}
    (hread : Expression cursor value after) : ∀ node ∈ value, node.Regular := by
  rintro node rfl
  exact Node.regular_of_isExpression node hread.isExpression

theorem Statement.regular {Body : Cursor → Option Node → Cursor → Prop}
    (hbodies : ∀ cursor content last, Body cursor content last →
      ∀ node ∈ content, node.Regular)
    {cursor after : Cursor} {node : Option Node}
    (hread : Statement Body cursor node after) :
    ∀ statement ∈ node, statement.Regular := by
  cases hread with
  | ended budget => simp
  | stray token rest budget hkind htext => simp
  | unnamed ty position rest budget hnext => simp
  | declaration ty hty position name place rest budget =>
      rintro statement ⟨⟩
      exact Node.regular_iff.mpr
        ⟨List.contains_iff_mem.mpr hty, by simp [Node.children]⟩
  | initialized ty hty position name place sign budget hvalue =>
      rintro statement ⟨⟩
      exact Node.regular_iff.mpr ⟨List.contains_iff_mem.mpr hty,
        by simpa [Node.children] using hvalue.regular⟩
  | assignment target position rest budget hvalue =>
      rintro statement ⟨⟩
      exact Node.regular_iff.mpr
        ⟨rfl, by simpa [Node.children] using hvalue.regular⟩
  | conditional form position rest budget hcondition hbody =>
      rintro statement ⟨⟩
      refine Node.regular_iff.mpr ⟨rfl, List.forall_mem_append.mpr ⟨?_, ?_⟩⟩
      · simpa using hcondition.regular
      · simpa using hbodies _ _ _ hbody
  | bare position rest budget =>
      rintro statement ⟨⟩
      exact Node.regular_iff.mpr ⟨rfl, by simp [Node.children]⟩
  | result position budget hvalue =>
      rintro statement ⟨⟩
      exact Node.regular_iff.mpr
        ⟨rfl, by simpa [Node.children] using hvalue.regular⟩

theorem Within.regular {room : Nat} {cursor after : Cursor}
    {node : Option Node} (hread : Within room cursor node after) :
    ∀ statement ∈ node, statement.Regular := by
  induction room generalizing cursor node after with
  | zero =>
      apply Statement.regular _ hread
      rintro cursor content last ⟨rfl, _⟩
      simp
  | succ room ih =>
      apply Statement.regular _ hread
      intro cursor content last hbody
      cases hbody with
      | single hstatement => exact ih hstatement
      | block position hstatements =>
          rintro node ⟨⟩
          exact Node.regular_iff.mpr
            ⟨rfl, hstatements.forall_mem fun cursor node after => ih⟩

end Reading

theorem parse_regular (tokens : List Token) : (parse tokens).Regular :=
  Node.regular_iff.mpr ⟨rfl, (Reading.program_covered _).forall_mem
    fun _ _ _ => Reading.Within.regular⟩

theorem Visit.ty_of_isRegular {visit : Visit} {symbol : Symbol}
    (hregular : visit.node.isRegular = true)
    (hsymbol : visit.symbol? = some symbol) : symbol.ty ∈ Ty.declarable := by
  obtain ⟨node, scopes⟩ := visit
  cases node with
  | declaration ty name initializer position =>
      cases scopes with
      | nil => simp [symbol?] at hsymbol
      | cons scope outer =>
          cases hsymbol
          exact List.contains_iff_mem.mp hregular
  | _ => simp [symbol?] at hsymbol

/-- On regular visits only types that can be declared are. -/
theorem ty_mem_declarable {visits : List Visit}
    (hregular : ∀ visit ∈ visits, visit.node.isRegular = true) :
    ∀ symbol ∈ declared visits, symbol.ty ∈ Ty.declarable := by
  intro symbol hsymbol
  obtain ⟨occurrence, hmem, hbrought⟩ := List.mem_filterMap.mp hsymbol
  have hvisit : occurrence.visit ∈ visits := by
    rw [← occurrences_map_visit [] visits]
    exact List.mem_map_of_mem hmem
  exact Visit.ty_of_isRegular (hregular _ hvisit)
    (Occurrence.symbol?_eq_some_iff.mp hbrought).1

/-! Where operands stand. -/

namespace Node

/-- An expression is visited in the scopes around it. -/
theorem visits_of_isExpression (node : Node) (hnode : node.isExpression = true)
    (scopes : List Nat) :
    ∀ fresh, node.visits scopes fresh =
      node.preorder.map fun part => ⟨part, scopes⟩ := by
  induction node, hnode using expression_induction with
  | identifier text position => simp [visits, preorder]
  | literal text position => simp [visits, preorder]
  | binary operator left right position hleft hright hnode ihleft ihright =>
      simp [visits, preorder, ihleft, ihright]

/-- Nothing is declared in an expression. -/
theorem symbol?_of_isExpression (node : Node)
    (hnode : node.isExpression = true) (scopes : List Nat) :
    ∀ visit ∈ node.preorder.map fun part => (⟨part, scopes⟩ : Visit),
      visit.symbol? = none := by
  induction node, hnode using expression_induction with
  | identifier text position => simp [preorder, Visit.symbol?]
  | literal text position => simp [preorder, Visit.symbol?]
  | binary operator left right position hleft hright hnode ihleft ihright =>
      rw [preorder, List.map_cons, List.map_append, List.forall_mem_cons,
        List.forall_mem_append]
      exact ⟨rfl, ihleft, ihright⟩

theorem mem_occurrences_visits (node : Node) (scopes : List Nat) (fresh : Nat)
    (earlier : List Visit) :
    ⟨earlier, ⟨node, scopes⟩⟩ ∈
      occurrences earlier (node.visits scopes fresh) := by
  rw [visits_eq, occurrences]
  exact List.mem_cons_self

end Node

/-- Together with an operator there are its operands. -/
def HasOperands (occurrences : List Occurrence) : Prop :=
  ∀ occurrence ∈ occurrences, ∀ operand ∈ occurrence.operands,
    operand ∈ occurrences

theorem HasOperands.append {first second : List Occurrence}
    (hfirst : HasOperands first) (hsecond : HasOperands second) :
    HasOperands (first ++ second) := by
  intro occurrence hmem operand hoperand
  rcases List.mem_append.mp hmem with hmem | hmem
  · exact List.mem_append_left _ (hfirst occurrence hmem operand hoperand)
  · exact List.mem_append_right _ (hsecond occurrence hmem operand hoperand)

namespace Node

theorem visitsAll_hasOperands {nodes : List Node}
    (hnodes : ∀ node ∈ nodes, ∀ scopes fresh earlier,
      HasOperands (occurrences earlier (node.visits scopes fresh)))
    (scopes : List Nat) (fresh : Nat) (earlier : List Visit) :
    HasOperands (occurrences earlier (visitsAll nodes scopes fresh)) := by
  induction nodes generalizing fresh earlier with
  | nil => simp [visitsAll, occurrences, HasOperands]
  | cons node rest ih =>
      obtain ⟨hnode, hrest⟩ := List.forall_mem_cons.mp hnodes
      rw [visitsAll, occurrences_append]
      exact (hnode scopes fresh earlier).append (ih hrest _ _)

theorem operands_mem {node : Node} (hnode : node.isRegular = true)
    (scopes : List Nat) (fresh : Nat) (earlier : List Visit) :
    ∀ operand ∈ Occurrence.operands ⟨earlier, ⟨node, scopes⟩⟩,
      operand ∈ occurrences earlier (node.visits scopes fresh) := by
  cases node with
  | binary operator left right position =>
      simp only [isRegular, Bool.and_eq_true] at hnode
      have hleft := left.mem_occurrences_visits scopes fresh
        (earlier ++ [⟨binary operator left right position, scopes⟩])
      have hright := right.mem_occurrences_visits scopes
        (fresh + countConditionals left.preorder)
        (earlier ++ [⟨binary operator left right position, scopes⟩] ++
          left.visits scopes fresh)
      rw [visits, occurrences, occurrences_append]
      refine List.forall_mem_cons.mpr ⟨?_, List.forall_mem_singleton.mpr ?_⟩
      · exact List.mem_cons_of_mem _ (List.mem_append_left _ hleft)
      · refine List.mem_cons_of_mem _ (List.mem_append_right _ ?_)
        simpa [Occurrence.below, Occurrence.through,
          visits_of_isExpression left hnode.1] using
          hright
  | _ => simp [Occurrence.operands]

/-- In a regular tree the operands of an operator occur where they are taken to
stand. -/
theorem visits_hasOperands (node : Node) (hregular : node.Regular) :
    ∀ scopes fresh earlier,
      HasOperands (occurrences earlier (node.visits scopes fresh)) := by
  induction node using children_induction with
  | step node ih =>
      intro scopes fresh earlier occurrence hmem operand hoperand
      obtain ⟨hnode, hchildren⟩ := regular_iff.mp hregular
      have hbelow := visitsAll_hasOperands
        (fun child hchild => ih child hchild (hchildren child hchild))
        (if node.isConditional then fresh :: scopes else scopes)
        (if node.isConditional then fresh + 1 else fresh)
        (earlier ++ [⟨node, scopes⟩])
      have hself := operands_mem hnode scopes fresh earlier
      rw [visits_eq, occurrences] at hmem hself ⊢
      rcases List.mem_cons.mp hmem with rfl | hmem
      · exact hself operand hoperand
      · exact List.mem_cons_of_mem _ (hbelow occurrence hmem operand hoperand)

end Node

/-! The types that are looked up. -/

namespace Occurrence

/-- A name refers to the same symbol when nothing has been declared
meanwhile. -/
theorem referent?_append (earlier : List Visit) {others : List Visit}
    (hothers : ∀ visit ∈ others, visit.symbol? = none) (visit : Visit)
    (name : String) :
    referent? ⟨earlier ++ others, visit⟩ name =
      referent? ⟨earlier, visit⟩ name := by
  have hnone : ∀ scope,
      (others.find? fun visit => visit.declares name scope) = none := by
    intro scope
    rw [List.find?_eq_none]
    intro other hother
    simp [Visit.declares, hothers other hother]
  simp only [referent?, binding?, List.find?_append, hnone, Option.or_none]

theorem ty_append (earlier : List Visit) {others : List Visit}
    (hothers : ∀ visit ∈ others, visit.symbol? = none) (visit : Visit) :
    ty ⟨earlier ++ others, visit⟩ = ty ⟨earlier, visit⟩ := by
  unfold ty
  dsimp only
  split
  · rw [referent?_append earlier hothers]
  · rfl
  · rfl

theorem through_append (occurrence : Occurrence) (first second : List Node) :
    occurrence.through (first ++ second) =
      occurrence.through first ++
        second.map fun node => ⟨node, occurrence.visit.scopes⟩ := by
  simp [through]

theorem through_operands {left right : Node} (hleft : left.isExpression = true)
    (hright : right.isExpression = true) (earlier : List Visit)
    (visit : Visit) (fresh next : Nat) :
    earlier ++ [visit] ++ left.visits visit.scopes fresh ++
        right.visits visit.scopes next =
      through ⟨earlier, visit⟩ (left.preorder ++ right.preorder) := by
  simp [through, left.visits_of_isExpression hleft,
    right.visits_of_isExpression hright]

/-- What is known of a node does not change on the visit of an expression. -/
theorem ty_below_append (occurrence : Occurrence) (others : List Node)
    {value : Node} (hvalue : value.isExpression = true) (node : Node) :
    (occurrence.below (others ++ value.preorder) node).ty =
      (occurrence.below others node).ty := by
  rw [below, through_append,
    ty_append _ (value.symbol?_of_isExpression hvalue _), below]

/-- Arithmetic is done on a leaf of unknown type and on every leaf but some
literals, if only types that can be declared are. -/
theorem barsArithmetic_eq {occurrence : Occurrence}
    (hregular : ∀ visit ∈ occurrence.earlier, visit.node.isRegular = true) :
    (occurrence.ty == .unknown || occurrence.ty.isArithmetic) =
      !occurrence.visit.node.barsArithmetic := by
  unfold ty
  split
  · rename_i text position hnode
    rw [hnode]
    cases hreferent : occurrence.referent? text with
    | none => rfl
    | some symbol =>
        have hbind : (some text).bind occurrence.referent? = some symbol :=
          hreferent
        have hmem := mem_of_referent? hbind
        have hty := ty_mem_declarable hregular symbol hmem
        have harithmetic : ∀ ty ∈ Ty.declarable,
            (ty == .unknown || ty.isArithmetic) = true := by decide
        exact harithmetic _ hty
  · rename_i text position hnode
    rw [hnode, Node.barsArithmetic]
    cases Ty.ofLiteral text <;> rfl
  · rename_i hidentifier hliteral
    cases hnode : occurrence.visit.node with
    | literal text position => exact absurd hnode (hliteral text position)
    | _ => rfl

end Occurrence

/-- An operator accepts the types of its operands unless it clashes with
them. -/
theorem Operator.accepts_eq (operator : Operator) {left right : Occurrence}
    (hleft : ∀ visit ∈ left.earlier, visit.node.isRegular = true)
    (hright : ∀ visit ∈ right.earlier, visit.node.isRegular = true) :
    operator.accepts left.ty right.ty = !operator.clashes left right := by
  unfold accepts clashes
  cases operator.family with
  | arithmetic =>
      simp only [Occurrence.barsArithmetic_eq hleft,
        Occurrence.barsArithmetic_eq hright, Bool.not_or]
  | comparison => cases left.ty <;> cases right.ty <;> rfl
  | logical => rfl

end ThreeAddress
