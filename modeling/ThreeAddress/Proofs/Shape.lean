import ThreeAddress.Proofs.Reading

/-!
The shape of the trees that the parser builds.  Any node may stand at any place
of a tree in general; in a tree that has been read, expressions are made of
operators and leaves, and statements stand only where statements belong.
-/

namespace ThreeAddress

namespace Node

/-- An expression: operators above identifiers and literals. -/
def isExpression : Node → Bool
  | binary _ left right _ => left.isExpression && right.isExpression
  | identifier .. => true
  | literal .. => true
  | _ => false

mutual

/-- A statement whose parts are expressions, and whose bodies are statements or
blocks of statements. -/
def isStatement : Node → Bool
  | declaration _ _ initializer _ => initializer.all isExpression
  | assignment _ value _ => value.all isExpression
  | conditional _ condition body _ =>
      condition.all isExpression && isBody body
  | result value _ => value.all isExpression
  | _ => false

def isBody : Option Node → Bool
  | none => true
  | some (compound .block statements _) => isStatementAll statements
  | some node => node.isStatement

def isStatementAll : List Node → Bool
  | [] => true
  | node :: rest => node.isStatement && isStatementAll rest

end

def isConditional : Node → Bool
  | conditional .. => true
  | _ => false

/-- A statement is a body as it stands, without braces. -/
theorem isBody_of_isStatement {node : Option Node}
    (hnode : node.all isStatement = true) : isBody node = true := by
  cases node with
  | none => rfl
  | some node =>
      cases node with
      | compound form statements position => simp [isStatement] at hnode
      | declaration ty name initializer position => exact hnode
      | assignment target value position => exact hnode
      | conditional form condition body position => exact hnode
      | result value position => exact hnode
      | binary operator left right position => exact hnode
      | identifier text position => exact hnode
      | literal text position => exact hnode

/-- Induction on expressions. -/
@[elab_as_elim]
theorem expression_induction
    {motive : (node : Node) → node.isExpression = true → Prop}
    (identifier : ∀ text position, motive (identifier text position) rfl)
    (literal : ∀ text position, motive (literal text position) rfl)
    (binary : ∀ operator left right position
      (hleft : left.isExpression = true) (hright : right.isExpression = true)
      (hnode : (binary operator left right position).isExpression = true),
      motive left hleft → motive right hright →
        motive (.binary operator left right position) hnode)
    (node : Node) (hnode : node.isExpression = true) : motive node hnode := by
  cases node with
  | identifier text position => exact identifier text position
  | literal text position => exact literal text position
  | binary operator left right position =>
      have hparts := hnode
      simp only [isExpression, Bool.and_eq_true] at hparts
      exact binary operator left right position hparts.1 hparts.2 hnode
        (expression_induction identifier literal binary left hparts.1)
        (expression_induction identifier literal binary right hparts.2)
  | compound form statements position => simp [isExpression] at hnode
  | declaration ty name initializer position => simp [isExpression] at hnode
  | assignment target value position => simp [isExpression] at hnode
  | conditional form condition body position => simp [isExpression] at hnode
  | result value position => simp [isExpression] at hnode

/-- The statements without a condition. -/
@[elab_as_elim]
theorem straight_cases
    {motive : (node : Node) → node.isStatement = true →
      node.isConditional = false → Prop}
    (declaration : ∀ ty name initializer position
      (hvalue : initializer.all isExpression = true),
      motive (declaration ty name initializer position) hvalue rfl)
    (assignment : ∀ target value position
      (hvalue : value.all isExpression = true),
      motive (assignment target value position) hvalue rfl)
    (result : ∀ value position (hvalue : value.all isExpression = true),
      motive (result value position) hvalue rfl)
    (node : Node) (hnode : node.isStatement = true)
    (hstraight : node.isConditional = false) : motive node hnode hstraight := by
  cases node with
  | declaration ty name initializer position =>
      exact declaration ty name initializer position hnode
  | assignment target value position =>
      exact assignment target value position hnode
  | result value position => exact result value position hnode
  | conditional form condition body position =>
      simp [isConditional] at hstraight
  | compound form statements position => simp [isStatement] at hnode
  | binary operator left right position => simp [isStatement] at hnode
  | identifier text position => simp [isStatement] at hnode
  | literal text position => simp [isStatement] at hnode

theorem isStatementAll_iff {statements : List Node} :
    isStatementAll statements = true ↔
      ∀ node ∈ statements, node.isStatement = true := by
  induction statements with
  | nil => simp [isStatementAll]
  | cons node rest ih => simp [isStatementAll, ih]

end Node

namespace Reading

theorem Expression.isExpression {cursor after : Cursor} {node : Option Node}
    (hread : Expression cursor node after) :
    node.all Node.isExpression = true := by
  induction hread with
  | absent cursor => rfl
  | literal text position rest budget => rfl
  | identifier text position rest budget => rfl
  | group position hinner ih => exact ih
  | joined operator position hleft hright ihleft ihright =>
      simp only [Option.all_some] at ihleft ihright ⊢
      rw [Node.isExpression, ihleft, ihright]
      rfl
  | dangling operator position hleft hright ihleft ihright => exact ihleft

theorem Statement.isStatement {Body : Cursor → Option Node → Cursor → Prop}
    (hbodies : ∀ cursor content last, Body cursor content last →
      Node.isBody content = true)
    {cursor after : Cursor} {node : Option Node}
    (hread : Statement Body cursor node after) :
    node.all Node.isStatement = true := by
  cases hread with
  | ended budget => rfl
  | stray token rest budget hkind htext => rfl
  | unnamed ty position rest budget hnext => rfl
  | declaration ty hty position name place rest budget => rfl
  | initialized ty hty position name place sign budget hvalue =>
      exact hvalue.isExpression
  | assignment target position rest budget hvalue =>
      exact hvalue.isExpression
  | conditional form position rest budget hcondition hbody =>
      rw [Option.all_some, Node.isStatement, hcondition.isExpression,
        hbodies _ _ _ hbody]
      rfl
  | bare position rest budget => rfl
  | result position budget hvalue => exact hvalue.isExpression

theorem Sequence.isStatementAll {Step : Cursor → Option Node → Cursor → Prop}
    (hsteps : ∀ cursor node after, Step cursor node after →
      node.all Node.isStatement = true)
    {cursor last : Cursor} {statements : List Node}
    (hread : Sequence Step cursor statements last) :
    Node.isStatementAll statements = true := by
  refine Node.isStatementAll_iff.mpr (hread.forall_mem ?_)
  rintro cursor node after hstep statement rfl
  exact hsteps _ _ _ hstep

theorem Within.isStatement {room : Nat} {cursor after : Cursor}
    {node : Option Node} (hread : Within room cursor node after) :
    node.all Node.isStatement = true := by
  induction room generalizing cursor node after with
  | zero =>
      apply Statement.isStatement _ hread
      rintro cursor content last ⟨rfl, _⟩
      rfl
  | succ room ih =>
      apply Statement.isStatement _ hread
      intro cursor content last hbody
      cases hbody with
      | single hstatement =>
          exact Node.isBody_of_isStatement (ih hstatement)
      | block position hstatements =>
          exact hstatements.isStatementAll fun cursor node after => ih

end Reading

/-- A parsed tree is a program of well-shaped statements. -/
theorem parse_isStatementAll (tokens : List Token) :
    ∃ statements, parse tokens = .compound .program statements none ∧
      Node.isStatementAll statements = true :=
  ⟨_, rfl, (Reading.program_covered _).isStatementAll
    fun _ _ _ => Reading.Within.isStatement⟩

end ThreeAddress
