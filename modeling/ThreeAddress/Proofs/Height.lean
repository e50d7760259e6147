import ThreeAddress.Proofs.Children
import ThreeAddress.Proofs.Shape
import ThreeAddress.Proofs.Temporaries

/-!
How deep a parsed tree can be.  Every operator and every parenthesis of an
expression takes one unit of its budget, so the budget bounds the operators of
the expression and with them its height; every body takes one unit of the room,
and adds a conditional statement and a block to the height.  Both limits hold
for any tokens, and recursion along a tree goes no deeper than its height.
-/

namespace ThreeAddress

/-- A node at its place, with the number of bodies around it. -/
structure Placement where
  node : Node
  bodies : Nat
deriving Repr

namespace Node

mutual

/-- The nodes of a tree around which there are so many bodies of conditional
statements, in the order of the tree.  A condition is not in the body of its
statement. -/
def placements : Node → (bodies : Nat) → List Placement
  | compound form statements position, bodies =>
      ⟨compound form statements position, bodies⟩ ::
        placementsAll statements bodies
  | declaration ty name initializer position, bodies =>
      ⟨declaration ty name initializer position, bodies⟩ ::
        placementsOption initializer bodies
  | assignment target value position, bodies =>
      ⟨assignment target value position, bodies⟩ ::
        placementsOption value bodies
  | conditional form condition body position, bodies =>
      ⟨conditional form condition body position, bodies⟩ ::
        (placementsOption condition bodies ++
          placementsOption body (bodies + 1))
  | result value position, bodies =>
      ⟨result value position, bodies⟩ :: placementsOption value bodies
  | binary operator left right position, bodies =>
      ⟨binary operator left right position, bodies⟩ ::
        (left.placements bodies ++ right.placements bodies)
  | identifier text position, bodies => [⟨identifier text position, bodies⟩]
  | literal text position, bodies => [⟨literal text position, bodies⟩]

def placementsAll : List Node → (bodies : Nat) → List Placement
  | [], _ => []
  | node :: rest, bodies =>
      node.placements bodies ++ placementsAll rest bodies

def placementsOption : Option Node → (bodies : Nat) → List Placement
  | none, _ => []
  | some node, bodies => node.placements bodies

end

mutual

/-- Every node of a tree has its place, in the order of the tree. -/
theorem placements_map_node (node : Node) (bodies : Nat) :
    (node.placements bodies).map Placement.node = node.preorder := by
  cases node with
  | compound form statements position =>
      simp [placements, preorder, placementsAll_map_node statements]
  | declaration ty name initializer position =>
      simp [placements, preorder, placementsOption_map_node initializer]
  | assignment target value position =>
      simp [placements, preorder, placementsOption_map_node value]
  | conditional form condition body position =>
      simp [placements, preorder, placementsOption_map_node condition,
        placementsOption_map_node body]
  | result value position =>
      simp [placements, preorder, placementsOption_map_node value]
  | binary operator left right position =>
      simp [placements, preorder, placements_map_node left,
        placements_map_node right]
  | identifier text position => rfl
  | literal text position => rfl

theorem placementsAll_map_node (nodes : List Node) (bodies : Nat) :
    (placementsAll nodes bodies).map Placement.node = preorderAll nodes := by
  cases nodes with
  | nil => rfl
  | cons node rest =>
      simp [placementsAll, preorderAll, placements_map_node node,
        placementsAll_map_node rest]

theorem placementsOption_map_node (node : Option Node) (bodies : Nat) :
    (placementsOption node bodies).map Placement.node =
      preorderOption node := by
  cases node with
  | none => rfl
  | some node => exact placements_map_node node bodies

end

mutual

/-- The number of nodes on the longest way down a tree. -/
def height : Node → Nat
  | compound _ statements _ => heightAll statements + 1
  | declaration _ _ initializer _ => heightOption initializer + 1
  | assignment _ value _ => heightOption value + 1
  | conditional _ condition body _ =>
      max (heightOption condition) (heightOption body) + 1
  | result value _ => heightOption value + 1
  | binary _ left right _ => max left.height right.height + 1
  | identifier .. => 1
  | literal .. => 1

def heightAll : List Node → Nat
  | [] => 0
  | node :: rest => max node.height (heightAll rest)

def heightOption : Option Node → Nat
  | none => 0
  | some node => node.height

end

section Children

/-!
What the children of a node tell of the node.
-/

theorem placementsAll_toList (node : Option Node) (bodies : Nat) :
    placementsAll node.toList bodies = placementsOption node bodies := by
  cases node with
  | none => rfl
  | some node => simp [placementsAll, placementsOption]

theorem mem_placementsAll_iff {place : Placement} {nodes : List Node}
    {bodies : Nat} :
    place ∈ placementsAll nodes bodies ↔
      ∃ node ∈ nodes, place ∈ node.placements bodies := by
  induction nodes with
  | nil => simp [placementsAll]
  | cons node rest ih => simp [placementsAll, ih]

/-- Only conditional statements have a body. -/
theorem placements_eq {node : Node} (hnode : node.isConditional = false)
    (bodies : Nat) :
    node.placements bodies =
      ⟨node, bodies⟩ :: placementsAll node.children bodies := by
  cases node with
  | conditional form condition body position =>
      simp [isConditional] at hnode
  | _ => simp [placements, children, placementsAll, placementsAll_toList]

theorem heightAll_append (first second : List Node) :
    heightAll (first ++ second) = max (heightAll first) (heightAll second) := by
  induction first with
  | nil => simp [heightAll]
  | cons node rest ih => simp [heightAll, ih, Nat.max_assoc]

theorem heightAll_toList (node : Option Node) :
    heightAll node.toList = heightOption node := by
  cases node with
  | none => rfl
  | some node => simp [heightAll, heightOption]

theorem heightAll_le_iff {nodes : List Node} {bound : Nat} :
    heightAll nodes ≤ bound ↔ ∀ node ∈ nodes, node.height ≤ bound := by
  induction nodes with
  | nil => simp [heightAll]
  | cons node rest ih => rw [heightAll, Nat.max_le, ih, List.forall_mem_cons]

/-- A node is one higher than the highest of the nodes right below it. -/
theorem height_eq (node : Node) :
    node.height = heightAll node.children + 1 := by
  cases node with
  | conditional form condition body position =>
      simp [height, children, heightAll_append, heightAll_toList]
  | _ => simp [height, children, heightAll, heightAll_toList]

theorem height_le_of_children {node : Node} {bound : Nat}
    (hchildren : ∀ child ∈ node.children, child.height ≤ bound) :
    node.height ≤ bound + 1 := by
  rw [height_eq]
  exact Nat.succ_le_succ (heightAll_le_iff.mpr hchildren)

end Children

/-- Whether a node is of a sort that expressions are made of. -/
def isTerm : Node → Bool
  | binary .. => true
  | identifier .. => true
  | literal .. => true
  | _ => false

/-- A tree within limits: no part of it stands in more than `room` further
bodies, no expression in it holds too many operators, and the tree is no higher
than `height`. -/
structure Limited (room height : Nat) (node : Node) : Prop where
  bodies : ∀ bodies, ∀ place ∈ node.placements bodies,
    place.bodies ≤ bodies + room
  operators : ∀ part ∈ node.preorder, part.isTerm = true →
    countOperators part.preorder ≤ maxExpressionNodes
  height : node.height ≤ height

namespace Limited

variable {room height : Nat} {node : Node}

theorem mono (hnode : node.Limited room height) {wider higher : Nat}
    (hroom : room ≤ wider) (hheight : height ≤ higher) :
    node.Limited wider higher := by
  refine ⟨?_, hnode.operators, Nat.le_trans hnode.height hheight⟩
  intro bodies place hplace
  exact Nat.le_trans (hnode.bodies bodies place hplace)
    (Nat.add_le_add_left hroom bodies)

/-- The operators below a node that is no part of an expression. -/
theorem operators_of_children (hterm : node.isTerm = false)
    (hchildren : ∀ child ∈ node.children, ∀ part ∈ child.preorder,
      part.isTerm = true → countOperators part.preorder ≤ maxExpressionNodes) :
    ∀ part ∈ node.preorder, part.isTerm = true →
      countOperators part.preorder ≤ maxExpressionNodes := by
  intro part hpart hisTerm
  rw [preorder_eq, List.mem_cons, mem_preorderAll_iff] at hpart
  rcases hpart with rfl | ⟨child, hchild, hpart⟩
  · simp [hterm] at hisTerm
  · exact hchildren child hchild part hpart hisTerm

/-- A statement without a condition, or a list of statements. -/
theorem of_children (hterm : node.isTerm = false)
    (hstraight : node.isConditional = false)
    (hchildren : ∀ child ∈ node.children, child.Limited room height) :
    node.Limited room (height + 1) := by
  refine ⟨?_, ?_, ?_⟩
  · intro bodies place hplace
    rw [placements_eq hstraight, List.mem_cons, mem_placementsAll_iff] at hplace
    rcases hplace with rfl | ⟨child, hchild, hplace⟩
    · exact Nat.le_add_right bodies room
    · exact (hchildren child hchild).bodies bodies place hplace
  · exact operators_of_children hterm fun child hchild =>
      (hchildren child hchild).operators
  · exact height_le_of_children fun child hchild =>
      (hchildren child hchild).height

/-- A conditional statement, whose body has less room. -/
theorem conditional (form : Conditional) {condition body : Option Node}
    (position : Option Position)
    (hcondition : ∀ node ∈ condition, node.Limited room height)
    (hbody : ∀ node ∈ body, ∃ fewer < room, node.Limited fewer height) :
    (Node.conditional form condition body position).Limited room
      (height + 1) := by
  have hchildren : ∀ child ∈ (Node.conditional form condition body
      position).children, child.Limited room height := by
    intro child hchild
    rw [children, List.mem_append, Option.mem_toList, Option.mem_toList]
      at hchild
    rcases hchild with hchild | hchild
    · exact hcondition child hchild
    · obtain ⟨fewer, hfewer, hlimited⟩ := hbody child hchild
      exact hlimited.mono (Nat.le_of_lt hfewer) (Nat.le_refl height)
  refine ⟨?_, ?_, ?_⟩
  · intro bodies place hplace
    rw [placements, List.mem_cons, List.mem_append] at hplace
    rcases hplace with rfl | hplace | hplace
    · exact Nat.le_add_right bodies room
    · cases condition with
      | none => simp [placementsOption] at hplace
      | some node => exact (hcondition node rfl).bodies bodies place hplace
    · cases body with
      | none => simp [placementsOption] at hplace
      | some node =>
          obtain ⟨fewer, hfewer, hlimited⟩ := hbody node rfl
          have hle := hlimited.bodies (bodies + 1) place hplace
          omega
  · exact operators_of_children rfl fun child hchild =>
      (hchildren child hchild).operators
  · exact height_le_of_children fun child hchild =>
      (hchildren child hchild).height

end Limited

/-- There is no body in an expression. -/
theorem placements_of_isExpression (node : Node)
    (hnode : node.isExpression = true) (bodies : Nat) :
    ∀ place ∈ node.placements bodies, place.bodies = bodies := by
  induction node, hnode using expression_induction with
  | identifier text position => simp [placements]
  | literal text position => simp [placements]
  | binary operator left right position hleft hright hnode ihleft ihright =>
      intro place hplace
      rw [placements, List.mem_cons, List.mem_append] at hplace
      rcases hplace with rfl | hplace | hplace
      · rfl
      · exact ihleft place hplace
      · exact ihright place hplace

/-- A part of an expression holds no more operators than the whole. -/
theorem countOperators_part_le (node : Node)
    (hnode : node.isExpression = true) :
    ∀ part ∈ node.preorder,
      countOperators part.preorder ≤ countOperators node.preorder := by
  induction node, hnode using expression_induction with
  | identifier text position => simp [preorder]
  | literal text position => simp [preorder]
  | binary operator left right position hleft hright hnode ihleft ihright =>
      intro part hpart
      rw [preorder, List.mem_cons, List.mem_append] at hpart
      rcases hpart with rfl | hpart | hpart
      · exact Nat.le_refl _
      · have hle := ihleft part hpart
        simp only [preorder, countOperators_cons, countOperators_append]
        omega
      · have hle := ihright part hpart
        simp only [preorder, countOperators_cons, countOperators_append]
        omega

/-- Each level of an expression but the last holds an operator. -/
theorem height_le_countOperators (node : Node)
    (hnode : node.isExpression = true) :
    node.height ≤ countOperators node.preorder + 1 := by
  induction node, hnode using expression_induction with
  | identifier text position => simp [height]
  | literal text position => simp [height]
  | binary operator left right position hleft hright hnode ihleft ihright =>
      simp only [height, preorder, countOperators_cons, countOperators_append,
        isBinary, if_true]
      omega

/-- An expression that holds few enough operators is within limits. -/
theorem limited_of_isExpression {node : Node}
    (hnode : node.isExpression = true)
    (hcount : countOperators node.preorder ≤ maxExpressionNodes) :
    node.Limited 0 (maxExpressionNodes + 1) where
  bodies bodies place hplace :=
    Nat.le_of_eq (placements_of_isExpression node hnode bodies place hplace)
  operators part hpart _ :=
    Nat.le_trans (countOperators_part_le node hnode part hpart) hcount
  height := Nat.le_trans (height_le_countOperators node hnode)
    (Nat.succ_le_succ hcount)

end Node

namespace Reading

theorem skip_budget (cursor : Cursor) (kind : Token.Kind) (text : String) :
    (cursor.skip kind text).budget = cursor.budget := by
  rw [Cursor.skip]
  split
  · rfl
  · rfl

/-- The operators of an expression are paid from its budget. -/
theorem Expression.countOperators_le {cursor after : Cursor}
    {node : Option Node} (hread : Expression cursor node after) :
    Node.countOperators (Node.preorderOption node) + after.budget ≤
      cursor.budget := by
  induction hread with
  | absent cursor => simp [Node.preorderOption]
  | literal text position rest budget =>
      simp [Node.preorderOption, Node.preorder, Node.isBinary]
  | identifier text position rest budget =>
      simp [Node.preorderOption, Node.preorder, Node.isBinary]
  | group position hinner ih =>
      rw [skip_budget]
      exact Nat.le_succ_of_le ih
  | joined operator position hleft hright ihleft ihright =>
      simp only [Node.preorderOption, Node.preorder, Node.countOperators_cons,
        Node.countOperators_append, Node.isBinary, if_true] at ihleft ihright ⊢
      omega
  | dangling operator position hleft hright ihleft ihright =>
      simp only [Node.preorderOption, Node.countOperators_nil]
        at ihleft ihright ⊢
      omega

/-- A complete expression is within limits. -/
theorem Expression.limited {rest : List Token} {value : Option Node}
    {after : Cursor}
    (hread : Expression ⟨rest, maxExpressionNodes⟩ value after) :
    ∀ node ∈ value, node.Limited 0 (maxExpressionNodes + 1) := by
  rintro node rfl
  exact Node.limited_of_isExpression hread.isExpression
    (Nat.le_trans (Nat.le_add_right _ _) hread.countOperators_le)

/-- A statement is within limits, if its bodies are within smaller ones. -/
theorem Statement.limited {Body : Cursor → Option Node → Cursor → Prop}
    {room : Nat}
    (hbodies : ∀ cursor content last, Body cursor content last →
      ∀ node ∈ content, ∃ fewer < room,
        node.Limited fewer (2 * fewer + maxExpressionNodes + 3))
    {cursor after : Cursor} {node : Option Node}
    (hread : Statement Body cursor node after) :
    ∀ statement ∈ node,
      statement.Limited room (2 * room + maxExpressionNodes + 2) := by
  -- A statement without a condition is one higher than its expression.
  have hstraight : ∀ statement : Node, statement.isTerm = false →
      statement.isConditional = false →
      (∀ child ∈ statement.children,
        child.Limited 0 (maxExpressionNodes + 1)) →
      statement.Limited room (2 * room + maxExpressionNodes + 2) := by
    intro statement hterm hconditional hchildren
    exact (Node.Limited.of_children hterm hconditional hchildren).mono
      (Nat.zero_le room) (by omega)
  cases hread with
  | ended budget => simp
  | stray token rest budget hkind htext => simp
  | unnamed ty position rest budget hnext => simp
  | declaration ty hty position name place rest budget =>
      rintro statement ⟨⟩
      exact hstraight _ rfl rfl (by simp [Node.children])
  | initialized ty hty position name place sign budget hvalue =>
      rintro statement ⟨⟩
      exact hstraight _ rfl rfl (by simpa [Node.children] using hvalue.limited)
  | assignment target position rest budget hvalue =>
      rintro statement ⟨⟩
      exact hstraight _ rfl rfl (by simpa [Node.children] using hvalue.limited)
  | conditional form position rest budget hcondition hbody =>
      rintro statement ⟨⟩
      refine Node.Limited.conditional form (some position) ?_ ?_
      · intro node hnode
        exact (hcondition.limited node hnode).mono (Nat.zero_le room)
          (by omega)
      · intro node hnode
        obtain ⟨fewer, hfewer, hlimited⟩ := hbodies _ _ _ hbody node hnode
        exact ⟨fewer, hfewer, hlimited.mono (Nat.le_refl fewer) (by omega)⟩
  | bare position rest budget =>
      rintro statement ⟨⟩
      exact hstraight _ rfl rfl (by simp [Node.children])
  | result position budget hvalue =>
      rintro statement ⟨⟩
      exact hstraight _ rfl rfl (by simpa [Node.children] using hvalue.limited)

/-- A statement with room for so many bodies inside each other is within the
limits of that room. -/
theorem Within.limited {room : Nat} {cursor after : Cursor}
    {node : Option Node} (hread : Within room cursor node after) :
    ∀ statement ∈ node,
      statement.Limited room (2 * room + maxExpressionNodes + 2) := by
  induction room generalizing cursor node after with
  | zero =>
      apply Statement.limited _ hread
      rintro cursor content last ⟨rfl, _⟩
      simp
  | succ room ih =>
      apply Statement.limited _ hread
      intro cursor content last hbody node hnode
      refine ⟨room, Nat.lt_succ_self room, ?_⟩
      cases hbody with
      | single hstatement =>
          exact (ih hstatement node hnode).mono (Nat.le_refl room)
            (Nat.le_succ _)
      | block position hstatements =>
          obtain rfl := Option.some.inj hnode
          exact Node.Limited.of_children rfl rfl
            (hstatements.forall_mem fun cursor node after => ih)

end Reading

/-- Parsed trees are bounded, whatever the tokens: every node stands in at most
`maxNestingDepth` bodies, every expression holds at most `maxExpressionNodes`
operators, and no way down the tree is longer than both limits allow. -/
theorem parse_bounded (tokens : List Token) :
    ((parse tokens).placements 0).map Placement.node =
        (parse tokens).preorder ∧
      (∀ place ∈ (parse tokens).placements 0,
        place.bodies ≤ maxNestingDepth) ∧
      (∀ part ∈ (parse tokens).preorder, part.isTerm = true →
        Node.countOperators part.preorder ≤ maxExpressionNodes) ∧
      (parse tokens).height ≤
        2 * maxNestingDepth + maxExpressionNodes + 3 ∧
      2 * maxNestingDepth + maxExpressionNodes + 3 = 387 := by
  have hstatements := (Reading.program_covered
    ⟨withoutComments tokens, maxExpressionNodes⟩).forall_mem
      fun cursor node after => Reading.Within.limited
  have hlimited : (parse tokens).Limited maxNestingDepth _ :=
    Node.Limited.of_children rfl rfl hstatements
  refine ⟨Node.placements_map_node _ 0, ?_, hlimited.operators,
    hlimited.height, rfl⟩
  intro place hplace
  simpa using hlimited.bodies 0 place hplace

end ThreeAddress
