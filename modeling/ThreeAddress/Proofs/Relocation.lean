import ThreeAddress.Proofs.Cursor

/-!
Reading looks at no place.  When every token is moved to another place, the same
tree is read with its places moved along; and what an earlier expression has
left of its budget does not matter to a statement, since every expression starts
with a fresh one.
-/

namespace ThreeAddress

def Token.relocate (move : Position → Position) (token : Token) : Token :=
  { token with position := move token.position }

def Name.mapPosition (change : Option Position → Option Position)
    (name : Name) : Name :=
  { name with position := change name.position }

namespace Node

mutual

/-- A tree with all its places changed, those of the names included. -/
def mapPositions (change : Option Position → Option Position) : Node → Node
  | compound form statements position =>
      compound form (mapPositionsAll change statements) (change position)
  | declaration ty name initializer position =>
      declaration ty (name.mapPosition change)
        (mapPositionsOption change initializer) (change position)
  | assignment target value position =>
      assignment (target.mapPosition change) (mapPositionsOption change value)
        (change position)
  | conditional form condition body position =>
      conditional form (mapPositionsOption change condition)
        (mapPositionsOption change body) (change position)
  | result value position =>
      result (mapPositionsOption change value) (change position)
  | binary operator left right position =>
      binary operator (left.mapPositions change) (right.mapPositions change)
        (change position)
  | identifier text position => identifier text (change position)
  | literal text position => literal text (change position)

def mapPositionsAll (change : Option Position → Option Position) :
    List Node → List Node
  | [] => []
  | node :: rest => node.mapPositions change :: mapPositionsAll change rest

def mapPositionsOption (change : Option Position → Option Position) :
    Option Node → Option Node
  | none => none
  | some node => some (node.mapPositions change)

end

theorem mapPositionsAll_eq_map (change : Option Position → Option Position)
    (nodes : List Node) :
    mapPositionsAll change nodes = nodes.map (mapPositions change) := by
  induction nodes with
  | nil => rfl
  | cons node rest ih => rw [mapPositionsAll, ih, List.map_cons]

theorem mapPositionsOption_eq_map (change : Option Position → Option Position)
    (node : Option Node) :
    mapPositionsOption change node = node.map (mapPositions change) := by
  cases node <;> rfl

mutual

/-- Changing places twice is changing them once. -/
theorem mapPositions_mapPositions
    (first second : Option Position → Option Position) (node : Node) :
    (node.mapPositions first).mapPositions second =
      node.mapPositions (second ∘ first) := by
  cases node with
  | compound form statements position =>
      simp [mapPositions, mapPositionsAll_mapPositionsAll first second statements]
  | declaration ty name initializer position =>
      simp [mapPositions, Name.mapPosition,
        mapPositionsOption_mapPositionsOption first second initializer]
  | assignment target value position =>
      simp [mapPositions, Name.mapPosition,
        mapPositionsOption_mapPositionsOption first second value]
  | conditional form condition body position =>
      simp [mapPositions,
        mapPositionsOption_mapPositionsOption first second condition,
        mapPositionsOption_mapPositionsOption first second body]
  | result value position =>
      simp [mapPositions,
        mapPositionsOption_mapPositionsOption first second value]
  | binary operator left right position =>
      simp [mapPositions, mapPositions_mapPositions first second left,
        mapPositions_mapPositions first second right]
  | identifier text position => rfl
  | literal text position => rfl

theorem mapPositionsAll_mapPositionsAll
    (first second : Option Position → Option Position) (nodes : List Node) :
    mapPositionsAll second (mapPositionsAll first nodes) =
      mapPositionsAll (second ∘ first) nodes := by
  cases nodes with
  | nil => rfl
  | cons node rest =>
      simp [mapPositionsAll, mapPositions_mapPositions first second node,
        mapPositionsAll_mapPositionsAll first second rest]

theorem mapPositionsOption_mapPositionsOption
    (first second : Option Position → Option Position) (node : Option Node) :
    mapPositionsOption second (mapPositionsOption first node) =
      mapPositionsOption (second ∘ first) node := by
  cases node with
  | none => rfl
  | some node =>
      simp [mapPositionsOption, mapPositions_mapPositions first second node]

end

mutual

theorem mapPositions_id (node : Node) : node.mapPositions id = node := by
  cases node with
  | compound form statements position =>
      simp [mapPositions, mapPositionsAll_id statements]
  | declaration ty name initializer position =>
      simp [mapPositions, Name.mapPosition, mapPositionsOption_id initializer]
  | assignment target value position =>
      simp [mapPositions, Name.mapPosition, mapPositionsOption_id value]
  | conditional form condition body position =>
      simp [mapPositions, mapPositionsOption_id condition,
        mapPositionsOption_id body]
  | result value position => simp [mapPositions, mapPositionsOption_id value]
  | binary operator left right position =>
      simp [mapPositions, mapPositions_id left, mapPositions_id right]
  | identifier text position => rfl
  | literal text position => rfl

theorem mapPositionsAll_id (nodes : List Node) :
    mapPositionsAll id nodes = nodes := by
  cases nodes with
  | nil => rfl
  | cons node rest =>
      simp [mapPositionsAll, mapPositions_id node, mapPositionsAll_id rest]

theorem mapPositionsOption_id (node : Option Node) :
    mapPositionsOption id node = node := by
  cases node with
  | none => rfl
  | some node => simp [mapPositionsOption, mapPositions_id node]

end

def relocate (move : Position → Position) : Node → Node :=
  mapPositions (Option.map move)

end Node

/-- A cursor before the same tokens, moved to other places. -/
def Cursor.relocate (move : Position → Position) (cursor : Cursor) : Cursor :=
  { cursor with rest := cursor.rest.map (Token.relocate move) }

section Relocation

variable (move : Position → Position)

@[simp]
theorem Token.relocate_is (token : Token) (kind : Token.Kind) (text : String) :
    (token.relocate move).is kind text = token.is kind text :=
  rfl

@[simp]
theorem Token.relocate_opening (token : Token) :
    (token.relocate move).opening = token.opening :=
  rfl

namespace Cursor

variable (cursor : Cursor)

@[simp]
theorem relocate_advance :
    (cursor.relocate move).advance = cursor.advance.relocate move := by
  simp [advance, relocate]

@[simp]
theorem relocate_sees (kind : Token.Kind) (text : String) :
    (cursor.relocate move).sees kind text = cursor.sees kind text := by
  obtain ⟨rest, budget⟩ := cursor
  cases rest <;> rfl

@[simp]
theorem relocate_skip (kind : Token.Kind) (text : String) :
    (cursor.relocate move).skip kind text =
      (cursor.skip kind text).relocate move := by
  rw [skip, skip, relocate_sees]
  split
  · exact relocate_advance move cursor
  · rfl

theorem relocate_spend? :
    (cursor.relocate move).spend? = cursor.spend?.map (relocate move) := by
  obtain ⟨rest, budget⟩ := cursor
  cases budget <;> rfl

theorem relocate_operator? (operators : List Operator) :
    (cursor.relocate move).operator? operators =
      (cursor.operator? operators).map (Prod.map id move) := by
  obtain ⟨rest, budget⟩ := cursor
  cases rest with
  | nil => rfl
  | cons token rest =>
      simp only [relocate, operator?, List.map_cons, Token.relocate]
      split
      · split
        · split <;> rfl
        · rfl
      · rfl

end Cursor

namespace Reader

/-- What has been read, with every place moved. -/
def relocateRead (read : Option Node × Cursor) : Option Node × Cursor :=
  (read.1.map (Node.relocate move), read.2.relocate move)

/-- A reader that reads the same wherever the tokens stand. -/
def Relocates (reader : Reader) : Prop :=
  ∀ cursor, reader (cursor.relocate move) = relocateRead move (reader cursor)

variable {move}

theorem chain_relocate {operand : Reader} (hoperand : Relocates move operand)
    (operators : List Operator) (steps : Nat) (left : Node) (cursor : Cursor) :
    chain operand operators steps (left.relocate move)
        (cursor.relocate move) =
      ((chain operand operators steps left cursor).1.relocate move,
        (chain operand operators steps left cursor).2.relocate move) := by
  induction steps generalizing left cursor with
  | zero => rfl
  | succ steps ih =>
      simp only [chain, Cursor.relocate_operator?, Cursor.relocate_spend?]
      cases cursor.operator? operators with
      | none => rfl
      | some found =>
          obtain ⟨operator, position⟩ := found
          cases cursor.spend? with
          | none => rfl
          | some paid =>
              simp only [Option.map_some, Prod.map_apply, id_eq,
                Cursor.relocate_advance, hoperand paid.advance, relocateRead]
              cases hread : operand paid.advance with
              | mk right after =>
                  cases right with
                  | none => rfl
                  | some right =>
                      exact ih (.binary operator left right (some position))
                        after

theorem level_relocates {operand : Reader} (hoperand : Relocates move operand)
    (operators : List Operator) : Relocates move (level operand operators) := by
  intro cursor
  simp only [level, hoperand cursor, relocateRead]
  cases hread : operand cursor with
  | mk left after =>
      cases left with
      | none => rfl
      | some left =>
          simp only [Option.map_some]
          have hchain :=
            chain_relocate hoperand operators after.budget left after
          rw [show (after.relocate move).budget = after.budget from rfl, hchain]

theorem levels_relocates {operand : Reader}
    (hoperand : Relocates move operand) (levels : List (List Operator)) :
    Relocates move (Reader.levels operand levels) := by
  induction levels with
  | nil => exact hoperand
  | cons operators tighter ih => exact level_relocates ih operators

theorem absent_relocates : Relocates move absent := fun _ => rfl

theorem parenthesized_relocates {expression : Reader}
    (hexpression : Relocates move expression) :
    Relocates move (parenthesized expression) := by
  intro cursor
  simp only [parenthesized, Cursor.relocate_spend?]
  cases cursor.spend? with
  | none => rfl
  | some paid =>
      simp only [Option.map_some, Cursor.relocate_advance,
        hexpression paid.advance, relocateRead, Cursor.relocate_skip]

theorem atom_relocates {group : Reader} (hgroup : Relocates move group) :
    Relocates move (atom group) := by
  intro cursor
  have hgroup := hgroup cursor
  obtain ⟨rest, budget⟩ := cursor
  cases rest with
  | nil => rfl
  | cons token rest =>
      obtain ⟨kind, text, position⟩ := token
      cases kind with
      | literal => rfl
      | identifier => rfl
      | delimiter =>
          by_cases htext : text = "("
          · simpa [atom, Cursor.relocate, Token.relocate, htext] using hgroup
          · simp [atom, Cursor.relocate, Token.relocate, htext, relocateRead]
      | keyword => rfl
      | operator => rfl
      | comment => rfl

theorem operand_relocates (depth : Nat) : Relocates move (operand depth) := by
  induction depth with
  | zero => exact atom_relocates absent_relocates
  | succ depth ih =>
      exact atom_relocates
        (parenthesized_relocates (levels_relocates ih Operator.levels))

theorem subexpression_relocates : Relocates move subexpression := fun cursor =>
  levels_relocates (operand_relocates cursor.budget) Operator.levels cursor

end Reader

/-- A cursor before the same tokens as another one, moved to other places.  What
is left of the budgets may differ. -/
def Cursor.Follows (move : Position → Position) (cursor other : Cursor) :
    Prop :=
  cursor.rest = other.rest.map (Token.relocate move)

namespace Cursor.Follows

variable {move} {cursor other : Cursor}

theorem advance (hfollows : cursor.Follows move other) :
    cursor.advance.Follows move other.advance := by
  rw [Follows] at hfollows ⊢
  simp only [Cursor.advance, hfollows, List.map_tail]

theorem sees_eq (hfollows : cursor.Follows move other) (kind : Token.Kind)
    (text : String) : cursor.sees kind text = other.sees kind text := by
  rw [Follows] at hfollows
  rw [Cursor.sees, Cursor.sees, hfollows]
  cases other.rest <;> rfl

theorem skip (hfollows : cursor.Follows move other) (kind : Token.Kind)
    (text : String) :
    (cursor.skip kind text).Follows move (other.skip kind text) := by
  rw [Cursor.skip, Cursor.skip, hfollows.sees_eq]
  split
  · exact hfollows.advance
  · exact hfollows

end Cursor.Follows

namespace Reader

variable {move}

/-- What has been read is the same as something else that has been read, with
every place moved. -/
structure Mirrored (move : Position → Position)
    (read other : Option Node × Cursor) : Prop where
  node : read.1 = other.1.map (Node.relocate move)
  rest : read.2.Follows move other.2

/-- A reader to which neither the places of the tokens nor what is left of the
budget matters. -/
def Steady (move : Position → Position) (reader : Reader) : Prop :=
  ∀ {cursor other : Cursor}, cursor.Follows move other →
    Mirrored move (reader cursor) (reader other)

/-- An expression starts with a fresh budget. -/
theorem expression_steady : Steady move expression := by
  intro cursor other hfollows
  have hstart : { cursor with budget := maxExpressionNodes } =
      Cursor.relocate move { other with budget := maxExpressionNodes } := by
    rw [Cursor.relocate, hfollows]
  rw [expression, expression, hstart, subexpression_relocates]
  exact ⟨rfl, rfl⟩

theorem declaration_steady (ty : Ty) (position : Position)
    {cursor other : Cursor} (hfollows : cursor.Follows move other) :
    Mirrored move (declaration ty (move position) cursor)
      (declaration ty position other) := by
  have hrest : cursor.rest = other.rest.map (Token.relocate move) := hfollows
  unfold declaration
  rw [hrest]
  cases other.rest with
  | nil => exact ⟨rfl, hfollows⟩
  | cons token tokens =>
      simp only [List.map_cons, Token.relocate]
      split
      · have hvalue : Mirrored move
            (if cursor.advance.sees .operator "=" then
              expression cursor.advance.advance else (none, cursor.advance))
            (if other.advance.sees .operator "=" then
              expression other.advance.advance else (none, other.advance)) := by
          rw [hfollows.advance.sees_eq]
          split
          · exact expression_steady hfollows.advance.advance
          · exact ⟨rfl, hfollows.advance⟩
        refine ⟨?_, hvalue.rest.skip .delimiter ";"⟩
        simp [hvalue.node, Node.relocate, Node.mapPositions, Name.mapPosition,
          Node.mapPositionsOption_eq_map]
      · exact ⟨rfl, hfollows⟩

theorem assignment_steady (target : Token) {cursor other : Cursor}
    (hfollows : cursor.Follows move other) :
    Mirrored move (assignment (target.relocate move) cursor)
      (assignment target other) := by
  have hvalue := expression_steady (hfollows.skip .operator "=")
  refine ⟨?_, hvalue.rest.skip .delimiter ";"⟩
  simp [assignment, hvalue.node, Node.relocate, Node.mapPositions,
    Name.mapPosition, Token.relocate, Node.mapPositionsOption_eq_map]

theorem result_steady (position : Position) {cursor other : Cursor}
    (hfollows : cursor.Follows move other) :
    Mirrored move (result (move position) cursor) (result position other) := by
  have hvalue : Mirrored move
      (if cursor.sees .delimiter ";" then (none, cursor)
        else expression cursor)
      (if other.sees .delimiter ";" then (none, other)
        else expression other) := by
    rw [hfollows.sees_eq]
    split
    · exact ⟨rfl, hfollows⟩
    · exact expression_steady hfollows
  refine ⟨?_, hvalue.rest.skip .delimiter ";"⟩
  simp [result, hvalue.node, Node.relocate, Node.mapPositions,
    Node.mapPositionsOption_eq_map]

theorem conditional_steady (form : Conditional) (position : Position)
    {body : Reader} (hbody : Steady move body) {cursor other : Cursor}
    (hfollows : cursor.Follows move other) :
    Mirrored move (conditional form (move position) body cursor)
      (conditional form position body other) := by
  have hcondition := expression_steady (hfollows.skip .delimiter "(")
  have hcontent := hbody (hcondition.rest.skip .delimiter ")")
  refine ⟨?_, hcontent.rest⟩
  simp [conditional, hcondition.node, hcontent.node, Node.relocate,
    Node.mapPositions, Node.mapPositionsOption_eq_map]

/-- Statements one after another, up to where the same tokens stop them. -/
theorem sequence_steady {statement : Reader} (hstatement : Steady move statement)
    {stop : Cursor → Bool}
    (hstop : ∀ {cursor other : Cursor}, cursor.Follows move other →
      stop cursor = stop other)
    (count : Nat) {cursor other : Cursor}
    (hfollows : cursor.Follows move other) :
    (sequence statement stop count cursor).1 =
        (sequence statement stop count other).1.map (Node.relocate move) ∧
      (sequence statement stop count cursor).2.Follows move
        (sequence statement stop count other).2 := by
  induction count generalizing cursor other with
  | zero => exact ⟨rfl, hfollows⟩
  | succ count ih =>
      have hempty : cursor.rest.isEmpty = other.rest.isEmpty := by
        rw [show cursor.rest = _ from hfollows, List.isEmpty_map]
      simp only [sequence, hempty, hstop hfollows]
      split
      · exact ⟨rfl, hfollows⟩
      · have hfirst := hstatement hfollows
        have hothers := ih hfirst.rest
        refine ⟨?_, hothers.2⟩
        rw [hothers.1, hfirst.node, List.map_append, Option.toList_map]

theorem block_steady {statement : Reader} (hstatement : Steady move statement)
    (position : Position) {cursor other : Cursor}
    (hfollows : cursor.Follows move other) :
    Mirrored move (block statement (move position) cursor)
      (block statement position other) := by
  have hlength : cursor.rest.length = other.rest.length := by
    rw [show cursor.rest = _ from hfollows, List.length_map]
  have hstatements := sequence_steady hstatement
    (fun hahead => hahead.sees_eq .delimiter "\x7d") other.rest.length hfollows
  simp only [block, hlength]
  refine ⟨?_, hstatements.2.skip .delimiter "\x7d"⟩
  simp [hstatements.1, Node.relocate, Node.mapPositions,
    Node.mapPositionsAll_eq_map]

theorem body_steady {statement : Reader} (hstatement : Steady move statement) :
    Steady move (body statement) := by
  intro cursor other hfollows
  have hrest : cursor.rest = other.rest.map (Token.relocate move) := hfollows
  unfold body
  rw [hrest]
  cases other.rest with
  | nil => exact hstatement hfollows
  | cons token tokens =>
      simp only [List.map_cons, Token.relocate_is]
      by_cases hbrace : token.is .delimiter "\x7b" = true
      · simp only [hbrace, if_true]
        exact block_steady hstatement token.position hfollows.advance
      · simp only [hbrace]
        exact hstatement hfollows

theorem statementWith_steady {body : Reader} (hbody : Steady move body) :
    Steady move (statementWith body) := by
  intro cursor other hfollows
  have hrest : cursor.rest = other.rest.map (Token.relocate move) := hfollows
  unfold statementWith
  rw [hrest]
  cases other.rest with
  | nil => exact ⟨rfl, hfollows⟩
  | cons token tokens =>
      simp only [List.map_cons, Token.relocate_opening]
      cases token.opening with
      | declaration ty =>
          exact declaration_steady ty token.position hfollows.advance
      | conditional form =>
          exact conditional_steady form token.position hbody hfollows.advance
      | result => exact result_steady token.position hfollows.advance
      | assignment => exact assignment_steady token hfollows.advance
      | stray => exact ⟨rfl, hfollows.advance⟩

theorem statement_steady (room : Nat) : Steady move (statement room) := by
  induction room with
  | zero => exact statementWith_steady fun hfollows => ⟨rfl, hfollows⟩
  | succ room ih => exact statementWith_steady (body_steady ih)

theorem program_steady {cursor other : Cursor}
    (hfollows : cursor.Follows move other) :
    (program cursor).1 = (program other).1.map (Node.relocate move) := by
  have hlength : cursor.rest.length = other.rest.length := by
    rw [show cursor.rest = _ from hfollows, List.length_map]
  rw [program, program, hlength]
  exact (sequence_steady (statement_steady maxNestingDepth) (fun _ => rfl)
    other.rest.length hfollows).1

/-- What is left of the budget does not matter to a program. -/
theorem program_budget (rest : List Token) (budget other : Nat) :
    (program ⟨rest, budget⟩).1 = (program ⟨rest, other⟩).1 := by
  have hnode : Node.relocate id = id := by
    funext node
    rw [Node.relocate, Option.map_id]
    exact node.mapPositions_id
  have hfollows : Cursor.Follows id ⟨rest, budget⟩ ⟨rest, other⟩ :=
    (List.map_id rest).symm
  rw [program_steady hfollows, hnode, List.map_id]

end Reader

theorem withoutComments_map_relocate (tokens : List Token) :
    withoutComments (tokens.map (Token.relocate move)) =
      (withoutComments tokens).map (Token.relocate move) :=
  List.filter_map

/-- Moving the tokens moves the tree that is read from them. -/
theorem parse_map_relocate (tokens : List Token) :
    parse (tokens.map (Token.relocate move)) =
      (parse tokens).relocate move := by
  have hfollows : Cursor.Follows move
      ⟨withoutComments (tokens.map (Token.relocate move)), maxExpressionNodes⟩
      ⟨withoutComments tokens, maxExpressionNodes⟩ :=
    withoutComments_map_relocate move tokens
  rw [parse, Reader.program_steady hfollows, parse, Node.relocate,
    Node.mapPositions, Node.mapPositionsAll_eq_map]
  rfl

end Relocation

end ThreeAddress
