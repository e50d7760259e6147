import ThreeAddress.Proofs.Height

/-!
Reading comes to an end.  A statement passes a token, and so does an expression
of which a node is made; hence every loop of the parser ends by itself, and the
bounds that it is given are never what ends it.  The same holds of parentheses
inside each other: the budget ends them before their bound does.
-/

namespace ThreeAddress

/-- A loop that comes to its end: its rounds lead from state to state until one
of them is the last. -/
inductive Ends {σ : Type} (round : σ → ForInStep σ) : (start last : σ) → Prop where
  | done {state last : σ} (hround : round state = .done last) :
      Ends round state last
  | next {state after last : σ} (hround : round state = .yield after)
      (hrest : Ends round after last) : Ends round state last

namespace Reader

/-- One round of reading statements one after another: there is none at the end
of the tokens or where `stop` holds. -/
def statementRound (statement : Reader) (stop : Cursor → Bool)
    (state : List Node × Cursor) : ForInStep (List Node × Cursor) :=
  if state.2.rest.isEmpty || stop state.2 then .done state
  else
    .yield (state.1 ++ (statement state.2).1.toList, (statement state.2).2)

/-- One round of reading on after a left operand.  It is the last if no operator
follows, if the budget does not pay for it, or if its right operand is
missing. -/
def chainRound (operand : Reader) (operators : List Operator)
    (state : Node × Cursor) : ForInStep (Node × Cursor) :=
  match state.2.operator? operators, state.2.spend? with
  | some (operator, position), some paid =>
      match operand paid.advance with
      | (some right, after) =>
          .yield (.binary operator state.1 right (some position), after)
      | (none, after) => .done (state.1, after)
  | _, _ => .done state

/-- Statements that each pass a token are all read in no more rounds than there
are tokens. -/
theorem sequence_ends {statement : Reader}
    (hstatement : ∀ cursor, (statement cursor).2.rest <:+ cursor.rest.tail)
    (stop : Cursor → Bool) {count : Nat} {cursor : Cursor}
    (hcount : cursor.rest.length ≤ count) (before : List Node) :
    Ends (statementRound statement stop) (before, cursor)
      (before ++ (sequence statement stop count cursor).1,
        (sequence statement stop count cursor).2) := by
  induction count generalizing cursor before with
  | zero =>
      have hrest : cursor.rest = [] :=
        List.eq_nil_of_length_eq_zero (Nat.le_zero.mp hcount)
      apply Ends.done
      simp [statementRound, sequence, hrest]
  | succ count ih =>
      by_cases hstop : (cursor.rest.isEmpty || stop cursor) = true
      · apply Ends.done
        simp only [statementRound, sequence, hstop, if_true, List.append_nil]
      · -- a statement passes a token, so that one round less is enough
        have hshorter : (statement cursor).2.rest.length ≤ count := by
          have htail := (hstatement cursor).length_le
          rw [List.length_tail] at htail
          omega
        have hrest := ih hshorter (before ++ (statement cursor).1.toList)
        rw [List.append_assoc] at hrest
        rw [sequence, if_neg hstop]
        exact Ends.next (if_neg hstop) hrest

/-- A reader that leaves no more of the budget than there was. -/
def Frugal (reader : Reader) : Prop :=
  ∀ cursor, (reader cursor).2.budget ≤ cursor.budget

theorem frugal_of_covers {reader : Reader}
    (hreader : Reading.Expression.Covers reader) : Frugal reader := by
  intro cursor
  exact Nat.le_trans (Nat.le_add_left _ _) (hreader cursor).countOperators_le

theorem budget_lt_of_spend? {cursor paid : Cursor}
    (hpaid : cursor.spend? = some paid) :
    paid.advance.budget < cursor.budget := by
  obtain ⟨rest, _ | budget⟩ := cursor
  · simp [Cursor.spend?] at hpaid
  · simp only [Cursor.spend?_succ, Option.some.injEq] at hpaid
    subst hpaid
    exact Nat.lt_succ_self budget

/-- What is left after an operator and its right operand is less than there
was. -/
theorem budget_lt_of_operand {operand : Reader} (hoperand : Frugal operand)
    {cursor paid after : Cursor} {right : Option Node}
    (hpaid : cursor.spend? = some paid)
    (hright : operand paid.advance = (right, after)) :
    after.budget < cursor.budget := by
  have hafter := hoperand paid.advance
  rw [hright] at hafter
  exact Nat.lt_of_le_of_lt hafter (budget_lt_of_spend? hpaid)

/-- A chain of operators ends in no more rounds than the budget pays for. -/
theorem chain_ends {operand : Reader} (hoperand : Frugal operand)
    (operators : List Operator) {steps : Nat} {cursor : Cursor}
    (hsteps : cursor.budget ≤ steps) (left : Node) :
    Ends (chainRound operand operators) (left, cursor)
      (chain operand operators steps left cursor) := by
  induction steps generalizing cursor left with
  | zero =>
      have hspent : cursor.spend? = none := by
        rw [Cursor.spend?, Nat.le_zero.mp hsteps]
      apply Ends.done
      simp [chainRound, chain, hspent]
  | succ steps ih =>
      rw [chain]
      split
      · rename_i operator position paid hoperator hpaid
        split
        · rename_i right after hright
          have hless := budget_lt_of_operand hoperand hpaid hright
          apply Ends.next
          · simp only [chainRound, hoperator, hpaid, hright]
            rfl
          · exact ih (Nat.le_of_lt_succ (Nat.lt_of_lt_of_le hless hsteps)) _
        · rename_i after hright
          apply Ends.done
          simp only [chainRound, hoperator, hpaid, hright]
      · rename_i hnone
        apply Ends.done
        rw [chainRound]
        split
        · exact absurd ‹_› (hnone _ _ _ ‹_›)
        · rfl

/-- Two readers that do the same wherever the budget is at most `bound`. -/
def Agree (bound : Nat) (first second : Reader) : Prop :=
  ∀ cursor, cursor.budget ≤ bound → first cursor = second cursor

theorem chain_agree {bound : Nat} {first second : Reader}
    (hfirst : Frugal first) (hagree : Agree bound first second)
    (operators : List Operator) (steps : Nat) (left : Node) {cursor : Cursor}
    (hbound : cursor.budget ≤ bound) :
    chain first operators steps left cursor =
      chain second operators steps left cursor := by
  induction steps generalizing left cursor with
  | zero => rfl
  | succ steps ih =>
      rw [chain, chain]
      split
      · rename_i operator position paid hoperator hpaid
        have hspent := Nat.le_of_lt (budget_lt_of_spend? hpaid)
        rw [← hagree paid.advance (Nat.le_trans hspent hbound)]
        split
        · rename_i right after hright
          have hless := budget_lt_of_operand hfirst hpaid hright
          exact ih _ (Nat.le_trans (Nat.le_of_lt hless) hbound)
        · rfl
      · rfl

theorem level_agree {bound : Nat} {first second : Reader}
    (hfirst : Frugal first) (hagree : Agree bound first second)
    (operators : List Operator) :
    Agree bound (level first operators) (level second operators) := by
  intro cursor hbound
  have hafter := Nat.le_trans (hfirst cursor) hbound
  rw [level, level, ← hagree cursor hbound]
  split
  · rfl
  · rename_i left after hleft
    rw [hleft] at hafter
    rw [chain_agree hfirst hagree operators after.budget left hafter]

theorem levels_agree {bound : Nat} {first second : Reader}
    (hfirst : Reading.Expression.Covers first)
    (hagree : Agree bound first second) (levels : List (List Operator)) :
    Agree bound (Reader.levels first levels) (Reader.levels second levels) := by
  induction levels with
  | nil => exact hagree
  | cons operators tighter ih =>
      apply level_agree _ ih operators
      exact frugal_of_covers (Reading.levels_covered hfirst tighter)

/-- A group pays before it reads what is inside. -/
theorem parenthesized_agree {bound : Nat} {first second : Reader}
    (hagree : Agree bound first second) :
    Agree (bound + 1) (parenthesized first) (parenthesized second) := by
  intro cursor hbound
  rw [parenthesized, parenthesized]
  split
  · rfl
  · rename_i paid hpaid
    have hspent := Nat.lt_of_lt_of_le (budget_lt_of_spend? hpaid) hbound
    rw [hagree paid.advance (Nat.le_of_lt_succ hspent)]

/-- Without a budget no group is read. -/
theorem parenthesized_absent (expression : Reader) :
    Agree 0 absent (parenthesized expression) := by
  rintro ⟨rest, budget⟩ hbound
  cases Nat.le_zero.mp hbound
  rfl

theorem atom_agree {bound : Nat} {first second : Reader}
    (hagree : Agree bound first second) :
    Agree bound (atom first) (atom second) := by
  intro cursor hbound
  rw [atom, atom, hagree cursor hbound]

/-- An operand, with parentheses inside each other as deep as they are. -/
def primary : Reader := atom (parenthesized subexpression)

/-- A bound that the budget does not exceed makes no difference. -/
theorem operand_agree (depth : Nat) : Agree depth (operand depth) primary := by
  induction depth using Nat.strongRecOn with
  | ind depth ih =>
      rcases depth with _ | depth
      · exact atom_agree (parenthesized_absent subexpression)
      · apply atom_agree
        apply parenthesized_agree
        intro cursor hbound
        -- an inner expression is bounded by its own budget; both bounds agree
        -- with none
        have hagree : ∀ inner, inner ≤ depth →
            Agree inner (Reader.levels (operand inner) Operator.levels)
              (Reader.levels primary Operator.levels) := by
          intro inner hinner
          exact levels_agree (Reading.operand_covered inner)
            (ih inner (Nat.lt_succ_of_le hinner)) Operator.levels
        rw [subexpression, hagree depth (Nat.le_refl depth) cursor hbound]
        exact (hagree cursor.budget hbound cursor (Nat.le_refl _)).symm

/-- An expression consists of operands whose groups are expressions again. -/
theorem subexpression_eq :
    subexpression = Reader.levels primary Operator.levels := by
  funext cursor
  exact levels_agree (Reading.operand_covered cursor.budget)
    (operand_agree cursor.budget) Operator.levels cursor (Nat.le_refl _)

theorem primary_covered : Reading.Expression.Covers primary := by
  intro cursor
  rw [← operand_agree cursor.budget cursor (Nat.le_refl _)]
  exact Reading.operand_covered cursor.budget cursor

end Reader

namespace Reading

/-- An expression of which a node is made takes a token. -/
theorem Expression.length_lt {cursor after : Cursor} {node : Option Node}
    (hread : Expression cursor node after) (hnode : node.isSome) :
    after.rest.length < cursor.rest.length := by
  induction hread with
  | absent cursor => cases hnode
  | literal text position rest budget => exact Nat.lt_succ_self _
  | identifier text position rest budget => exact Nat.lt_succ_self _
  | group position hinner ih =>
      have hskip := (skip_suffix _ .delimiter ")").trans hinner.suffix
      exact Nat.lt_succ_of_le hskip.length_le
  | joined operator position hleft hright ihleft ihright =>
      have hpassed := Nat.lt_succ_of_le hright.suffix.length_le
      exact Nat.lt_trans hpassed (ihleft rfl)
  | dangling operator position hleft hright ihleft ihright =>
      have hpassed := Nat.lt_succ_of_le hright.suffix.length_le
      exact Nat.lt_trans hpassed (ihleft rfl)

end Reading

namespace Reader

/-- The loops of reading come to their ends by themselves, and none is cut off
by a bound. -/
structure LoopsEnd : Prop where
  /-- The statements of a program. -/
  program : ∀ cursor,
    Ends (statementRound (statement maxNestingDepth) fun _ => false)
      ([], cursor) (program cursor)
  /-- The statements of a block, whatever the room. -/
  block : ∀ room position cursor, ∃ statements last,
    Ends (statementRound (statement room)
        fun ahead => ahead.sees .delimiter "\x7d")
      ([], cursor) (statements, last) ∧
    block (statement room) position cursor =
      (some (.compound .block statements (some position)),
        last.skip .delimiter "\x7d")
  /-- The operators of a level of precedence, after its first operand. -/
  level : ∀ operators tighter cursor left after,
    Reader.levels primary tighter cursor = (some left, after) →
    ∃ node last,
      Ends (chainRound (Reader.levels primary tighter) operators)
        (left, after) (node, last) ∧
      Reader.levels primary (operators :: tighter) cursor = (some node, last)
  /-- Parentheses inside each other are no more than the budget. -/
  operand : ∀ depth cursor, cursor.budget ≤ depth →
    operand depth cursor = primary cursor
  /-- Groups are expressions again. -/
  expression : subexpression = Reader.levels primary Operator.levels

theorem statement_suffix_tail (room : Nat) (cursor : Cursor) :
    (statement room cursor).2.rest <:+ cursor.rest.tail :=
  (Reading.statement_covered room cursor).suffix_tail

theorem level_ends (operators : List Operator) (tighter : List (List Operator))
    (cursor : Cursor) (left : Node) (after : Cursor)
    (hleft : Reader.levels primary tighter cursor = (some left, after)) :
    ∃ node last,
      Ends (chainRound (Reader.levels primary tighter) operators)
        (left, after) (node, last) ∧
      Reader.levels primary (operators :: tighter) cursor =
        (some node, last) := by
  have hfrugal := frugal_of_covers
    (Reading.levels_covered primary_covered tighter)
  refine ⟨_, _, chain_ends hfrugal operators (Nat.le_refl _) left, ?_⟩
  rw [Reader.levels, level, hleft]

theorem loopsEnd : LoopsEnd where
  program _ :=
    sequence_ends (statement_suffix_tail maxNestingDepth) _ (Nat.le_refl _) []
  block room _ _ :=
    ⟨_, _, sequence_ends (statement_suffix_tail room) _ (Nat.le_refl _) [], rfl⟩
  level := level_ends
  operand := operand_agree
  expression := subexpression_eq

end Reader

namespace Parser

theorem length_cursor (parser : Parser) :
    parser.cursor.rest.length = parser.tokens.length - parser.position :=
  List.length_drop

/-- A parser does not come past the last token. -/
theorem position_moveTo_le (parser : Parser) (last : Cursor) :
    (parser.moveTo last).position ≤
      max parser.position parser.tokens.length := by
  have hlength := parser.length_cursor
  simp only [moveTo]
  omega

theorem lt_position_moveTo {parser : Parser} {last : Cursor}
    (hlast : last.rest.length < parser.cursor.rest.length) :
    parser.position < (parser.moveTo last).position :=
  Nat.lt_add_of_pos_right (Nat.sub_pos_of_lt hlast)

end Parser

/-- A parser with tokens ahead comes on by a statement, and any parser does by
an expression of which a node is made; none goes back or past the end.  So all
loops end, and a program takes all tokens. -/
theorem parser_makes_progress (parser : Parser) :
    (parser.position < parser.tokens.length →
      parser.position < parser.statement.2.position ∧
      parser.statement.2.position ≤ parser.tokens.length) ∧
    parser.statement.2.depth = parser.depth ∧
    parser.position ≤ parser.expression.2.position ∧
    parser.expression.2.position ≤
      max parser.position parser.tokens.length ∧
    (parser.expression.1.isSome →
      parser.position < parser.expression.2.position) ∧
    Reader.LoopsEnd ∧
    parser.program.2.position = parser.tokens.length := by
  have hlength := parser.length_cursor
  refine ⟨?_, rfl, Nat.le_add_right _ _, parser.position_moveTo_le _, ?_,
    Reader.loopsEnd, ?_⟩
  · intro hahead
    constructor
    · have htail := (Reader.statement_suffix_tail
        (maxNestingDepth - parser.depth) parser.cursor).length_le
      rw [List.length_tail] at htail
      exact Parser.lt_position_moveTo (by omega)
    · have hpast := parser.position_moveTo_le
        (Reader.statement (maxNestingDepth - parser.depth) parser.cursor).2
      rwa [Nat.max_eq_right (Nat.le_of_lt hahead)] at hpast
  · intro hnode
    exact Parser.lt_position_moveTo
      ((Reading.expression_covered _ _).length_lt hnode)
  · simp [Parser.program, Parser.moveTo, Parser.cursor,
      Reading.program_rest_eq_nil]

/-- Inside of too many bodies, and with nothing that closes. -/
theorem parser_makes_progress_of_unclosed :
    let parser : Parser :=
      ⟨[⟨.delimiter, "\x7b", ⟨1, 1⟩⟩, ⟨.keyword, "while", ⟨1, 2⟩⟩,
        ⟨.delimiter, "(", ⟨1, 8⟩⟩, ⟨.delimiter, "(", ⟨1, 9⟩⟩], 1, 200, 0⟩
    parser.position < parser.tokens.length ∧
      parser.position < parser.statement.2.position ∧
      parser.statement.2.position ≤ parser.tokens.length := by
  intro parser
  exact ⟨by decide, (parser_makes_progress parser).1 (by decide)⟩

end ThreeAddress
