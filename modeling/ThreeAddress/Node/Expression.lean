import ThreeAddress.Node.Cursor

/-!
Reading an expression.  The levels of precedence are read from the loosest to
the tightest, each as a chain that associates to the left.  Every operator and
every pair of parentheses takes one unit of the expression's budget, and the
expression ends where the budget does; so the budget also bounds how often a
chain goes on and how deep parentheses are followed.
-/

namespace ThreeAddress

namespace Reader

/-- Read on after the left operand: as long as one of the operators follows and
can be paid, take it and its right operand.  An operator whose right operand is
missing is dropped and ends the chain.  A chain that may take `steps` operators
can afford to stop there when the budget is no larger. -/
def chain (operand : Reader) (operators : List Operator) :
    (steps : Nat) → Node → Cursor → Node × Cursor
  | 0, left, cursor => (left, cursor)
  | steps + 1, left, cursor =>
      match cursor.operator? operators, cursor.spend? with
      | some (operator, position), some paid =>
          match operand paid.advance with
          | (some right, after) =>
              chain operand operators steps
                (.binary operator left right (some position)) after
          | (none, after) => (left, after)
      | _, _ => (left, cursor)

/-- One level of precedence above the given operands. -/
def level (operand : Reader) (operators : List Operator) : Reader :=
  fun cursor =>
    match operand cursor with
    | (none, after) => (none, after)
    | (some left, after) =>
        let (node, last) := chain operand operators after.budget left after
        (some node, last)

/-- The given levels, the loosest first, above the given operands. -/
def levels (operand : Reader) : List (List Operator) → Reader
  | [] => operand
  | operators :: tighter => level (levels operand tighter) operators

/-- An expression between parentheses, which leave no node.  The closing one
may be missing. -/
def parenthesized (expression : Reader) : Reader :=
  fun cursor =>
    match cursor.spend? with
    | none => (none, cursor)
    | some paid =>
        let (node, after) := expression paid.advance
        (node, after.skip .delimiter ")")

/-- An operand: a literal, an identifier, or what `group` reads from an opening
parenthesis on. -/
def atom (group : Reader) : Reader :=
  fun cursor =>
    match cursor.rest with
    | [] => (none, cursor)
    | token :: _ =>
        match token.kind with
        | .literal =>
            (some (.literal token.text (some token.position)), cursor.advance)
        | .identifier =>
            (some (.identifier token.text (some token.position)),
              cursor.advance)
        | .delimiter =>
            if token.text = "(" then group cursor else (none, cursor)
        | _ => (none, cursor)

/-- An operand in which at most `depth` parentheses are opened inside each
other.  With a budget of at most `depth` the bound is never met. -/
def operand : (depth : Nat) → Reader
  | 0 => atom absent
  | depth + 1 => atom (parenthesized (levels (operand depth) Operator.levels))

/-- An expression within what is left of the budget. -/
def subexpression : Reader :=
  fun cursor => levels (operand cursor.budget) Operator.levels cursor

/-- A complete expression, with a fresh budget. -/
def expression : Reader :=
  fun cursor => subexpression { cursor with budget := maxExpressionNodes }

end Reader

end ThreeAddress
