import ThreeAddress.Node
import ThreeAddress.Token

/-!
The state of reading: the tokens still ahead, and how many more operators and
parentheses the expression at hand may hold.
-/

namespace ThreeAddress

/-- At most so many bodies of conditional statements stand inside each other. -/
def maxNestingDepth : Nat := 128

/-- At most so many operators and parentheses stand in one expression. -/
def maxExpressionNodes : Nat := 128

/-- The tokens still ahead and what is left of the expression's budget. -/
structure Cursor where
  rest : List Token
  budget : Nat
deriving Repr

/-- A reader takes tokens from the front and gives a node if it finds one. -/
abbrev Reader := Cursor → Option Node × Cursor

namespace Cursor

def advance (cursor : Cursor) : Cursor :=
  { cursor with rest := cursor.rest.tail }

def sees (cursor : Cursor) (kind : Token.Kind) (text : String) : Bool :=
  cursor.rest.head?.any fun token => token.is kind text

/-- Pass the next token if it has the given class and text.  A token that is
expected and missing is not an error. -/
def skip (cursor : Cursor) (kind : Token.Kind) (text : String) : Cursor :=
  if cursor.sees kind text then cursor.advance else cursor

/-- Take one unit of the budget; `none` when nothing is left of it. -/
def spend? (cursor : Cursor) : Option Cursor :=
  match cursor.budget with
  | 0 => none
  | budget + 1 => some { cursor with budget := budget }

/-- The next token, if it is one of the given operators, with its place. -/
def operator? (cursor : Cursor) (operators : List Operator) :
    Option (Operator × Position) :=
  match cursor.rest with
  | [] => none
  | token :: _ =>
      if token.kind = .operator then
        match Operator.ofSymbol? token.text with
        | some operator =>
            if operator ∈ operators then some (operator, token.position)
            else none
        | none => none
      else none

end Cursor

/-- The reader that finds nothing and takes nothing. -/
def Reader.absent : Reader := fun cursor => (none, cursor)

end ThreeAddress
