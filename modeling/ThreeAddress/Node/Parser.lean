import ThreeAddress.Node.Statement

/-!
From tokens to the tree.  `parse` is the function itself.  `Parser` is a parser
over given tokens that keeps its place between calls: it reads single
expressions and statements from where it stands, and a program from the start.
-/

namespace ThreeAddress

/-- The tokens that are read: all but the comments. -/
def withoutComments (tokens : List Token) : List Token :=
  tokens.filter fun token => token.kind != .comment

/-- Statements up to the end of the tokens. -/
def Reader.program (cursor : Cursor) : List Node × Cursor :=
  sequence (statement maxNestingDepth) (fun _ => false) cursor.rest.length
    cursor

/-- The program that a sequence of tokens stands for. -/
def parse (tokens : List Token) : Node :=
  .compound .program
    (Reader.program ⟨withoutComments tokens, maxExpressionNodes⟩).1 none

/-- A parser over given tokens: how many of them are taken, how many bodies it
is inside of, and what is left of the budget of the expression at hand. -/
structure Parser where
  tokens : List Token
  position : Nat
  depth : Nat
  budget : Nat
deriving Repr

namespace Parser

/-- A parser at the first token that is no comment. -/
def ofTokens (tokens : List Token) : Parser :=
  ⟨withoutComments tokens, 0, 0, maxExpressionNodes⟩

def cursor (parser : Parser) : Cursor :=
  ⟨parser.tokens.drop parser.position, parser.budget⟩

/-- The parser after it has come as far as the given cursor. -/
def moveTo (parser : Parser) (cursor : Cursor) : Parser :=
  { parser with
    position :=
      parser.position + (parser.cursor.rest.length - cursor.rest.length)
    budget := cursor.budget }

def expression (parser : Parser) : Option Node × Parser :=
  let (node, last) := Reader.expression parser.cursor
  (node, parser.moveTo last)

/-- The next statement.  A parser inside of some bodies has room for the
others. -/
def statement (parser : Parser) : Option Node × Parser :=
  let (node, last) :=
    Reader.statement (maxNestingDepth - parser.depth) parser.cursor
  (node, parser.moveTo last)

/-- The whole program, from the first token and from outside of all bodies. -/
def program (parser : Parser) : Node × Parser :=
  let start := { parser with position := 0, depth := 0 }
  let (statements, last) := Reader.program start.cursor
  (.compound .program statements none, start.moveTo last)

end Parser

end ThreeAddress
