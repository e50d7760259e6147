import ThreeAddress.Text.Line
import ThreeAddress.Token.Lexeme

/-!
From a source text to its tokens.  Lines are scanned one by one and from left
to right; characters that belong to no token are passed over.  `tokenize` is
the function itself, and `Lexer` the same work done through a buffer that
serves for one source after another.
-/

namespace ThreeAddress

/-- The tokens of the rest of a line, of which the first character stands at
the given column. -/
def scanLine (line column : Nat) : List Char → List Token
  | [] => []
  | first :: rest =>
      match lexeme? first rest with
      | none => scanLine line (column + 1) rest
      | some ⟨kind, extra⟩ =>
          ⟨kind, String.ofList (first :: rest.take extra), ⟨line, column⟩⟩ ::
            scanLine line (column + 1 + extra) (rest.drop extra)
termination_by characters => characters.length
decreasing_by all_goals simp; try omega

/-- The tokens of consecutive lines, of which the first has the given number. -/
def scanLines (number : Nat) : List (List Char) → List Token
  | [] => []
  | line :: following =>
      scanLine number 1 line ++ scanLines (number + 1) following

def tokenize (source : String) : List Token :=
  scanLines 1 (lines source.toList)

/-- A reusable lexer with the tokens gathered so far. -/
structure Lexer where
  buffer : List Token := []
deriving Repr

def Lexer.clear (lexer : Lexer) : Lexer :=
  { lexer with buffer := [] }

def Lexer.gather (lexer : Lexer) (number : Nat) : List (List Char) → Lexer
  | [] => lexer
  | line :: following =>
      { lexer with buffer := lexer.buffer ++ scanLine number 1 line }.gather
        (number + 1) following

/-- Tokenize a source, whatever an earlier run has left in the buffer, and hand
the gathered tokens over. -/
def Lexer.tokenize (lexer : Lexer) (source : String) : List Token × Lexer :=
  let filled := lexer.clear.gather 1 (lines source.toList)
  (filled.buffer, filled.clear)

end ThreeAddress
