import ThreeAddress.Text.Blank
import ThreeAddress.Token

/-!
The lexeme at the head of a line.  `lexeme?` says whether a token starts with a
given character, which class it has and how many of the characters that follow
belong to it.  No line is refused: a quoted literal without its closing quote
takes the rest of the line, and a character of no class starts no token.
-/

namespace ThreeAddress

def isWordStart (character : Char) : Bool :=
  character.isAlpha || character == '_'

def isWordPart (character : Char) : Bool :=
  isWordStart character || character.isDigit

/-- A character that may continue a number; a number may hold several dots. -/
def isNumberPart (character : Char) : Bool :=
  character.isDigit || character == '.'

/-- The two quotes that open a literal. -/
def isQuote (character : Char) : Bool :=
  character == '"' || character == '\''

/-- How many characters after an opening quote belong to the literal: all up to
and including the first equal quote that no backslash escapes, or all there
are.  A backslash takes the character after it along, whatever it is. -/
def quotedLength (quote : Char) : List Char → Nat
  | [] => 0
  | ['\\'] => 1
  | '\\' :: _ :: rest => quotedLength quote rest + 2
  | character :: rest =>
      if character = quote then 1 else quotedLength quote rest + 1

/-- The class of a word: reserved, a literal, or an identifier. -/
def wordKind (word : String) : Token.Kind :=
  if word ∈ keywords then .keyword
  else if word ∈ booleanWords then .literal
  else .identifier

/-- A lexeme at the head of a line: its class and the number of characters that
it takes after the first. -/
structure Lexeme where
  kind : Token.Kind
  extra : Nat
deriving DecidableEq, Repr

/-- The lexeme that starts with `first` when `rest` is what follows on the
line; `none` when `first` belongs to no token. -/
def lexeme? (first : Char) (rest : List Char) : Option Lexeme :=
  if isBlank first then none
  else if first = '/' ∧ rest.head? = some '/' then
    some ⟨.comment, rest.length⟩
  else if rest.head?.any fun second => (first, second) ∈ operatorPairs then
    some ⟨.operator, 1⟩
  else if isQuote first then some ⟨.literal, quotedLength first rest⟩
  else if first.isDigit then
    some ⟨.literal, (rest.takeWhile isNumberPart).length⟩
  else if isWordStart first then
    let tail := rest.takeWhile isWordPart
    some ⟨wordKind (String.ofList (first :: tail)), tail.length⟩
  else if first ∈ operatorSigns then some ⟨.operator, 0⟩
  else if first ∈ delimiterSigns then some ⟨.delimiter, 0⟩
  else none

end ThreeAddress
