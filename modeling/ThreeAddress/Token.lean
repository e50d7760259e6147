import ThreeAddress.Position

/-!
Tokens and the tables of the language's words and signs.
-/

namespace ThreeAddress

/-- The six classes of tokens. -/
inductive Token.Kind where
  | keyword
  | identifier
  | operator
  | literal
  | delimiter
  | comment
deriving DecidableEq, Repr

/-- A token: its class, its characters as they stand in the source, and the
place of the first of them. -/
structure Token where
  kind : Token.Kind
  text : String
  position : Position
deriving DecidableEq, Repr

/-- Whether a token has the given class and exactly the given characters. -/
def Token.is (token : Token) (kind : Token.Kind) (text : String) : Bool :=
  token.kind == kind && token.text == text

/-- The name of a class in documents. -/
def Token.Kind.name : Token.Kind → String
  | .keyword => "keyword"
  | .identifier => "identifier"
  | .operator => "operator"
  | .literal => "literal"
  | .delimiter => "delimiter"
  | .comment => "comment"

/-- The name of a class in listings. -/
def Token.Kind.title : Token.Kind → String
  | .keyword => "Keyword"
  | .identifier => "Identifier"
  | .operator => "Operator"
  | .literal => "Literal"
  | .delimiter => "Delimiter"
  | .comment => "Comment"

def keywords : List String :=
  ["int", "float", "double", "char", "void", "if", "else", "while", "for",
    "do", "return", "break", "continue", "const", "struct", "switch", "case",
    "default", "sizeof"]

def booleanWords : List String := ["true", "false"]

def operatorPairs : List (Char × Char) :=
  [('=', '='), ('!', '='), ('<', '='), ('>', '='), ('&', '&'), ('|', '|'),
    ('+', '+'), ('-', '-'), ('+', '='), ('-', '='), ('*', '='), ('/', '='),
    ('<', '<'), ('>', '>')]

def operatorSigns : List Char :=
  ['+', '-', '*', '/', '%', '=', '<', '>', '!', '&', '|', '^', '~', '?']

def delimiterSigns : List Char :=
  ['(', ')', '{', '}', '[', ']', ';', ',', ':', '.']

end ThreeAddress
