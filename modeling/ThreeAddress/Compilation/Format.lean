import ThreeAddress.Compilation.Document

/-!
The formats in which a compilation is shown.  Four of them are listings with one
item on a line; the other two are documents.
-/

namespace ThreeAddress

inductive Format where
  | ir
  | tokens
  | ast
  | symbols
  | diagnostics
  | json
deriving DecidableEq, Repr

def Format.ofName? : String → Option Format
  | "ir" => some .ir
  | "tokens" => some .tokens
  | "ast" => some .ast
  | "symbols" => some .symbols
  | "diagnostics" => some .diagnostics
  | "json" => some .json
  | _ => none

def Format.extension : Format → String
  | .ir => "ir"
  | .tokens => "tokens"
  | .symbols => "symbols"
  | .diagnostics => "diagnostics"
  | .ast | .json => "json"

/-- The line of a token: its place, its class and its text. -/
def Token.listed (token : Token) : String :=
  token.position.text ++ "\t" ++ token.kind.title ++ "\t" ++ token.text

/-- The line of a symbol: name, type, scope, line and, if the initializer is a
literal, its text. -/
def Symbol.listed (symbol : Symbol) : String :=
  symbol.name ++ "\t" ++ symbol.ty.name ++ "\tscope " ++
    Scope.label symbol.scope ++ "\tline " ++ symbol.line.repr ++
    match symbol.literal with
    | none => ""
    | some text => "\t= " ++ text

/-- Items on lines of their own. -/
def listing (items : List String) : String :=
  String.join (items.map fun item => item ++ "\n")

namespace Compilation

/-- The listing of a compilation; the formats of documents have none. -/
def listing (compilation : Compilation) : Format → String
  | .ir => ThreeAddress.listing (compilation.instructions.map Instruction.text)
  | .tokens => ThreeAddress.listing (compilation.tokens.map Token.listed)
  | .symbols =>
      ThreeAddress.listing (compilation.analysis.symbols.map Symbol.listed)
  | .diagnostics =>
      ThreeAddress.listing (compilation.analysis.diagnostics.map Diagnostic.text)
  | .ast | .json => ""

/-- The document of a compilation in the formats that have one. -/
def document? (compilation : Compilation) : Format → Option Json
  | .ast => some compilation.tree.toJson
  | .json => some compilation.toJson
  | _ => none

/-- The text of a compilation in a format: the indented document, ended by a
line feed, or the listing. -/
def render (compilation : Compilation) (format : Format) : String :=
  match compilation.document? format with
  | some document => document.pretty ++ "\n"
  | none => compilation.listing format

end Compilation

end ThreeAddress
