import ThreeAddress.Compilation
import ThreeAddress.Json

/-!
The JSON documents of a compilation and of its parts.  A member that has no
value is left out, except that the global scope has the parent `null`.
-/

namespace ThreeAddress

def Position.toJson (position : Position) : Json :=
  .obj [("line", .num position.line), ("column", .num position.column)]

def Token.toJson (token : Token) : Json :=
  .obj [("type", .str token.kind.name), ("value", .str token.text),
    ("line", .num token.position.line), ("column", .num token.position.column)]

/-- The document of a node with the given tag, value, children and place. -/
def nodeDocument (tag : String) (value : Option String) (children : List Json)
    (position : Option Position) : Json :=
  .obj (("type", .str tag) ::
    (Json.optional "value" (value.map .str) ++
      Json.optional "children"
        (if children.isEmpty then none else some (.arr children)) ++
      Json.optional "position" (position.map Position.toJson)))

/-- The document of a name is that of an identifier. -/
def Name.toJson (name : Name) : Json :=
  nodeDocument "Identifier" (some name.text) [] name.position

namespace Node

mutual

/-- The document of a tree.  The name of a declaration or an assignment comes
first among its children. -/
def toJson : Node → Json
  | compound form statements position =>
      nodeDocument (compound form statements position).tag none
        (toJsonAll statements) position
  | declaration ty name initializer position =>
      nodeDocument (declaration ty name initializer position).tag
        (some ty.name) (name.toJson :: toJsonOption initializer) position
  | assignment target value position =>
      nodeDocument (assignment target value position).tag (some "=")
        (target.toJson :: toJsonOption value) position
  | conditional form condition body position =>
      nodeDocument (conditional form condition body position).tag none
        (toJsonOption condition ++ toJsonOption body) position
  | result value position =>
      nodeDocument (result value position).tag none (toJsonOption value)
        position
  | binary operator left right position =>
      nodeDocument (binary operator left right position).tag
        (some operator.symbol) [left.toJson, right.toJson] position
  | identifier text position =>
      nodeDocument (identifier text position).tag (some text) [] position
  | literal text position =>
      nodeDocument (literal text position).tag (some text) [] position

def toJsonAll : List Node → List Json
  | [] => []
  | node :: rest => node.toJson :: toJsonAll rest

def toJsonOption : Option Node → List Json
  | none => []
  | some node => [node.toJson]

end

end Node

def Symbol.toJson (symbol : Symbol) : Json :=
  .obj ([("name", .str symbol.name), ("type", .str symbol.ty.name),
    ("scope", .num symbol.scope), ("line", .num symbol.line)] ++
    Json.optional "value" (symbol.literal.map .str))

def Scope.toJson (scope : Scope) : Json :=
  .obj [("id", .num scope.id),
    ("parent", (scope.parent.map .num).getD .null),
    ("kind", .str scope.kind.name)]

def Instruction.toJson (instruction : Instruction) : Json :=
  .obj (("operation", .str instruction.opcode.mnemonic) ::
    (Json.optional "operand1" (instruction.operand1.map .str) ++
      Json.optional "operand2" (instruction.operand2.map .str) ++
      Json.optional "result" (instruction.result.map .str)))

def Compilation.toJson (compilation : Compilation) : Json :=
  .obj [("tokens", .arr (compilation.tokens.map Token.toJson)),
    ("ast", compilation.tree.toJson),
    ("symbols", .arr (compilation.analysis.symbols.map Symbol.toJson)),
    ("diagnostics",
      .arr (compilation.analysis.diagnostics.map fun diagnostic =>
        .str diagnostic.text)),
    ("scopes", .arr (compilation.analysis.scopes.map Scope.toJson)),
    ("instructions", .arr (compilation.instructions.map Instruction.toJson))]

end ThreeAddress
