import ThreeAddress.Analysis.Walk
import ThreeAddress.Diagnostic
import ThreeAddress.Symbol.Table

/-!
Analysis of a tree: which names are declared in which scopes, and what is wrong
with their use and with the types.  Nothing stops the analysis; it goes through
the steps of the walk and reports what it meets, and in the end adds a warning
for every symbol that has not been used.
-/

namespace ThreeAddress

structure Analysis where
  symbols : List Symbol
  diagnostics : List Diagnostic
  scopes : List Scope
deriving DecidableEq, Repr

namespace Analysis

def errors (analysis : Analysis) : List Diagnostic :=
  analysis.diagnostics.filter fun diagnostic => !diagnostic.isWarning

def warnings (analysis : Analysis) : List Diagnostic :=
  analysis.diagnostics.filter Diagnostic.isWarning

def hasErrors (analysis : Analysis) : Bool :=
  !analysis.errors.isEmpty

def hasWarnings (analysis : Analysis) : Bool :=
  !analysis.warnings.isEmpty

end Analysis

/-- Whether an operator may be applied to operands of these types.  An unknown
type constrains its own side only: arithmetic still asks for the other operand
to be arithmetic, and a comparison is not checked.  Logical operators take
anything. -/
def Operator.accepts (operator : Operator) (left right : Ty) : Bool :=
  match operator.family with
  | .arithmetic =>
      (left == .unknown || left.isArithmetic) &&
        (right == .unknown || right.isArithmetic)
  | .comparison =>
      left == .unknown || right == .unknown || left.compatible right
  | .logical => true

/-- A reusable analyzer: the table as it stands, and what has been reported. -/
structure Analyzer where
  table : SymbolTable := SymbolTable.start
  diagnostics : List Diagnostic := []
deriving Repr

namespace Analyzer

def reset (analyzer : Analyzer) : Analyzer :=
  { analyzer with table := analyzer.table.reset, diagnostics := [] }

def report (analyzer : Analyzer) (line : Nat) (problem : Problem) : Analyzer :=
  { analyzer with diagnostics := analyzer.diagnostics ++ [⟨problem, line⟩] }

def update (analyzer : Analyzer) (change : SymbolTable → SymbolTable) :
    Analyzer :=
  { analyzer with table := change analyzer.table }

/-- The type of an operand: the declared type of a name, the type that a
literal's text tells. -/
def operandType (analyzer : Analyzer) : Operand → Ty
  | .name text =>
      ((analyzer.table.resolve text).map analyzer.table.typeOf).getD .unknown
  | .literal text => Ty.ofLiteral text
  | .other => .unknown

/-- A declaration adds a symbol, unless the current scope has one of that
name. -/
def declare (analyzer : Analyzer) (name : String) (ty : Ty) (line : Nat)
    (initialized : Bool) (literal : Option String) : Analyzer :=
  let first :=
    (analyzer.table.lookupLocal name).bind fun id => analyzer.table.symbols[id]?
  match first with
  | some symbol => analyzer.report line (.redeclared name symbol.line)
  | none =>
      analyzer.update fun table =>
        table.declare ⟨name, ty, table.current, line, literal⟩ initialized

/-- The type of an assigned literal has to be compatible with that of the
symbol. -/
def checkAssigned (analyzer : Analyzer) (name : String) (line id : Nat)
    (literal : Option String) : Analyzer :=
  match literal with
  | none => analyzer
  | some text =>
      let declared := analyzer.table.typeOf id
      let assigned := Ty.ofLiteral text
      if declared.compatible assigned then analyzer
      else analyzer.report line (.assignmentMismatch assigned name declared)

/-- An assignment uses its target and gives it a value. -/
def assign (analyzer : Analyzer) (name : String) (line : Nat)
    (literal : Option String) : Analyzer :=
  match analyzer.table.resolve name with
  | none => analyzer.report line (.assignedUndeclared name)
  | some id =>
      (analyzer.update fun table =>
        (table.markUsed id).markInitialized id).checkAssigned name line id
          literal

/-- A name is used when it has a value. -/
def use (analyzer : Analyzer) (name : String) (line : Nat) : Analyzer :=
  match analyzer.table.resolve name with
  | none => analyzer.report line (.undeclared name)
  | some id =>
      if analyzer.table.isInitialized id then
        analyzer.update fun table => table.markUsed id
      else analyzer.report line (.uninitialized name)

/-- An operator has to accept the types of its operands. -/
def apply (analyzer : Analyzer) (operator : Operator) (left right : Operand)
    (line : Nat) : Analyzer :=
  let leftType := analyzer.operandType left
  let rightType := analyzer.operandType right
  if operator.accepts leftType rightType then analyzer
  else analyzer.report line (.operandMismatch operator leftType rightType)

def step (analyzer : Analyzer) : Step → Analyzer
  | .declare name ty line initialized literal =>
      analyzer.declare name ty line initialized literal
  | .assign name line literal => analyzer.assign name line literal
  | .use name line => analyzer.use name line
  | .apply operator left right line => analyzer.apply operator left right line
  | .enter form => analyzer.update fun table => table.push (.conditional form)
  | .leave => analyzer.update SymbolTable.pop

def run (analyzer : Analyzer) (steps : List Step) : Analyzer :=
  steps.foldl step analyzer

/-- A warning for each symbol that has not been used, in order of
declaration. -/
def unused (analyzer : Analyzer) : List Diagnostic :=
  (analyzer.table.history.filter fun entry => !entry.2.used).map fun entry =>
    ⟨.unused entry.1.name entry.1.line, entry.1.line⟩

def outcome (analyzer : Analyzer) : Analysis :=
  ⟨analyzer.table.symbols, analyzer.diagnostics ++ analyzer.unused,
    analyzer.table.scopes⟩

/-- Analyze a tree, whatever an earlier run has left, and hand the outcome
over. -/
def analyze (analyzer : Analyzer) (root : Node) : Analysis × Analyzer :=
  let last := analyzer.reset.run root.walk
  (last.outcome, last.reset)

end Analyzer

def analyze (root : Node) : Analysis :=
  (({} : Analyzer).run root.walk).outcome

end ThreeAddress
