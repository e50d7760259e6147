import ThreeAddress.Operator
import ThreeAddress.Ty

/-!
What analysis reports.  A diagnostic is a problem on a line.  All problems but
one are errors; a variable that is never used is worth a warning only.
-/

namespace ThreeAddress

inductive Diagnostic.Kind where
  | redeclaration
  | undeclaredUse
  | useBeforeInit
  | typeMismatch
  | unusedVariable
deriving DecidableEq, Repr

namespace Diagnostic.Kind

/-- Unused variables are warnings, all else are errors. -/
def isWarning : Kind → Bool
  | unusedVariable => true
  | _ => false

def name : Kind → String
  | redeclaration => "Redeclaration"
  | undeclaredUse => "UndeclaredUse"
  | useBeforeInit => "UseBeforeInit"
  | typeMismatch => "TypeMismatch"
  | unusedVariable => "UnusedVariable"

/-- The written form of a problem of this kind.  A warning does not tell its
line. -/
def render (kind : Kind) (line : Nat) (message : String) : String :=
  if kind.isWarning then "Warning: " ++ message
  else "Line " ++ line.repr ++ ": " ++ message

end Diagnostic.Kind

inductive Problem where
  /-- A declaration of a name that the scope has already, first declared on the
  given line. -/
  | redeclared (name : String) (first : Nat)
  /-- An assignment to a name that is not declared. -/
  | assignedUndeclared (name : String)
  /-- A name that is not declared where its value is needed. -/
  | undeclared (name : String)
  /-- A name that has no value yet where its value is needed. -/
  | uninitialized (name : String)
  /-- A literal that does not fit the variable to which it is assigned. -/
  | assignmentMismatch (assigned : Ty) (name : String) (declared : Ty)
  /-- An operator that cannot be applied to its operands. -/
  | operandMismatch (operator : Operator) (left right : Ty)
  /-- A variable, declared on the given line, that nothing uses. -/
  | unused (name : String) (line : Nat)
deriving DecidableEq, Repr

namespace Problem

def kind : Problem → Diagnostic.Kind
  | redeclared .. => .redeclaration
  | assignedUndeclared _ => .undeclaredUse
  | undeclared _ => .undeclaredUse
  | uninitialized _ => .useBeforeInit
  | assignmentMismatch .. => .typeMismatch
  | operandMismatch .. => .typeMismatch
  | unused .. => .unusedVariable

def message : Problem → String
  | redeclared name first =>
      "Variable '" ++ name ++
        "' already declared in this scope (first declared at line " ++
        first.repr ++ ")"
  | assignedUndeclared name =>
      "Variable '" ++ name ++ "' used before declaration"
  | undeclared name => "Undeclared variable '" ++ name ++ "'"
  | uninitialized name =>
      "Variable '" ++ name ++ "' used before initialization"
  | assignmentMismatch assigned name declared =>
      "Type mismatch: cannot assign " ++ assigned.name ++ " to variable '" ++
        name ++ "' of type " ++ declared.name
  | operandMismatch operator left right =>
      "Type mismatch: operator '" ++ operator.symbol ++
        "' cannot be applied to " ++ left.name ++ " and " ++ right.name
  | unused name line =>
      "Variable '" ++ name ++ "' declared at line " ++ line.repr ++
        " is never used"

end Problem

/-- A problem and the line that it is reported on. -/
structure Diagnostic where
  problem : Problem
  line : Nat
deriving DecidableEq, Repr

namespace Diagnostic

def kind (diagnostic : Diagnostic) : Kind :=
  diagnostic.problem.kind

def isWarning (diagnostic : Diagnostic) : Bool :=
  diagnostic.kind.isWarning

def text (diagnostic : Diagnostic) : String :=
  diagnostic.kind.render diagnostic.line diagnostic.problem.message

end Diagnostic

end ThreeAddress
