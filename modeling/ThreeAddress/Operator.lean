/-!
The binary operators of expressions, their symbols and their levels of
precedence.
-/

namespace ThreeAddress

inductive Operator where
  | add
  | sub
  | mul
  | div
  | rem
  | eq
  | ne
  | lt
  | gt
  | le
  | ge
  | and
  | or
deriving DecidableEq, Repr

namespace Operator

def symbol : Operator → String
  | .add => "+"
  | .sub => "-"
  | .mul => "*"
  | .div => "/"
  | .rem => "%"
  | .eq => "=="
  | .ne => "!="
  | .lt => "<"
  | .gt => ">"
  | .le => "<="
  | .ge => ">="
  | .and => "&&"
  | .or => "||"

def all : List Operator :=
  [.add, .sub, .mul, .div, .rem, .eq, .ne, .lt, .gt, .le, .ge, .and, .or]

def ofSymbol? (symbol : String) : Option Operator :=
  all.find? fun operator => operator.symbol == symbol

/-- An operator is arithmetic, a comparison or logical. -/
inductive Family where
  | arithmetic
  | comparison
  | logical
deriving DecidableEq, Repr

def family : Operator → Family
  | .add | .sub | .mul | .div | .rem => .arithmetic
  | .eq | .ne | .lt | .gt | .le | .ge => .comparison
  | .and | .or => .logical

/-- The levels of precedence, the loosest first. -/
def levels : List (List Operator) :=
  [[.or], [.and], [.eq, .ne, .lt, .gt, .le, .ge], [.add, .sub],
    [.mul, .div, .rem]]

end Operator

end ThreeAddress
