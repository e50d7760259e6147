/-!
Types of values.  A type is read off a declaration's keyword or off the text of
a literal; two types are compatible when values of them may meet.
-/

namespace ThreeAddress

/-- The types.  `unknown` stands where no type can be told, as for a nested
expression or an undeclared name. -/
inductive Ty where
  | int
  | float
  | double
  | char
  | string
  | bool
  | unknown
deriving DecidableEq, Repr

namespace Ty

def ofKeyword? : String → Option Ty
  | "int" => some .int
  | "float" => some .float
  | "double" => some .double
  | "char" => some .char
  | _ => none

def name : Ty → String
  | .int => "int"
  | .float => "float"
  | .double => "double"
  | .char => "char"
  | .string => "string"
  | .bool => "bool"
  | .unknown => "unknown"

def isNumeric : Ty → Bool
  | .int | .float | .double => true
  | _ => false

/-- The types on which arithmetic is done. -/
def isArithmetic (ty : Ty) : Bool :=
  ty.isNumeric || ty == .char

/-- Values of the two types may meet: the types are equal, both are numeric, or
one is `char` and the other `int`. -/
def compatible (first second : Ty) : Bool :=
  first == second || (first.isNumeric && second.isNumeric) ||
    (first == .char && second == .int) || (first == .int && second == .char)

def isDigits (text : List Char) : Bool :=
  !text.isEmpty && text.all Char.isDigit

/-- Digits, a dot and digits. -/
def isDecimal (text : List Char) : Bool :=
  match text.dropWhile (· != '.') with
  | [] => false
  | _ :: fraction => isDigits (text.takeWhile (· != '.')) && isDigits fraction

/-- The type of a literal, told from its text.  A text between single quotes
needs at least one character there; `1.` and `1.2.3` are no numbers. -/
def ofLiteral (literal : String) : Ty :=
  let text := literal.toList
  if literal = "true" ∨ literal = "false" then .bool
  else if text.head? = some '"' then .string
  else if 3 ≤ text.length ∧ text.head? = some '\'' ∧ text.getLast? = some '\''
    then .char
  else if isDigits text then .int
  else if isDecimal text then .float
  else .unknown

end Ty

end ThreeAddress
