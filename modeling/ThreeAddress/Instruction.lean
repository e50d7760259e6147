import ThreeAddress.Operator
import ThreeAddress.Ty

/-!
Three-address code: straight-line instructions without labels and jumps.
Operands and results are written as text, names and literals alike.
-/

namespace ThreeAddress

/-- What an instruction does: declare a name, assign to it, or apply an
operator. -/
inductive Opcode where
  | declare
  | assign
  | binary (operator : Operator)
deriving DecidableEq, Repr

def Opcode.mnemonic : Opcode → String
  | declare => "DECLARE"
  | assign => "ASSIGN"
  | binary operator => operator.symbol

/-- An instruction with up to two operands and a result. -/
structure Instruction where
  opcode : Opcode
  operand1 : Option String
  operand2 : Option String
  result : Option String
deriving DecidableEq, Repr

namespace Instruction

def declare (ty : Ty) (name : String) : Instruction :=
  ⟨.declare, some ty.name, none, some name⟩

/-- Assign a value, which may be missing, to a name. -/
def assign (value : Option String) (target : String) : Instruction :=
  ⟨.assign, value, none, some target⟩

def binary (operator : Operator) (left right result : String) : Instruction :=
  ⟨.binary operator, some left, some right, some result⟩

/-- The written form, with `_` for what is missing. -/
def text (instruction : Instruction) : String :=
  let operand1 := instruction.operand1.getD "_"
  let operand2 := instruction.operand2.getD "_"
  let result := instruction.result.getD "_"
  match instruction.opcode with
  | .declare => "DECLARE " ++ operand1 ++ " " ++ result
  | .assign => result ++ " = " ++ operand1
  | .binary operator =>
      result ++ " = " ++ operand1 ++ " " ++ operator.symbol ++ " " ++ operand2

end Instruction

end ThreeAddress
