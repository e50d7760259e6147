import Mathlib.Logic.Function.Basic
import ThreeAddress.Proofs.Vocabulary

/-!
What trees and code mean.  Both work on a store of named values; values,
literals, operators and the effect of a declaration are left open.  A tree is
evaluated directly, while code is carried out one instruction after another and
tells names from literals by the text of its operands alone.
-/

namespace ThreeAddress

universe u

/-- A store: a value for every name. -/
abbrev Valuation (V : Type u) := String → V

/-- A meaning of programs over some domain of values. -/
structure Meaning (V : Type u) where
  /-- The value of a literal, by its text. -/
  literal : String → V
  /-- The value of an operator applied to two values. -/
  apply : Operator → V → V → V
  /-- What the declaration of a name makes of the value that it has; the first
  text is the name of the type. -/
  declare : String → String → V → V
  /-- The value that is assigned where there is none to assign. -/
  missing : V

variable {V : Type u}

namespace Node

def value (meaning : Meaning V) (store : Valuation V) : Node → V
  | binary operator left right _ =>
      meaning.apply operator (left.value meaning store)
        (right.value meaning store)
  | identifier text _ => store text
  | literal text _ => meaning.literal text
  | _ => meaning.missing

/-- The value of an expression that may be absent. -/
def valueOption (meaning : Meaning V) (store : Valuation V) :
    Option Node → V
  | none => meaning.missing
  | some node => node.value meaning store

/-- What a statement without a condition makes of a store.  A name is declared
before its initializer is evaluated; a return statement changes nothing. -/
def perform (meaning : Meaning V) (store : Valuation V) :
    Node → Valuation V
  | declaration ty name initializer _ =>
      let declared := Function.update store name.text
        (meaning.declare ty.name name.text (store name.text))
      match initializer with
      | none => declared
      | some node =>
          Function.update declared name.text (node.value meaning declared)
  | assignment target value _ =>
      Function.update store target.text (valueOption meaning store value)
  | _ => store

/-- What the statements of a program make of a store, from left to right. -/
def evaluate (meaning : Meaning V) (root : Node) (store : Valuation V) :
    Valuation V :=
  root.statements.foldl (perform meaning) store

end Node

namespace Meaning

/-- The value of an operand: a name is looked up, anything else is a literal. -/
def read (meaning : Meaning V) (store : Valuation V) : Option String → V
  | none => meaning.missing
  | some text => if isName text then store text else meaning.literal text

/-- The value that an instruction writes to its result. -/
def compute (meaning : Meaning V) (store : Valuation V)
    (instruction : Instruction) (result : String) : V :=
  match instruction.opcode with
  | .declare =>
      meaning.declare (instruction.operand1.getD "") result (store result)
  | .assign => meaning.read store instruction.operand1
  | .binary operator =>
      meaning.apply operator (meaning.read store instruction.operand1)
        (meaning.read store instruction.operand2)

def step (meaning : Meaning V) (store : Valuation V)
    (instruction : Instruction) : Valuation V :=
  match instruction.result with
  | none => store
  | some result =>
      Function.update store result (meaning.compute store instruction result)

def run (meaning : Meaning V) (code : List Instruction)
    (store : Valuation V) : Valuation V :=
  code.foldl meaning.step store

@[simp] theorem run_nil (meaning : Meaning V) (store : Valuation V) :
    meaning.run [] store = store :=
  rfl

@[simp] theorem run_append (meaning : Meaning V)
    (first second : List Instruction) (store : Valuation V) :
    meaning.run (first ++ second) store =
      meaning.run second (meaning.run first store) :=
  List.foldl_append

@[simp] theorem run_declare (meaning : Meaning V) (ty : Ty) (name : String)
    (rest : List Instruction) (store : Valuation V) :
    meaning.run (Instruction.declare ty name :: rest) store =
      meaning.run rest (Function.update store name
        (meaning.declare ty.name name (store name))) :=
  rfl

@[simp] theorem run_assign (meaning : Meaning V) (value : Option String)
    (target : String) (store : Valuation V) :
    meaning.run [Instruction.assign value target] store =
      Function.update store target (meaning.read store value) :=
  rfl

@[simp] theorem run_binary (meaning : Meaning V) (operator : Operator)
    (left right target : String) (store : Valuation V) :
    meaning.run [Instruction.binary operator left right target] store =
      Function.update store target (meaning.apply operator
        (meaning.read store (some left)) (meaning.read store (some right))) :=
  rfl

end Meaning

end ThreeAddress
