import ThreeAddress.Instruction
import ThreeAddress.Node

/-!
From a tree to three-address code.  Identifiers and literals are operands as
they stand; every application of an operator goes into a temporary of its own.
Conditional statements lower to the code of their parts, without control flow.
-/

namespace ThreeAddress

def temporary (number : Nat) : String := "t" ++ number.repr

/-- What a tree lowers to: the operand that holds its value, if it has one, the
code that comes before, and the number of the next temporary. -/
structure Lowered where
  operand : Option String
  code : List Instruction
  next : Nat
deriving DecidableEq, Repr

namespace Node

mutual

/-- Lower a tree, of which the first temporary has the given number. -/
def lower : Node → (next : Nat) → Lowered
  | compound _ statements _, next => lowerAll statements next
  | declaration ty name initializer _, next =>
      let value := lowerOption initializer next
      let assigned :=
        if initializer.isSome then
          value.code ++ [Instruction.assign value.operand name.text]
        else []
      ⟨none, Instruction.declare ty name.text :: assigned, value.next⟩
  | assignment target content _, next =>
      let value := lowerOption content next
      ⟨none, value.code ++ [Instruction.assign value.operand target.text],
        value.next⟩
  | conditional _ condition body _, next =>
      let first := lowerOption condition next
      let second := lowerOption body first.next
      ⟨none, first.code ++ second.code, second.next⟩
  | result content _, next =>
      let value := lowerOption content next
      ⟨none, value.code, value.next⟩
  | binary operator left right _, next =>
      let first := left.lower next
      let second := right.lower first.next
      let target := temporary second.next
      ⟨some target,
        first.code ++ second.code ++
          [Instruction.binary operator (first.operand.getD "")
            (second.operand.getD "") target],
        second.next + 1⟩
  | identifier text _, next => ⟨some text, [], next⟩
  | literal text _, next => ⟨some text, [], next⟩

def lowerAll : List Node → (next : Nat) → Lowered
  | [], next => ⟨none, [], next⟩
  | node :: rest, next =>
      let first := node.lower next
      let others := lowerAll rest first.next
      ⟨none, first.code ++ others.code, others.next⟩

def lowerOption : Option Node → (next : Nat) → Lowered
  | none, next => ⟨none, [], next⟩
  | some node, next => node.lower next

end

end Node

def generate (root : Node) : List Instruction :=
  (root.lower 0).code

/-- A reusable generator: the number of the next temporary, and the code
gathered so far. -/
structure Generator where
  next : Nat := 0
  buffer : List Instruction := []
deriving Repr

namespace Generator

/-- Start the temporaries again and drop what has been gathered. -/
def reset (generator : Generator) : Generator :=
  { generator with next := 0, buffer := [] }

def gather (generator : Generator) (root : Node) : Generator :=
  let lowered := root.lower generator.next
  { generator with
    next := lowered.next
    buffer := generator.buffer ++ lowered.code }

/-- Lower a tree, whatever an earlier run has left, and hand the code over. -/
def generate (generator : Generator) (root : Node) :
    List Instruction × Generator :=
  let filled := generator.reset.gather root
  (filled.buffer, { filled with buffer := [] })

end Generator

end ThreeAddress
