import ThreeAddress.Node

/-!
The walk through a tree as a sequence of steps.  A declaration comes before its
initializer, the target of an assignment before the value, an operator after
its operands, and all else from left to right.  A conditional statement is
entered before its condition and left after its body.
-/

namespace ThreeAddress

/-- What can be told of an operand where it stands: a name, a literal, or
neither. -/
inductive Operand where
  | name (text : String)
  | literal (text : String)
  | other
deriving DecidableEq, Repr

def Node.operand : Node → Operand
  | .identifier text _ => .name text
  | .literal text _ => .literal text
  | _ => .other

inductive Step where
  /-- Declare a name.  The initializer, if any, comes next; `literal` is its
  text if it is a literal. -/
  | declare (name : String) (ty : Ty) (line : Nat) (initialized : Bool)
      (literal : Option String)
  /-- Assign to a name.  The value, if any, comes next; `literal` is its text
  if it is a literal. -/
  | assign (name : String) (line : Nat) (literal : Option String)
  /-- Use the value of a name. -/
  | use (name : String) (line : Nat)
  /-- Apply an operator to operands that have been walked through. -/
  | apply (operator : Operator) (left right : Operand) (line : Nat)
  /-- Enter a conditional statement. -/
  | enter (form : Conditional)
  /-- Leave a conditional statement. -/
  | leave
deriving DecidableEq, Repr

namespace Node

mutual

def walk : Node → List Step
  | compound _ statements _ => walkAll statements
  | declaration ty name initializer position =>
      .declare name.text ty (declaration ty name initializer position).line
          initializer.isSome (initializer.bind literalText?) ::
        walkOption initializer
  | assignment target value position =>
      .assign target.text (assignment target value position).line
          (value.bind literalText?) ::
        walkOption value
  | conditional form condition body _ =>
      .enter form :: (walkOption condition ++ walkOption body ++ [.leave])
  | result value _ => walkOption value
  | binary operator left right position =>
      left.walk ++ right.walk ++
        [.apply operator left.operand right.operand
          (binary operator left right position).line]
  | identifier text position => [.use text (identifier text position).line]
  | literal .. => []

def walkAll : List Node → List Step
  | [] => []
  | node :: rest => node.walk ++ walkAll rest

def walkOption : Option Node → List Step
  | none => []
  | some node => node.walk

end

end Node

end ThreeAddress
