import ThreeAddress.Operator
import ThreeAddress.Position
import ThreeAddress.Ty

/-!
The tree of a program.  One type serves for statements and expressions, and any
node may stand at any place; a part that the source lacks is `none`.  A node
has the position of the token that it was read from, if it was read from one.
-/

namespace ThreeAddress

/-- A name as it is written, with its place. -/
structure Name where
  text : String
  position : Option Position
deriving DecidableEq, Repr

/-- The two nodes that list statements: the whole program and a block in
braces. -/
inductive Compound where
  | program
  | block
deriving DecidableEq, Repr

/-- The two statements with a condition and a body. -/
inductive Conditional where
  | ifThen
  | whileLoop
deriving DecidableEq, Repr

inductive Node where
  | compound (form : Compound) (statements : List Node)
      (position : Option Position)
  | declaration (ty : Ty) (name : Name) (initializer : Option Node)
      (position : Option Position)
  | assignment (target : Name) (value : Option Node)
      (position : Option Position)
  | conditional (form : Conditional) (condition body : Option Node)
      (position : Option Position)
  | result (value : Option Node) (position : Option Position)
  | binary (operator : Operator) (left right : Node)
      (position : Option Position)
  | identifier (text : String) (position : Option Position)
  | literal (text : String) (position : Option Position)
deriving Repr

namespace Node

def position : Node → Option Position
  | compound _ _ position => position
  | declaration _ _ _ position => position
  | assignment _ _ position => position
  | conditional _ _ _ position => position
  | result _ position => position
  | binary _ _ _ position => position
  | identifier _ position => position
  | literal _ position => position

/-- The line of a node, zero if it has no place. -/
def line (node : Node) : Nat :=
  match node.position with
  | none => 0
  | some position => position.line

/-- The name of a node's sort in documents. -/
def tag : Node → String
  | compound .program _ _ => "Program"
  | compound .block _ _ => "Block"
  | declaration .. => "Declaration"
  | assignment .. => "Assignment"
  | conditional .ifThen _ _ _ => "IfStatement"
  | conditional .whileLoop _ _ _ => "WhileStatement"
  | result .. => "ReturnStatement"
  | binary .. => "BinaryExpression"
  | identifier .. => "Identifier"
  | literal .. => "Literal"

/-- The statements that a program or a block lists. -/
def statements : Node → List Node
  | compound _ statements _ => statements
  | _ => []

/-- The nodes right below a node, in source order.  The names in declarations
and assignments are no nodes. -/
def children : Node → List Node
  | compound _ statements _ => statements
  | declaration _ _ initializer _ => initializer.toList
  | assignment _ value _ => value.toList
  | conditional _ condition body _ => condition.toList ++ body.toList
  | result value _ => value.toList
  | binary _ left right _ => [left, right]
  | identifier .. => []
  | literal .. => []

mutual

/-- A node and all nodes below it, each before its children and these from left
to right. -/
def preorder : Node → List Node
  | compound form statements position =>
      compound form statements position :: preorderAll statements
  | declaration ty name initializer position =>
      declaration ty name initializer position :: preorderOption initializer
  | assignment target value position =>
      assignment target value position :: preorderOption value
  | conditional form condition body position =>
      conditional form condition body position ::
        (preorderOption condition ++ preorderOption body)
  | result value position => result value position :: preorderOption value
  | binary operator left right position =>
      binary operator left right position :: (left.preorder ++ right.preorder)
  | identifier text position => [identifier text position]
  | literal text position => [literal text position]

def preorderAll : List Node → List Node
  | [] => []
  | node :: rest => node.preorder ++ preorderAll rest

def preorderOption : Option Node → List Node
  | none => []
  | some node => node.preorder

end

def literalText? : Node → Option String
  | literal text _ => some text
  | _ => none

end Node

end ThreeAddress
