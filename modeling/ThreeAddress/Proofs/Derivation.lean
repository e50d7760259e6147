import ThreeAddress.Proofs.Cursor

/-!
Derivations of the grammar.  A derivation is a tree of its own: it says which
rule was used where and at which positions the tokens stand, parentheses,
signs and semicolons included.  From it are read off the tokens that it
derives, the node that it stands for, and how much of the two limits it uses.
-/

namespace ThreeAddress

namespace Derivation

/-- The signs of one binary level, each with the operator that it stands
for. -/
abbrev Signs := List (String × Operator)

/-- The binary levels of the grammar, the loosest first. -/
def levels : List Signs :=
  [[("||", .or)],
    [("&&", .and)],
    [("==", .eq), ("!=", .ne), ("<", .lt), (">", .gt), ("<=", .le),
      (">=", .ge)],
    [("+", .add), ("-", .sub)],
    [("*", .mul), ("/", .div), ("%", .rem)]]

mutual

/-- An expression in which the given levels may stand outside of parentheses.
Above a level there is a first operand and any number of links; below all
levels there is a primary expression. -/
inductive Phrase : List Signs → Type where
  | literal (text : String) (position : Position) : Phrase []
  | identifier (text : String) (position : Position) : Phrase []
  | group (opening : Position) (inner : Phrase levels) (closing : Position) :
      Phrase []
  | join {signs : Signs} {tighter : List Signs} (first : Phrase tighter)
      (links : Links signs tighter) : Phrase (signs :: tighter)

/-- The signs that follow the first operand of a level, each with the operand
on its right. -/
inductive Links : Signs → List Signs → Type where
  | done {signs : Signs} {tighter : List Signs} : Links signs tighter
  | link {signs : Signs} {tighter : List Signs} (sign : String)
      (operator : Operator) (hsign : (sign, operator) ∈ signs)
      (position : Position) (right : Phrase tighter)
      (rest : Links signs tighter) : Links signs tighter

end

abbrev Expression := Phrase levels

mutual

def Phrase.tokens {levels : List Signs} : Phrase levels → List Token
  | .literal text position => [⟨.literal, text, position⟩]
  | .identifier text position => [⟨.identifier, text, position⟩]
  | .group opening inner closing =>
      ⟨.delimiter, "(", opening⟩ ::
        (inner.tokens ++ [⟨.delimiter, ")", closing⟩])
  | .join first links => first.tokens ++ links.tokens

def Links.tokens {signs : Signs} {tighter : List Signs} :
    Links signs tighter → List Token
  | .done => []
  | .link sign _ _ position right rest =>
      ⟨.operator, sign, position⟩ :: (right.tokens ++ rest.tokens)

end

mutual

/-- The node of an expression.  Parentheses leave no node. -/
def Phrase.node {levels : List Signs} : Phrase levels → Node
  | .literal text position => .literal text (some position)
  | .identifier text position => .identifier text (some position)
  | .group _ inner _ => inner.node
  | .join first links => links.node first.node

/-- The node of a level, of which `left` is the node so far: each link takes
all that stands on its left as the left operand. -/
def Links.node {signs : Signs} {tighter : List Signs} :
    Links signs tighter → (left : Node) → Node
  | .done, left => left
  | .link _ operator _ position right rest, left =>
      rest.node (.binary operator left right.node (some position))

end

mutual

/-- The number of operators and of pairs of parentheses in an expression. -/
def Phrase.size {levels : List Signs} : Phrase levels → Nat
  | .literal .. => 0
  | .identifier .. => 0
  | .group _ inner _ => inner.size + 1
  | .join first links => first.size + links.size

def Links.size {signs : Signs} {tighter : List Signs} :
    Links signs tighter → Nat
  | .done => 0
  | .link _ _ _ _ right rest => right.size + rest.size + 1

end

mutual

inductive Statement where
  | declaration (ty : Ty) (hty : ty ∈ Ty.declarable) (keyword : Position)
      (name : String) (place : Position)
      (initializer : Option (Position × Expression)) (semicolon : Position)
  | assignment (target : String) (place sign : Position) (value : Expression)
      (semicolon : Position)
  | conditional (form : Conditional) (keyword opening : Position)
      (condition : Expression) (closing : Position) (body : Body)
  | result (keyword : Position) (value : Option Expression)
      (semicolon : Position)

/-- The body of a conditional statement: statements in braces, or a single
one. -/
inductive Body where
  | block (opening : Position) (statements : List Statement)
      (closing : Position)
  | single (statement : Statement)

end

mutual

def Statement.tokens : Statement → List Token
  | .declaration ty _ keyword name place initializer semicolon =>
      ⟨.keyword, ty.name, keyword⟩ :: ⟨.identifier, name, place⟩ ::
        ((match initializer with
          | none => []
          | some (sign, value) => ⟨.operator, "=", sign⟩ :: value.tokens) ++
          [⟨.delimiter, ";", semicolon⟩])
  | .assignment target place sign value semicolon =>
      ⟨.identifier, target, place⟩ :: ⟨.operator, "=", sign⟩ ::
        (value.tokens ++ [⟨.delimiter, ";", semicolon⟩])
  | .conditional form place opening condition closing body =>
      ⟨.keyword, form.keyword, place⟩ :: ⟨.delimiter, "(", opening⟩ ::
        (condition.tokens ++ ⟨.delimiter, ")", closing⟩ :: body.tokens)
  | .result keyword value semicolon =>
      ⟨.keyword, "return", keyword⟩ ::
        ((match value with
          | none => []
          | some value => value.tokens) ++ [⟨.delimiter, ";", semicolon⟩])

def Body.tokens : Body → List Token
  | .block opening statements closing =>
      ⟨.delimiter, "\x7b", opening⟩ ::
        (tokensAll statements ++ [⟨.delimiter, "\x7d", closing⟩])
  | .single statement => statement.tokens

def tokensAll : List Statement → List Token
  | [] => []
  | statement :: rest => statement.tokens ++ tokensAll rest

end

mutual

def Statement.node : Statement → Node
  | .declaration ty _ keyword name place initializer _ =>
      .declaration ty ⟨name, some place⟩
        (initializer.map fun located => located.2.node) (some keyword)
  | .assignment target place _ value _ =>
      .assignment ⟨target, some place⟩ (some value.node) (some place)
  | .conditional form keyword _ condition _ body =>
      .conditional form (some condition.node) (some body.node) (some keyword)
  | .result keyword value _ => .result (value.map Phrase.node) (some keyword)

def Body.node : Body → Node
  | .block opening statements _ =>
      .compound .block (nodes statements) (some opening)
  | .single statement => statement.node

def nodes : List Statement → List Node
  | [] => []
  | statement :: rest => statement.node :: nodes rest

end

mutual

/-- How many conditional statements stand inside each other at most; the
innermost of them is nested in one body less. -/
def Statement.nesting : Statement → Nat
  | .declaration .. => 0
  | .assignment .. => 0
  | .conditional _ _ _ _ _ body => body.nesting + 1
  | .result .. => 0

def Body.nesting : Body → Nat
  | .block _ statements _ => nestingAll statements
  | .single statement => statement.nesting

def nestingAll : List Statement → Nat
  | [] => 0
  | statement :: rest => max statement.nesting (nestingAll rest)

end

mutual

/-- The size of the largest complete expression in a statement. -/
def Statement.width : Statement → Nat
  | .declaration _ _ _ _ _ initializer _ =>
      match initializer with
      | none => 0
      | some (_, value) => value.size
  | .assignment _ _ _ value _ => value.size
  | .conditional _ _ _ condition _ body => max condition.size body.width
  | .result _ value _ =>
      match value with
      | none => 0
      | some value => value.size

def Body.width : Body → Nat
  | .block _ statements _ => widthAll statements
  | .single statement => statement.width

def widthAll : List Statement → Nat
  | [] => 0
  | statement :: rest => max statement.width (widthAll rest)

end

end Derivation

end ThreeAddress
