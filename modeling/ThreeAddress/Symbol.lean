import ThreeAddress.Node

/-!
Scopes and the symbols declared in them.  The numbers of scopes have no bound;
those that are kept in words of 32 bits are the same below `2 ^ 32` only.
-/

namespace ThreeAddress

/-- What opens a scope: the program as a whole, or a conditional statement. -/
inductive Scope.Kind where
  | global
  | conditional (form : Conditional)
deriving DecidableEq, Repr

def Scope.Kind.name : Scope.Kind → String
  | .global => "global"
  | .conditional .ifThen => "if"
  | .conditional .whileLoop => "while"

/-- A scope: its number, the number of the scope around it, what opened it, and
the numbers of the symbols declared directly in it, in order of declaration. -/
structure Scope where
  id : Nat
  parent : Option Nat
  kind : Scope.Kind
  symbols : List Nat
deriving DecidableEq, Repr

/-- The global scope before anything is declared. -/
def Scope.global : Scope := ⟨0, none, .global, []⟩

def Scope.label (id : Nat) : String := "#" ++ id.repr

/-- A declared name: its type, the scope that owns it, the line of its
declaration, and the text of its initializer if that is a literal. -/
structure Symbol where
  name : String
  ty : Ty
  scope : Nat
  line : Nat
  literal : Option String
deriving DecidableEq, Repr

/-- What has happened to a symbol so far. -/
structure Usage where
  used : Bool
  initialized : Bool
deriving DecidableEq, Repr

end ThreeAddress
