import ThreeAddress.Symbol

/-!
The symbol table.  Scopes and symbols are numbered in the order in which they
come up, and are never removed; a stack tells which scopes are open.  Names are
looked up from the innermost open scope outwards.

The operations are total: one that is given the number of a missing symbol or
scope changes nothing there.  `SymbolTable.perform` is the checked interface,
which refuses such numbers.
-/

namespace ThreeAddress

/-- Scopes, symbols, what has happened to each symbol, and the numbers of the
open scopes with the innermost last. -/
structure SymbolTable where
  scopes : List Scope := []
  symbols : List Symbol := []
  usages : List Usage := []
  stack : List Nat := []
deriving DecidableEq, Repr

namespace SymbolTable

/-- A table with the global scope alone, which is open. -/
def start : SymbolTable :=
  { scopes := [Scope.global], stack := [0] }

def reset (table : SymbolTable) : SymbolTable :=
  { table with
    scopes := [Scope.global]
    symbols := []
    usages := []
    stack := [0] }

def current (table : SymbolTable) : Nat :=
  table.stack.getLast?.getD 0

def push (table : SymbolTable) (kind : Scope.Kind) : SymbolTable :=
  let id := table.scopes.length
  { table with
    scopes := table.scopes ++ [⟨id, some table.current, kind, []⟩]
    stack := table.stack ++ [id] }

/-- Close the current scope; the last open scope stays open. -/
def pop (table : SymbolTable) : SymbolTable :=
  if 1 < table.stack.length then { table with stack := table.stack.dropLast }
  else table

def isNamed (table : SymbolTable) (name : String) (id : Nat) : Bool :=
  table.symbols[id]?.any fun symbol => symbol.name == name

/-- The first symbol of that name in the given scope itself. -/
def findIn (table : SymbolTable) (name : String) (scope : Nat) : Option Nat :=
  table.scopes[scope]?.bind fun found =>
    found.symbols.find? (table.isNamed name)

/-- The first symbol of that name in the current scope itself. -/
def lookupLocal (table : SymbolTable) (name : String) : Option Nat :=
  table.findIn name table.current

/-- A scope and those around it, from the inside out, as far as `bound` of
them. -/
def enclosing (table : SymbolTable) : (bound : Nat) → (scope : Nat) → List Nat
  | 0, _ => []
  | bound + 1, scope =>
      scope ::
        match table.scopes[scope]?.bind Scope.parent with
        | none => []
        | some parent => table.enclosing bound parent

/-- The symbol that a name stands for: the first of that name in the innermost
scope that has one. -/
def resolve (table : SymbolTable) (name : String) : Option Nat :=
  (table.enclosing table.scopes.length table.current).findSome?
    (table.findIn name)

/-- Add a symbol to the scope that owns it.  Nothing is used at first. -/
def declare (table : SymbolTable) (symbol : Symbol) (initialized : Bool) :
    SymbolTable :=
  let id := table.symbols.length
  { table with
    scopes := table.scopes.modify symbol.scope fun scope =>
      { scope with symbols := scope.symbols ++ [id] }
    symbols := table.symbols ++ [symbol]
    usages := table.usages ++ [⟨false, initialized⟩] }

def markUsed (table : SymbolTable) (id : Nat) : SymbolTable :=
  { table with
    usages := table.usages.modify id fun usage => { usage with used := true } }

def markInitialized (table : SymbolTable) (id : Nat) : SymbolTable :=
  { table with
    usages := table.usages.modify id fun usage =>
      { usage with initialized := true } }

def isInitialized (table : SymbolTable) (id : Nat) : Bool :=
  table.usages[id]?.any Usage.initialized

def typeOf (table : SymbolTable) (id : Nat) : Ty :=
  (table.symbols[id]?.map Symbol.ty).getD .unknown

/-- The symbols with what has happened to them, in order of declaration. -/
def history (table : SymbolTable) : List (Symbol × Usage) :=
  table.symbols.zip table.usages

inductive Action where
  | reset
  | push (kind : Scope.Kind)
  | pop
  | declare (symbol : Symbol) (initialized : Bool)
  | lookupLocal (name : String)
  | resolve (name : String)
  | symbol (id : Nat)
  | usage (id : Nat)
  | markUsed (id : Nat)
  | markInitialized (id : Nat)
  | history
deriving DecidableEq, Repr

inductive Answer where
  | done
  | scope (id : Nat)
  | declared (id : Nat)
  | found (id : Option Nat)
  | symbol (symbol : Symbol)
  | usage (usage : Usage)
  | history (entries : List (Symbol × Usage))
deriving DecidableEq, Repr

/-- Why a table refuses a request: it has no such symbol, or no such scope. -/
inductive Missing where
  | symbol (id : Nat)
  | scope (id : Nat)
deriving DecidableEq, Repr

/-- Carry out a request, unless it names a symbol or a scope that the table
does not have. -/
def perform (table : SymbolTable) :
    Action → Except Missing (Answer × SymbolTable)
  | .reset => .ok (.done, table.reset)
  | .push kind => .ok (.scope table.scopes.length, table.push kind)
  | .pop => .ok (.done, table.pop)
  | .declare symbol initialized =>
      if symbol.scope < table.scopes.length then
        .ok (.declared table.symbols.length, table.declare symbol initialized)
      else .error (.scope symbol.scope)
  | .lookupLocal name => .ok (.found (table.lookupLocal name), table)
  | .resolve name => .ok (.found (table.resolve name), table)
  | .symbol id =>
      match table.symbols[id]? with
      | some symbol => .ok (.symbol symbol, table)
      | none => .error (.symbol id)
  | .usage id =>
      match table.usages[id]? with
      | some usage => .ok (.usage usage, table)
      | none => .error (.symbol id)
  | .markUsed id =>
      if id < table.usages.length then .ok (.done, table.markUsed id)
      else .error (.symbol id)
  | .markInitialized id =>
      if id < table.usages.length then .ok (.done, table.markInitialized id)
      else .error (.symbol id)
  | .history => .ok (.history table.history, table)

end SymbolTable

end ThreeAddress
