import Mathlib.Data.Set.Function
import ThreeAddress.Proofs.Acceptance

/-!
Analysis under a change of names and lines.  Analysis asks of two names whether
they are the same, and of lines it asks nothing.  So a change that makes no two
names of a walk one changes the outcome in the names and lines that it tells,
and in nothing else.
-/

namespace ThreeAddress

namespace SymbolTable

def mapSymbols (change : Symbol → Symbol) (table : SymbolTable) : SymbolTable :=
  { table with symbols := table.symbols.map change }

variable {change : Symbol → Symbol} {table : SymbolTable}
  {name other : String}

/-- A name is found among changed symbols where another one is found among the
symbols as they were, if changing turns the one name into the other. -/
theorem mapSymbols_findIn
    (hnames : ∀ symbol ∈ table.symbols,
      ((change symbol).name == other) = (symbol.name == name))
    (scope : Nat) :
    (table.mapSymbols change).findIn other scope =
      table.findIn name scope := by
  have hnamed : (table.mapSymbols change).isNamed other =
      table.isNamed name := by
    funext id
    rw [isNamed, isNamed, mapSymbols, List.getElem?_map]
    cases hfound : table.symbols[id]? with
    | none => rfl
    | some symbol => exact hnames symbol (List.mem_of_getElem? hfound)
  rw [findIn, findIn, hnamed]
  rfl

theorem mapSymbols_enclosing (bound scope : Nat) :
    (table.mapSymbols change).enclosing bound scope =
      table.enclosing bound scope := by
  induction bound generalizing scope with
  | zero => rfl
  | succ bound ih =>
      simp only [enclosing, ih]
      rfl

theorem mapSymbols_resolve
    (hnames : ∀ symbol ∈ table.symbols,
      ((change symbol).name == other) = (symbol.name == name)) :
    (table.mapSymbols change).resolve other = table.resolve name := by
  have hfind : (table.mapSymbols change).findIn other = table.findIn name := by
    funext scope
    exact mapSymbols_findIn hnames scope
  rw [resolve, resolve, mapSymbols_enclosing, hfind]
  rfl

theorem mapSymbols_typeOf (hty : ∀ symbol, (change symbol).ty = symbol.ty)
    (id : Nat) : (table.mapSymbols change).typeOf id = table.typeOf id := by
  rw [typeOf, typeOf, mapSymbols, List.getElem?_map]
  cases table.symbols[id]? with
  | none => rfl
  | some symbol => exact hty symbol

theorem mapSymbols_declare {symbol : Symbol}
    (hscope : (change symbol).scope = symbol.scope) (initialized : Bool) :
    (table.declare symbol initialized).mapSymbols change =
      (table.mapSymbols change).declare (change symbol) initialized := by
  simp [mapSymbols, declare, hscope]

theorem mapSymbols_pop :
    table.pop.mapSymbols change = (table.mapSymbols change).pop := by
  by_cases hstack : 1 < table.stack.length <;> simp [mapSymbols, pop, hstack]

end SymbolTable

def Operand.names : Operand → List String
  | name text => [text]
  | _ => []

def Step.names : Step → List String
  | declare name _ _ _ _ => [name]
  | assign name _ _ => [name]
  | use name _ => [name]
  | apply _ left right _ => left.names ++ right.names
  | enter _ => []
  | leave => []

def SymbolTable.names (table : SymbolTable) : List String :=
  table.symbols.map Symbol.name

/-- What a step declares is named in the step. -/
theorem Analyzer.step_names (analyzer : Analyzer) (step : Step) :
    (analyzer.step step).table.names ⊆ analyzer.table.names ++ step.names := by
  rcases analyzer.step_table step with heq | haccepted
  · rw [heq]
    exact List.subset_append_left _ _
  · generalize (analyzer.step step).table = next at haccepted ⊢
    cases haccepted with
    | declare ty line initialized literal hfree =>
        simp [SymbolTable.names, SymbolTable.declare, Step.names]
    | leave =>
        simp only [SymbolTable.names, SymbolTable.pop]
        split <;> exact List.subset_append_left _ _
    | _ => exact List.subset_append_left _ _

/-- A change of names and of lines. -/
structure Relabeling where
  name : String → String
  line : Nat → Nat

namespace Relabeling

def operand (change : Relabeling) : Operand → Operand
  | .name text => .name (change.name text)
  | .literal text => .literal text
  | .other => .other

def step (change : Relabeling) : Step → Step
  | .declare name ty line initialized literal =>
      .declare (change.name name) ty (change.line line) initialized literal
  | .assign name line literal =>
      .assign (change.name name) (change.line line) literal
  | .use name line => .use (change.name name) (change.line line)
  | .apply operator left right line =>
      .apply operator (change.operand left) (change.operand right)
        (change.line line)
  | .enter form => .enter form
  | .leave => .leave

def symbol (change : Relabeling) (symbol : Symbol) : Symbol :=
  { symbol with
    name := change.name symbol.name
    line := change.line symbol.line }

/-- A problem with the name and the line that it tells changed. -/
def problem (change : Relabeling) : Problem → Problem
  | .redeclared name first =>
      .redeclared (change.name name) (change.line first)
  | .assignedUndeclared name => .assignedUndeclared (change.name name)
  | .undeclared name => .undeclared (change.name name)
  | .uninitialized name => .uninitialized (change.name name)
  | .assignmentMismatch assigned name declared =>
      .assignmentMismatch assigned (change.name name) declared
  | .operandMismatch operator left right =>
      .operandMismatch operator left right
  | .unused name line => .unused (change.name name) (change.line line)

def diagnostic (change : Relabeling) (diagnostic : Diagnostic) : Diagnostic :=
  ⟨change.problem diagnostic.problem, change.line diagnostic.line⟩

/-- An analyzer that has met other names on other lines. -/
def analyzer (change : Relabeling) (analyzer : Analyzer) : Analyzer :=
  ⟨analyzer.table.mapSymbols change.symbol,
    analyzer.diagnostics.map change.diagnostic⟩

def analysis (change : Relabeling) (analysis : Analysis) : Analysis :=
  ⟨analysis.symbols.map change.symbol,
    analysis.diagnostics.map change.diagnostic, analysis.scopes⟩

theorem diagnostic_kind (change : Relabeling) (diagnostic : Diagnostic) :
    (change.diagnostic diagnostic).kind = diagnostic.kind := by
  obtain ⟨problem, line⟩ := diagnostic
  cases problem <;> rfl

section Steps

variable (change : Relabeling) (analyzer : Analyzer)

theorem analyzer_report (line : Nat) (problem : Problem) :
    change.analyzer (analyzer.report line problem) =
      (change.analyzer analyzer).report (change.line line)
        (change.problem problem) := by
  simp [Relabeling.analyzer, Analyzer.report, Relabeling.diagnostic]

theorem analyzer_update {first second : SymbolTable → SymbolTable}
    (htable : (first analyzer.table).mapSymbols change.symbol =
      second (analyzer.table.mapSymbols change.symbol)) :
    change.analyzer (analyzer.update first) =
      (change.analyzer analyzer).update second := by
  rw [Relabeling.analyzer, Analyzer.update, htable]
  rfl

theorem analyzer_typeOf (id : Nat) :
    (change.analyzer analyzer).table.typeOf id = analyzer.table.typeOf id := by
  have hty : ∀ symbol, (change.symbol symbol).ty = symbol.ty := fun _ => rfl
  exact SymbolTable.mapSymbols_typeOf hty id

theorem analyzer_checkAssigned (name : String) (line id : Nat)
    (literal : Option String) :
    change.analyzer (analyzer.checkAssigned name line id literal) =
      (change.analyzer analyzer).checkAssigned (change.name name)
        (change.line line) id literal := by
  cases literal with
  | none => rfl
  | some text =>
      simp only [Analyzer.checkAssigned, analyzer_typeOf]
      split
      · rfl
      · exact change.analyzer_report _ _ _

variable {change analyzer} {names : Set String}
  (hinjective : Set.InjOn change.name names)
  (hnames : ∀ name ∈ analyzer.table.names, name ∈ names)

include hinjective hnames

/-- A known name is the name of a symbol after the change if it was before. -/
theorem symbol_name_beq {name : String} (hname : name ∈ names) :
    ∀ symbol ∈ analyzer.table.symbols,
      ((change.symbol symbol).name == change.name name) =
        (symbol.name == name) := by
  intro symbol hsymbol
  have hknown := hnames symbol.name (List.mem_map_of_mem hsymbol)
  rw [Bool.eq_iff_iff, beq_iff_eq, beq_iff_eq]
  exact hinjective.eq_iff hknown hname

theorem analyzer_resolve {name : String} (hname : name ∈ names) :
    (change.analyzer analyzer).table.resolve (change.name name) =
      analyzer.table.resolve name :=
  SymbolTable.mapSymbols_resolve (symbol_name_beq hinjective hnames hname)

theorem analyzer_operandType {operand : Operand}
    (hoperand : ∀ name ∈ operand.names, name ∈ names) :
    (change.analyzer analyzer).operandType (change.operand operand) =
      analyzer.operandType operand := by
  cases operand with
  | name text =>
      have htext := hoperand text List.mem_cons_self
      simp only [Relabeling.operand, Analyzer.operandType,
        analyzer_resolve hinjective hnames htext]
      cases analyzer.table.resolve text with
      | none => rfl
      | some id => exact change.analyzer_typeOf analyzer id
  | literal text => rfl
  | other => rfl

theorem analyzer_declare {name : String} (hname : name ∈ names) (ty : Ty)
    (line : Nat) (initialized : Bool) (literal : Option String) :
    change.analyzer (analyzer.declare name ty line initialized literal) =
      (change.analyzer analyzer).declare (change.name name) ty
        (change.line line) initialized literal := by
  have hlocal : ((change.analyzer analyzer).table.lookupLocal
        (change.name name)).bind
        (fun id => (change.analyzer analyzer).table.symbols[id]?) =
      ((analyzer.table.lookupLocal name).bind
        fun id => analyzer.table.symbols[id]?).map change.symbol := by
    have hfound : (change.analyzer analyzer).table.lookupLocal
        (change.name name) = analyzer.table.lookupLocal name :=
      SymbolTable.mapSymbols_findIn (symbol_name_beq hinjective hnames hname) _
    rw [hfound, Option.map_bind]
    congr 1
    funext id
    exact List.getElem?_map
  rw [Analyzer.declare, Analyzer.declare, hlocal]
  cases (analyzer.table.lookupLocal name).bind
      fun id => analyzer.table.symbols[id]? with
  | some first => exact change.analyzer_report _ _ _
  | none =>
      exact change.analyzer_update _ (SymbolTable.mapSymbols_declare rfl _)

theorem analyzer_assign {name : String} (hname : name ∈ names) (line : Nat)
    (literal : Option String) :
    change.analyzer (analyzer.assign name line literal) =
      (change.analyzer analyzer).assign (change.name name) (change.line line)
        literal := by
  rw [Analyzer.assign, Analyzer.assign,
    analyzer_resolve hinjective hnames hname]
  cases analyzer.table.resolve name with
  | none => exact change.analyzer_report _ _ _
  | some id => exact change.analyzer_checkAssigned _ _ _ _ _

theorem analyzer_use {name : String} (hname : name ∈ names) (line : Nat) :
    change.analyzer (analyzer.use name line) =
      (change.analyzer analyzer).use (change.name name) (change.line line) := by
  rw [Analyzer.use, Analyzer.use, analyzer_resolve hinjective hnames hname]
  cases analyzer.table.resolve name with
  | none => exact change.analyzer_report _ _ _
  | some id =>
      have hinitialized : (change.analyzer analyzer).table.isInitialized id =
          analyzer.table.isInitialized id := rfl
      simp only [hinitialized]
      split
      · rfl
      · exact change.analyzer_report _ _ _

theorem analyzer_apply (operator : Operator) {left right : Operand}
    (hleft : ∀ name ∈ left.names, name ∈ names)
    (hright : ∀ name ∈ right.names, name ∈ names) (line : Nat) :
    change.analyzer (analyzer.apply operator left right line) =
      (change.analyzer analyzer).apply operator (change.operand left)
        (change.operand right) (change.line line) := by
  simp only [Analyzer.apply, analyzer_operandType hinjective hnames hleft,
    analyzer_operandType hinjective hnames hright]
  split
  · rfl
  · exact change.analyzer_report _ _ _

/-- No step asks more of names than whether they are the same. -/
theorem analyzer_step {step : Step}
    (hstep : ∀ name ∈ step.names, name ∈ names) :
    change.analyzer (analyzer.step step) =
      (change.analyzer analyzer).step (change.step step) := by
  cases step with
  | declare name ty line initialized literal =>
      exact analyzer_declare hinjective hnames (hstep name List.mem_cons_self)
        ty line initialized literal
  | assign name line literal =>
      exact analyzer_assign hinjective hnames (hstep name List.mem_cons_self)
        line literal
  | use name line =>
      exact analyzer_use hinjective hnames (hstep name List.mem_cons_self) line
  | apply operator left right line =>
      obtain ⟨hleft, hright⟩ := List.forall_mem_append.mp hstep
      exact analyzer_apply hinjective hnames operator hleft hright line
  | enter form => rfl
  | leave => exact change.analyzer_update _ SymbolTable.mapSymbols_pop

theorem analyzer_run {steps : List Step}
    (hsteps : ∀ step ∈ steps, ∀ name ∈ step.names, name ∈ names) :
    change.analyzer (analyzer.run steps) =
      (change.analyzer analyzer).run (steps.map change.step) := by
  induction steps generalizing analyzer with
  | nil => rfl
  | cons step rest ih =>
      obtain ⟨hstep, hrest⟩ := List.forall_mem_cons.mp hsteps
      have hnext : ∀ name ∈ (analyzer.step step).table.names, name ∈ names := by
        intro name hname
        rcases List.mem_append.mp (analyzer.step_names step hname) with
          hold | hnew
        · exact hnames name hold
        · exact hstep name hnew
      have hlast := ih hnext hrest
      rwa [analyzer_step hinjective hnames hstep] at hlast

end Steps

theorem analyzer_outcome (change : Relabeling) (analyzer : Analyzer) :
    (change.analyzer analyzer).outcome = change.analysis analyzer.outcome := by
  have hunused : (change.analyzer analyzer).unused =
      analyzer.unused.map change.diagnostic := by
    have hhistory : (change.analyzer analyzer).table.history =
        analyzer.table.history.map (Prod.map change.symbol id) :=
      List.zip_map_left
    rw [Analyzer.unused, Analyzer.unused, hhistory, List.filter_map,
      List.map_map, List.map_map]
    rfl
  rw [Analyzer.outcome, hunused, Analyzer.outcome, Relabeling.analysis,
    List.map_append]
  rfl

/-- A walk with its names and lines changed ends in the outcome of the walk with
its names and lines changed, if no two names of the walk become one. -/
theorem outcome_run {change : Relabeling} {names : Set String}
    (hinjective : Set.InjOn change.name names) {steps : List Step}
    (hsteps : ∀ step ∈ steps, ∀ name ∈ step.names, name ∈ names) :
    (({} : Analyzer).run (steps.map change.step)).outcome =
      change.analysis (({} : Analyzer).run steps).outcome := by
  have hstart : ∀ name ∈ ({} : Analyzer).table.names, name ∈ names := by
    intro name hname
    simp [SymbolTable.names, SymbolTable.start] at hname
  rw [← analyzer_outcome, analyzer_run hinjective hstart hsteps]
  rfl

end Relabeling

end ThreeAddress
