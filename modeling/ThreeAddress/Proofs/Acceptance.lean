import ThreeAddress.Proofs.Scoping

/-!
Walks on which analysis reports nothing.  A step that is not reported changes
the table in one way only, so that the names that have a value are those that an
earlier step has given one.
-/

namespace ThreeAddress

namespace SymbolTable

variable {table : SymbolTable} {name : String} {id : Nat}

/-- A name stands for a symbol that has a value. -/
def Assigned (table : SymbolTable) (name : String) : Prop :=
  ∃ id, table.resolve name = some id ∧ table.isInitialized id = true

theorem exists_symbol_of_findIn {scope : Nat}
    (hfound : table.findIn name scope = some id) :
    ∃ symbol, table.symbols[id]? = some symbol ∧ symbol.name = name := by
  obtain ⟨found, -, hfind⟩ := Option.bind_eq_some_iff.mp hfound
  have hnamed := List.find?_some hfind
  simpa [isNamed, Option.any_eq_true] using hnamed

/-- A name stands for a symbol of that name. -/
theorem exists_symbol_of_resolve (hresolve : table.resolve name = some id) :
    ∃ symbol, table.symbols[id]? = some symbol ∧ symbol.name = name := by
  obtain ⟨scope, -, hfound⟩ := List.exists_of_findSome?_eq_some hresolve
  exact exists_symbol_of_findIn hfound

/-- Different names stand for different symbols. -/
theorem name_eq_of_resolve {other : String}
    (hresolve : table.resolve name = some id)
    (hother : table.resolve other = some id) : name = other := by
  obtain ⟨symbol, hsymbol, rfl⟩ := exists_symbol_of_resolve hresolve
  obtain ⟨found, hfound, rfl⟩ := exists_symbol_of_resolve hother
  rw [hsymbol] at hfound
  cases hfound
  rfl

theorem lookupLocal_eq_none
    (hnone : ((table.lookupLocal name).bind fun id => table.symbols[id]?) =
      none) : table.lookupLocal name = none := by
  cases hlocal : table.lookupLocal name with
  | none => rfl
  | some id =>
      obtain ⟨symbol, hsymbol, -⟩ := exists_symbol_of_findIn hlocal
      simp [hlocal, hsymbol] at hnone

/-- What a name stands for does not hang on what has happened to symbols. -/
theorem resolve_withUsages (usages : List Usage) :
    resolve { table with usages := usages } name = table.resolve name := by
  have henclosing : ∀ bound scope,
      enclosing { table with usages := usages } bound scope =
        table.enclosing bound scope := by
    intro bound
    induction bound with
    | zero => intro scope; rfl
    | succ bound ih => intro scope; simp only [enclosing, ih]
  simp only [resolve, henclosing]
  rfl

theorem declare_findIn (htable : table.WellFormed) {symbol : Symbol}
    (howner : symbol.scope < table.scopes.length) (initialized : Bool)
    {scope : Nat} (hscope : scope < table.scopes.length) :
    (table.declare symbol initialized).findIn name scope =
      (table.findIn name scope).or
        (if symbol.scope = scope ∧ symbol.name = name then
          some table.symbols.length else none) := by
  have hscopes : scope <
      (table.declare symbol initialized).scopes.length := by
    simpa [declare] using hscope
  rw [(declare_wellFormed htable howner initialized).findIn_eq name hscopes,
    htable.findIn_eq name hscope]
  simp only [declare, List.findIdx?_append]
  by_cases hfound : symbol.scope = scope ∧ symbol.name = name
  · simp [hfound]
  · have hnot : (symbol.scope == scope && symbol.name == name) = false := by
      simpa using hfound
    simp [hfound, hnot]

/-- A declared name stands for its new symbol, and all other names for what they
stood for. -/
theorem declare_resolve (htable : table.WellFormed) {symbol : Symbol}
    (howner : symbol.scope = table.current)
    (hfree : table.lookupLocal symbol.name = none) (initialized : Bool) :
    (table.declare symbol initialized).resolve name =
      if symbol.name = name then some table.symbols.length
      else table.resolve name := by
  have hcurrent : symbol.scope < table.scopes.length :=
    howner ▸ htable.current_lt
  obtain ⟨outer, hstack⟩ := htable.stack_eq
  have hscopes := htable.linked_forall_lt htable.linked
  rw [(declare_wellFormed htable hcurrent initialized).resolve_eq,
    htable.resolve_eq]
  have hopen : (table.declare symbol initialized).stack = table.stack := rfl
  rw [hopen]
  by_cases hname : symbol.name = name
  · subst hname
    rw [hstack, List.findSome?_cons,
      declare_findIn htable hcurrent initialized htable.current_lt]
    rw [lookupLocal] at hfree
    simp [hfree, howner]
  · have hsame : ∀ scope ∈ table.stack.reverse,
        (table.declare symbol initialized).findIn name scope =
          table.findIn name scope := by
      intro scope hscope
      rw [declare_findIn htable hcurrent initialized (hscopes scope hscope)]
      simp [hname]
    rw [if_neg hname, ← List.head?_filterMap, ← List.head?_filterMap,
      List.filterMap_congr hsame]

theorem markUsed_isInitialized (marked : Nat) :
    (table.markUsed marked).isInitialized id = table.isInitialized id := by
  rw [isInitialized, isInitialized, markUsed, List.getElem?_modify]
  cases table.usages[id]? with
  | none => rfl
  | some usage => by_cases hmarked : marked = id <;> simp [hmarked]

theorem markInitialized_isInitialized {marked : Nat}
    (hinitialized : (table.markInitialized marked).isInitialized id = true) :
    table.isInitialized id = true ∨ id = marked := by
  by_cases hmarked : marked = id
  · exact Or.inr hmarked.symm
  · rw [isInitialized, markInitialized, List.getElem?_modify] at hinitialized
    simp only [hmarked, if_false] at hinitialized
    exact Or.inl (by simpa [isInitialized] using hinitialized)

theorem assigned_of_markUsed {marked : Nat}
    (hassigned : (table.markUsed marked).Assigned name) :
    table.Assigned name := by
  obtain ⟨id, hresolve, hinitialized⟩ := hassigned
  rw [markUsed_isInitialized] at hinitialized
  exact ⟨id, (resolve_withUsages _).symm.trans hresolve, hinitialized⟩

theorem assigned_of_markInitialized {target : String} {marked : Nat}
    (htarget : table.resolve target = some marked)
    (hassigned : (table.markInitialized marked).Assigned name) :
    table.Assigned name ∨ name = target := by
  obtain ⟨id, hresolve, hinitialized⟩ := hassigned
  have hbefore := (resolve_withUsages _).symm.trans hresolve
  rcases markInitialized_isInitialized hinitialized with hinitialized | rfl
  · exact Or.inl ⟨id, hbefore, hinitialized⟩
  · exact Or.inr (name_eq_of_resolve hbefore htarget)

theorem assigned_of_declare (htable : table.WellFormed) {symbol : Symbol}
    (howner : symbol.scope = table.current)
    (hfree : table.lookupLocal symbol.name = none) {initialized : Bool}
    (hassigned : (table.declare symbol initialized).Assigned name) :
    table.Assigned name ∨ initialized = true ∧ name = symbol.name := by
  obtain ⟨id, hresolve, hinitialized⟩ := hassigned
  rw [declare_resolve htable howner hfree] at hresolve
  simp only [isInitialized, declare] at hinitialized
  by_cases hname : symbol.name = name
  · rw [if_pos hname] at hresolve
    cases hresolve
    rw [← htable.usages] at hinitialized
    exact Or.inr ⟨by simpa using hinitialized, hname.symm⟩
  · rw [if_neg hname] at hresolve
    obtain ⟨found, hfound, -⟩ := exists_symbol_of_resolve hresolve
    have hlt := (List.getElem?_eq_some_iff.mp hfound).1
    rw [← htable.usages] at hlt
    rw [List.getElem?_append_left hlt] at hinitialized
    exact Or.inl ⟨id, hresolve, hinitialized⟩

end SymbolTable

theorem Diagnostic.Kind.isWarning_iff {kind : Diagnostic.Kind} :
    kind.isWarning = true ↔ kind = .unusedVariable := by
  cases kind <;> simp [isWarning]

/-- A step that is not reported, and what it makes of a table. -/
inductive Accepted (table : SymbolTable) : Step → SymbolTable → Prop where
  | declare {name : String} (ty : Ty) (line : Nat) (initialized : Bool)
      (literal : Option String) (hfree : table.lookupLocal name = none) :
      Accepted table (.declare name ty line initialized literal)
        (table.declare ⟨name, ty, table.current, line, literal⟩ initialized)
  | assign {name : String} {id : Nat} (line : Nat) (literal : Option String)
      (hfound : table.resolve name = some id) :
      Accepted table (.assign name line literal)
        ((table.markUsed id).markInitialized id)
  | use {name : String} {id : Nat} (line : Nat)
      (hfound : table.resolve name = some id)
      (hvalue : table.isInitialized id = true) :
      Accepted table (.use name line) (table.markUsed id)
  | apply (operator : Operator) (left right : Operand) (line : Nat) :
      Accepted table (.apply operator left right line) table
  | enter (form : Conditional) :
      Accepted table (.enter form) (table.push (.conditional form))
  | leave : Accepted table .leave table.pop

/-- Steps none of which is reported. -/
inductive AcceptedAll :
    SymbolTable → List Step → SymbolTable → Prop where
  | refl (table : SymbolTable) : AcceptedAll table [] table
  | cons {table middle last : SymbolTable} {step : Step} {steps : List Step}
      (hstep : Accepted table step middle)
      (hsteps : AcceptedAll middle steps last) :
      AcceptedAll table (step :: steps) last

namespace Analyzer

variable (analyzer : Analyzer)

/-- A step is reported once as an error, or else it is accepted. -/
theorem step_cases (step : Step) :
    (∃ problem line, problem.kind ≠ .unusedVariable ∧
      (analyzer.step step).diagnostics =
        analyzer.diagnostics ++ [⟨problem, line⟩]) ∨
    ((analyzer.step step).diagnostics = analyzer.diagnostics ∧
      Accepted analyzer.table step (analyzer.step step).table) := by
  cases step with
  | declare name ty line initialized literal =>
      simp only [step, declare]
      split
      · exact Or.inl ⟨_, line, by simp [Problem.kind], rfl⟩
      · rename_i hnone
        exact Or.inr ⟨rfl, .declare ty line initialized literal
          (SymbolTable.lookupLocal_eq_none hnone)⟩
  | assign name line literal =>
      simp only [step, assign]
      split
      · exact Or.inl ⟨_, line, by simp [Problem.kind], rfl⟩
      · rename_i id hfound
        rw [checkAssigned_table]
        unfold checkAssigned
        split
        · exact Or.inr ⟨rfl, .assign line none hfound⟩
        · rename_i text
          dsimp only
          split
          · exact Or.inr ⟨rfl, .assign line (some text) hfound⟩
          · exact Or.inl ⟨_, line, by simp [Problem.kind], rfl⟩
  | use name line =>
      simp only [step, use]
      split
      · exact Or.inl ⟨_, line, by simp [Problem.kind], rfl⟩
      · rename_i id hfound
        split
        · rename_i hvalue
          exact Or.inr ⟨rfl, .use line hfound hvalue⟩
        · exact Or.inl ⟨_, line, by simp [Problem.kind], rfl⟩
  | apply operator left right line =>
      simp only [step, apply]
      split
      · exact Or.inr ⟨rfl, .apply operator left right line⟩
      · exact Or.inl ⟨_, line, by simp [Problem.kind], rfl⟩
  | enter form => exact Or.inr ⟨rfl, .enter form⟩
  | leave => exact Or.inr ⟨rfl, .leave⟩

/-- Reported or not, a step leaves the table as it is, or makes of it what an
accepted step makes of it. -/
theorem step_table (step : Step) :
    (analyzer.step step).table = analyzer.table ∨
      Accepted analyzer.table step (analyzer.step step).table := by
  cases step with
  | declare name ty line initialized literal =>
      simp only [step, declare]
      split
      · exact Or.inl rfl
      · rename_i hnone
        exact Or.inr (.declare ty line initialized literal
          (SymbolTable.lookupLocal_eq_none hnone))
  | assign name line literal =>
      simp only [step, assign]
      split
      · exact Or.inl rfl
      · rename_i id hfound
        rw [checkAssigned_table]
        exact Or.inr (.assign line literal hfound)
  | use name line =>
      simp only [step, use]
      split
      · exact Or.inl rfl
      · rename_i id hfound
        split
        · rename_i hvalue
          exact Or.inr (.use line hfound hvalue)
        · exact Or.inl rfl
  | apply operator left right line =>
      simp only [step, apply]
      split <;> exact Or.inl rfl
  | enter form => exact Or.inr (.enter form)
  | leave => exact Or.inr .leave

/-- What has been reported stays reported. -/
theorem diagnostics_prefix_run (steps : List Step) :
    analyzer.diagnostics <+: (analyzer.run steps).diagnostics := by
  induction steps generalizing analyzer with
  | nil => exact List.prefix_refl _
  | cons step rest ih =>
      refine List.IsPrefix.trans ?_ (ih (analyzer.step step))
      rcases analyzer.step_cases step with ⟨problem, line, -, heq⟩ | ⟨heq, -⟩
      · rw [heq]
        exact List.prefix_append _ _
      · exact ⟨[], (List.append_nil _).trans heq.symm⟩

/-- Without an error in the end, every step has been accepted. -/
theorem run_accepted {steps : List Step}
    (hclean : ∀ diagnostic ∈ (analyzer.run steps).diagnostics,
      diagnostic.isWarning = true) :
    AcceptedAll analyzer.table steps (analyzer.run steps).table := by
  induction steps generalizing analyzer with
  | nil => exact .refl _
  | cons step rest ih =>
      rcases analyzer.step_cases step with
        ⟨problem, line, hkind, hreported⟩ | ⟨-, haccepted⟩
      · have hmem : ⟨problem, line⟩ ∈
            (analyzer.run (step :: rest)).diagnostics := by
          apply ((analyzer.step step).diagnostics_prefix_run rest).subset
          rw [hreported]
          simp
        exact absurd (Diagnostic.Kind.isWarning_iff.mp (hclean _ hmem)) hkind
      · exact .cons haccepted (ih (analyzer.step step) hclean)

end Analyzer

theorem analyze_accepted {root : Node} (herrors : (analyze root).errors = []) :
    AcceptedAll SymbolTable.start root.walk
      (({} : Analyzer).run root.walk).table := by
  apply Analyzer.run_accepted ({} : Analyzer)
  intro diagnostic hdiagnostic
  have hwarning := List.filter_eq_nil_iff.mp herrors diagnostic
    (List.mem_append_left _ hdiagnostic)
  simpa using hwarning

def Step.given? : Step → Option String
  | declare name _ _ true _ => some name
  | assign name _ _ => some name
  | _ => none

/-- Whether a step stays in its scope. -/
def Step.isLocal : Step → Bool
  | enter _ => false
  | leave => false
  | _ => true

theorem Accepted.wellFormed {table next : SymbolTable} {step : Step}
    (haccepted : Accepted table step next) (htable : table.WellFormed) :
    next.WellFormed := by
  cases haccepted with
  | declare ty line initialized literal hfree =>
      exact SymbolTable.declare_wellFormed htable htable.current_lt initialized
  | assign line literal hfound =>
      exact SymbolTable.markInitialized_wellFormed
        (SymbolTable.markUsed_wellFormed htable _) _
  | use line hfound hvalue => exact SymbolTable.markUsed_wellFormed htable _
  | apply operator left right line => exact htable
  | enter form => exact SymbolTable.push_wellFormed htable _
  | leave => exact SymbolTable.pop_wellFormed htable

/-- In its scope a step gives a value to its own name at most. -/
theorem Accepted.assigned {table next : SymbolTable} {step : Step}
    (haccepted : Accepted table step next) (htable : table.WellFormed)
    (hlocal : step.isLocal = true) {name : String}
    (hassigned : next.Assigned name) :
    table.Assigned name ∨ step.given? = some name := by
  cases haccepted with
  | declare ty line initialized literal hfree =>
      rcases SymbolTable.assigned_of_declare htable rfl hfree hassigned with
        hassigned | ⟨rfl, rfl⟩
      · exact Or.inl hassigned
      · exact Or.inr rfl
  | @assign target id line literal hfound =>
      have hused : (table.markUsed id).resolve target = some id :=
        (SymbolTable.resolve_withUsages _).trans hfound
      rcases SymbolTable.assigned_of_markInitialized hused hassigned with
        hassigned | rfl
      · exact Or.inl (SymbolTable.assigned_of_markUsed hassigned)
      · exact Or.inr rfl
  | use line hfound hvalue =>
      exact Or.inl (SymbolTable.assigned_of_markUsed hassigned)
  | apply operator left right line => exact Or.inl hassigned
  | enter form => simp [Step.isLocal] at hlocal
  | leave => simp [Step.isLocal] at hlocal

namespace AcceptedAll

variable {table last : SymbolTable} {steps : List Step}

theorem wellFormed (haccepted : AcceptedAll table steps last)
    (htable : table.WellFormed) : last.WellFormed := by
  induction haccepted with
  | refl table => exact htable
  | cons hstep hsteps ih => exact ih (hstep.wellFormed htable)

theorem append_iff {others : List Step} :
    AcceptedAll table (steps ++ others) last ↔
      ∃ middle, AcceptedAll table steps middle ∧
        AcceptedAll middle others last := by
  induction steps generalizing table with
  | nil =>
      constructor
      · intro hothers
        exact ⟨table, .refl table, hothers⟩
      · rintro ⟨middle, hnil, hothers⟩
        cases hnil
        exact hothers
  | cons step steps ih =>
      constructor
      · intro hall
        cases hall with
        | cons hstep hrest =>
            obtain ⟨middle, hsteps, hothers⟩ := ih.mp hrest
            exact ⟨middle, .cons hstep hsteps, hothers⟩
      · rintro ⟨middle, hfirst, hothers⟩
        cases hfirst with
        | cons hstep hsteps =>
            exact .cons hstep (ih.mpr ⟨middle, hsteps, hothers⟩)

/-- In one scope a name that has a value in the end, or that is used on the way,
had one before or is given one. -/
theorem assigned (haccepted : AcceptedAll table steps last)
    (htable : table.WellFormed)
    (hlocal : ∀ step ∈ steps, step.isLocal = true) {name : String}
    (hname : last.Assigned name ∨ ∃ line, Step.use name line ∈ steps) :
    table.Assigned name ∨ ∃ step ∈ steps, step.given? = some name := by
  induction haccepted with
  | refl table =>
      rcases hname with hassigned | ⟨line, hmem⟩
      · exact Or.inl hassigned
      · simp at hmem
  | @cons table middle last step steps hstep hsteps ih =>
      have hhead := hlocal step List.mem_cons_self
      have htail := fun other hother =>
        hlocal other (List.mem_cons_of_mem step hother)
      -- A name that comes up after the first step has its value from there on, or
      -- from before, which the first step may have given.
      have hrest : (last.Assigned name ∨ ∃ line, Step.use name line ∈ steps) →
          table.Assigned name ∨ ∃ other ∈ step :: steps,
            other.given? = some name := by
        intro hname
        rcases ih (hstep.wellFormed htable) htail hname with
          hassigned | ⟨other, hother, hgiven⟩
        · rcases hstep.assigned htable hhead hassigned with
            hassigned | hgiven
          · exact Or.inl hassigned
          · exact Or.inr ⟨step, List.mem_cons_self, hgiven⟩
        · exact Or.inr ⟨other, List.mem_cons_of_mem step hother, hgiven⟩
      rcases hname with hassigned | ⟨line, hmem⟩
      · exact hrest (Or.inl hassigned)
      · rcases List.mem_cons.mp hmem with rfl | hmem
        · cases hstep with
          | use line hfound hvalue => exact Or.inl ⟨_, hfound, hvalue⟩
        · exact hrest (Or.inr ⟨line, hmem⟩)

end AcceptedAll

end ThreeAddress
