import ThreeAddress.Proofs.UsageMarks

/-!
Statements that are added at the end of a program leave alone what has been
found before them.  What steps make of a table is only ever added to it: symbols
and scopes come after those that are there, marks are set and never taken back,
and a scope that has been left gets no more symbols.
-/

namespace ThreeAddress

namespace SymbolTable

/-- A table that has come out of another one: with what is there unchanged,
except that open scopes may own more symbols and more may have happened to
symbols.  Its open scopes are open in the other table, or new. -/
structure Extends (base table : SymbolTable) : Prop where
  symbols : base.symbols <+: table.symbols
  scopes : ∀ id scope, base.scopes[id]? = some scope →
    ∃ added, table.scopes[id]? =
        some { scope with symbols := scope.symbols ++ added } ∧
      (id ∉ base.stack → added = [])
  usages : ∀ (id : Nat) (usage : Usage), base.usages[id]? = some usage →
    ∃ later : Usage, table.usages[id]? = some later ∧
      (usage.used = true → later.used = true) ∧
        (usage.initialized = true → later.initialized = true)
  stack : ∀ id ∈ table.stack, id ∈ base.stack ∨ base.scopes.length ≤ id
  nonempty : table.stack ≠ []

namespace Extends

variable {base table : SymbolTable}

theorem refl (hstack : base.stack ≠ []) : base.Extends base where
  symbols := List.prefix_refl _
  scopes id scope hscope := ⟨[], by simpa using hscope, fun _ => rfl⟩
  usages id usage husage :=
    ⟨usage, husage, fun hflag => hflag, fun hflag => hflag⟩
  stack id hid := Or.inl hid
  nonempty := hstack

theorem length_scopes (hextends : base.Extends table) :
    base.scopes.length ≤ table.scopes.length := by
  by_contra hless
  have hlast := List.getElem?_eq_getElem (Nat.lt_of_not_le hless)
  obtain ⟨added, hadded, -⟩ := hextends.scopes _ _ hlast
  simp at hadded

/-- The current scope is open in the other table, or new. -/
theorem current (hextends : base.Extends table) :
    table.current ∈ base.stack ∨ base.scopes.length ≤ table.current := by
  have hlast := List.getLast?_eq_some_getLast hextends.nonempty
  have hcurrent : table.current = table.stack.getLast hextends.nonempty := by
    rw [SymbolTable.current, hlast]
    rfl
  exact hcurrent ▸ hextends.stack _ (List.getLast_mem hextends.nonempty)

theorem declare (hextends : base.Extends table) {symbol : Symbol}
    (howner : symbol.scope = table.current) (initialized : Bool) :
    base.Extends (table.declare symbol initialized) where
  symbols := hextends.symbols.trans (List.prefix_append _ _)
  scopes id scope hscope := by
    obtain ⟨added, hadded, hclosed⟩ := hextends.scopes id scope hscope
    simp only [SymbolTable.declare, List.getElem?_modify, hadded]
    by_cases hcurrent : symbol.scope = id
    · refine ⟨added ++ [table.symbols.length], by simp [hcurrent], ?_⟩
      -- the scope that the symbol goes to is not a closed one
      intro hnot
      have hlt := (List.getElem?_eq_some_iff.mp hscope).1
      rcases hextends.current with hopen | hnew
      · exact absurd (hcurrent ▸ howner ▸ hopen) hnot
      · omega
    · exact ⟨added, by simp [hcurrent], hclosed⟩
  usages id usage husage := by
    obtain ⟨later, hlater, hflags⟩ := hextends.usages id usage husage
    refine ⟨later, ?_, hflags⟩
    have hlt := (List.getElem?_eq_some_iff.mp hlater).1
    rw [SymbolTable.declare, List.getElem?_append_left hlt, hlater]
  stack := hextends.stack
  nonempty := hextends.nonempty

/-- Marks may be set. -/
theorem modify (hextends : base.Extends table) (marked : Nat)
    {change : Usage → Usage}
    (hused : ∀ usage, usage.used = true → (change usage).used = true)
    (hinitialized : ∀ usage, usage.initialized = true →
      (change usage).initialized = true) :
    base.Extends { table with usages := table.usages.modify marked change } where
  symbols := hextends.symbols
  scopes := hextends.scopes
  usages id usage husage := by
    obtain ⟨later, hlater, hflags⟩ := hextends.usages id usage husage
    rw [List.getElem?_modify, hlater]
    by_cases hmarked : marked = id
    · exact ⟨change later, by simp [hmarked], fun hflag =>
        hused later (hflags.1 hflag), fun hflag =>
          hinitialized later (hflags.2 hflag)⟩
    · exact ⟨later, by simp [hmarked], hflags⟩
  stack := hextends.stack
  nonempty := hextends.nonempty

theorem markUsed (hextends : base.Extends table) (id : Nat) :
    base.Extends (table.markUsed id) :=
  hextends.modify id (fun _ _ => rfl) fun _ hflag => hflag

theorem markInitialized (hextends : base.Extends table) (id : Nat) :
    base.Extends (table.markInitialized id) :=
  hextends.modify id (fun _ hflag => hflag) fun _ _ => rfl

theorem push (hextends : base.Extends table) (kind : Scope.Kind) :
    base.Extends (table.push kind) where
  symbols := hextends.symbols
  scopes id scope hscope := by
    obtain ⟨added, hadded, hclosed⟩ := hextends.scopes id scope hscope
    refine ⟨added, ?_, hclosed⟩
    have hlt := (List.getElem?_eq_some_iff.mp hadded).1
    rw [SymbolTable.push, List.getElem?_append_left hlt, hadded]
  usages := hextends.usages
  stack id hid := by
    rcases List.mem_append.mp hid with hid | hid
    · exact hextends.stack id hid
    · rw [List.mem_singleton.mp hid]
      exact Or.inr hextends.length_scopes
  nonempty := by simp [SymbolTable.push]

theorem pop (hextends : base.Extends table) : base.Extends table.pop := by
  rw [SymbolTable.pop]
  split
  · rename_i hlength
    refine ⟨hextends.symbols, hextends.scopes, hextends.usages, ?_, ?_⟩
    · intro id hid
      exact hextends.stack id (List.dropLast_subset _ hid)
    · apply List.ne_nil_of_length_pos
      rw [List.length_dropLast]
      omega
  · exact hextends

theorem accepted (hextends : base.Extends table) {step : Step}
    {next : SymbolTable} (hstep : Accepted table step next) :
    base.Extends next := by
  cases hstep with
  | declare ty line initialized literal hfree =>
      exact hextends.declare rfl initialized
  | @assign name id line literal hfound =>
      exact (hextends.markUsed id).markInitialized id
  | @use name id line hfound hvalue => exact hextends.markUsed id
  | apply operator left right line => exact hextends
  | enter form => exact hextends.push _
  | leave => exact hextends.pop

/-- Whatever a walk does to a table is added to it. -/
theorem run {analyzer : Analyzer} (hextends : base.Extends analyzer.table)
    (steps : List Step) : base.Extends (analyzer.run steps).table := by
  induction steps generalizing analyzer with
  | nil => exact hextends
  | cons step rest ih =>
      refine ih ?_
      rcases analyzer.step_table step with heq | haccepted
      · rw [heq]
        exact hextends
      · exact hextends.accepted haccepted

end Extends

end SymbolTable

namespace Node

theorem walkAll_append (first second : List Node) :
    walkAll (first ++ second) = walkAll first ++ walkAll second := by
  induction first with
  | nil => rfl
  | cons node rest ih => simp [walkAll, ih]

theorem lowerAll_append (first second : List Node) (next : Nat) :
    (lowerAll (first ++ second) next).code =
      (lowerAll first next).code ++
        (lowerAll second (lowerAll first next).next).code := by
  induction first generalizing next with
  | nil => rfl
  | cons node rest ih => simp [lowerAll, ih]

end Node

def unusedSymbols (root : Node) : List Symbol :=
  ((({} : Analyzer).run root.walk).table.history.filter fun entry =>
    !entry.2.used).map Prod.fst

/-- The warnings of an analysis are those of the symbols that nothing uses. -/
theorem analyze_warnings (root : Node) :
    (analyze root).warnings = (unusedSymbols root).map Symbol.warning := by
  have hsteps : ∀ diagnostic ∈ (({} : Analyzer).run root.walk).diagnostics,
      ¬diagnostic.isWarning = true := by
    intro diagnostic hmem
    have hkind := Analyzer.run_kind_ne {} (by simp) root.walk diagnostic hmem
    exact mt Diagnostic.Kind.isWarning_iff.mp hkind
  have hunused : (({} : Analyzer).run root.walk).unused =
      (unusedSymbols root).map Symbol.warning := by
    rw [Analyzer.unused, unusedSymbols, List.map_map]
    rfl
  have hwarnings : ∀ diagnostic ∈ (({} : Analyzer).run root.walk).unused,
      diagnostic.isWarning = true := by
    intro diagnostic hmem
    obtain ⟨entry, -, rfl⟩ := List.mem_map.mp hmem
    rfl
  rw [Analysis.warnings, analyze, Analyzer.outcome, List.filter_append,
    List.filter_eq_nil_iff.mpr hsteps, List.nil_append,
    List.filter_eq_self.mpr hwarnings, hunused]

/-- A symbol is among the unused ones if it is not marked as used. -/
theorem mem_unusedSymbols_iff {root : Node} {symbol : Symbol} :
    symbol ∈ unusedSymbols root ↔
      ∃ (id : Nat) (usage : Usage),
        (({} : Analyzer).run root.walk).table.symbols[id]? = some symbol ∧
          (({} : Analyzer).run root.walk).table.usages[id]? = some usage ∧
            usage.used = false := by
  generalize htable : (({} : Analyzer).run root.walk).table = table
  simp only [unusedSymbols, htable, SymbolTable.history, List.mem_map,
    List.mem_filter, Bool.not_eq_true']
  constructor
  · rintro ⟨entry, ⟨hentry, hused⟩, rfl⟩
    obtain ⟨id, hid⟩ := List.mem_iff_getElem?.mp hentry
    obtain ⟨hsymbol, husage⟩ := List.getElem?_zip_eq_some.mp hid
    exact ⟨id, entry.2, hsymbol, husage, hused⟩
  · rintro ⟨id, usage, hsymbol, husage, hused⟩
    have hid : (table.symbols.zip table.usages)[id]? = some (symbol, usage) :=
      List.getElem?_zip_eq_some.mpr ⟨hsymbol, husage⟩
    exact ⟨(symbol, usage), ⟨List.mem_of_getElem? hid, hused⟩, rfl⟩

/-- A symbol that is there has not been used, if it is not used later on. -/
theorem mem_unusedSymbols_of_extends {first last : Node}
    (hextends : (({} : Analyzer).run first.walk).table.Extends
      (({} : Analyzer).run last.walk).table) {symbol : Symbol}
    (hsymbol : symbol ∈ (analyze first).symbols)
    (hunused : symbol ∈ unusedSymbols last) : symbol ∈ unusedSymbols first := by
  obtain ⟨id, hid⟩ : ∃ id : Nat,
      (({} : Analyzer).run first.walk).table.symbols[id]? = some symbol :=
    List.mem_iff_getElem?.mp hsymbol
  obtain ⟨other, later, hother, hlater, hflag⟩ :=
    mem_unusedSymbols_iff.mp hunused
  have hsame : other = id := by
    have hnodup : (analyze last).symbols.Nodup := by
      rw [analyze_symbols]
      exact .of_map _ (declared_nodup _)
    have hkept : (analyze last).symbols[id]? = some symbol := by
      obtain ⟨rest, hrest⟩ := hextends.symbols
      change (({} : Analyzer).run last.walk).table.symbols[id]? = _
      rwa [← hrest, List.getElem?_append_left
        (List.getElem?_eq_some_iff.mp hid).1]
    have hlt := (List.getElem?_eq_some_iff.mp hother).1
    exact (List.getElem?_inj hlt hnodup).mp (hother.trans hkept.symm)
  subst hsame
  have hlength :
      other < (({} : Analyzer).run first.walk).table.usages.length := by
    rw [first.walk_recorded.mirrors.wellFormed.usages]
    exact (List.getElem?_eq_some_iff.mp hid).1
  obtain ⟨found, hfound, hused, -⟩ :=
    hextends.usages other _ (List.getElem?_eq_getElem hlength)
  obtain rfl := Option.some.inj (hlater.symm.trans hfound)
  refine mem_unusedSymbols_iff.mpr
    ⟨other, _, hid, List.getElem?_eq_getElem hlength, ?_⟩
  rw [Bool.eq_false_iff]
  intro hmarked
  exact absurd (hused hmarked) (by simp [hflag])

/-- Statements that are added at the end of a program never rewrite what has
been found before.  Errors and symbols stay and may be followed by others.  The
scopes stay, and only the global one may get more symbols.  The warnings are
those of the unused symbols, and a symbol of the shorter program that is not
used in the longer one is not used in the shorter one.  The code stays and goes
on. -/
theorem analyze_append_statements (first second : List Node)
    (place other : Option Position) :
    let shorter : Node := .compound .program first place
    let longer : Node := .compound .program (first ++ second) other
    (analyze shorter).errors <+: (analyze longer).errors ∧
      (analyze shorter).symbols <+: (analyze longer).symbols ∧
      (∀ id scope, (analyze shorter).scopes[id]? = some scope →
        ∃ added, (analyze longer).scopes[id]? =
            some { scope with symbols := scope.symbols ++ added } ∧
          (id ≠ 0 → added = [])) ∧
      (analyze shorter).warnings =
        (unusedSymbols shorter).map Symbol.warning ∧
      (analyze longer).warnings =
        (unusedSymbols longer).map Symbol.warning ∧
      (∀ symbol ∈ (analyze shorter).symbols,
        symbol ∈ unusedSymbols longer → symbol ∈ unusedSymbols shorter) ∧
      generate shorter <+: generate longer := by
  intro shorter longer
  have hwalk : longer.walk = shorter.walk ++ Node.walkAll second :=
    Node.walkAll_append first second
  have hrun : ({} : Analyzer).run longer.walk =
      (({} : Analyzer).run shorter.walk).run (Node.walkAll second) := by
    rw [hwalk, Analyzer.run_append]
  have hstack : (({} : Analyzer).run shorter.walk).table.stack = [0] := by
    have hreverse := shorter.walk_recorded.mirrors.stack
    rw [List.reverse_eq_iff] at hreverse
    exact hreverse
  have hextends : (({} : Analyzer).run shorter.walk).table.Extends
      (({} : Analyzer).run longer.walk).table := by
    rw [hrun]
    exact (SymbolTable.Extends.refl (by simp [hstack])).run _
  refine ⟨?_, hextends.symbols, ?_, analyze_warnings shorter,
    analyze_warnings longer, fun symbol hsymbol =>
      mem_unusedSymbols_of_extends hextends hsymbol, ?_⟩
  · rw [analyze_errors, analyze_errors, hrun]
    exact Analyzer.diagnostics_prefix_run _ _
  · intro id scope hscope
    obtain ⟨added, hadded, hclosed⟩ := hextends.scopes id scope hscope
    refine ⟨added, hadded, fun hid => hclosed ?_⟩
    simpa [hstack] using hid
  · change (Node.lowerAll first 0).code <+:
      (Node.lowerAll (first ++ second) 0).code
    rw [Node.lowerAll_append]
    exact List.prefix_append _ _

end ThreeAddress
