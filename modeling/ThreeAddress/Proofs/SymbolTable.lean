import ThreeAddress.Symbol.Table

/-!
What holds of every symbol table, and what looking up a name means there.  The
scopes have their own numbers, each lists the symbols that it owns, and the open
scopes lead from the innermost to the global one along their parents.  So the
walk from parent to parent goes through the open scopes and nothing else.
-/

namespace ThreeAddress

namespace SymbolTable

/-- The numbers of the symbols that a scope owns, in order of declaration. -/
def owned (symbols : List Symbol) (scope : Nat) : List Nat :=
  (List.range symbols.length).filter fun id =>
    symbols[id]?.any fun symbol => symbol.scope == scope

def parentOf (table : SymbolTable) (scope : Nat) : Option Nat :=
  table.scopes[scope]?.bind Scope.parent

/-- Scopes from the inside out: each has the next one around it, and the last
one is the global scope. -/
def Linked (parentOf : Nat → Option Nat) : List Nat → Prop
  | [] => False
  | [scope] => scope = 0
  | scope :: outer :: rest =>
      parentOf scope = some outer ∧ Linked parentOf (outer :: rest)

/-- A scope as it stands in a table under the given number. -/
structure ScopeAt (symbols : List Symbol) (index : Nat) (scope : Scope) :
    Prop where
  id : scope.id = index
  symbols : scope.symbols = owned symbols index
  parent : scope.parent = none ↔ index = 0
  outer : ∀ outer ∈ scope.parent, outer < index

/-- The invariant of symbol tables. -/
structure WellFormed (table : SymbolTable) : Prop where
  usages : table.usages.length = table.symbols.length
  global : 0 < table.scopes.length
  scopes : ∀ index scope, table.scopes[index]? = some scope →
    ScopeAt table.symbols index scope
  owners : ∀ symbol ∈ table.symbols, symbol.scope < table.scopes.length
  linked : Linked table.parentOf table.stack.reverse

theorem owned_append (symbols : List Symbol) (symbol : Symbol) (scope : Nat) :
    owned (symbols ++ [symbol]) scope = owned symbols scope ++
      if symbol.scope = scope then [symbols.length] else [] := by
  have hold : ∀ id ∈ List.range symbols.length,
      ((symbols ++ [symbol])[id]?.any fun symbol => symbol.scope == scope) =
        symbols[id]?.any fun symbol => symbol.scope == scope := by
    intro id hid
    rw [List.getElem?_append_left (List.mem_range.mp hid)]
  rw [owned, List.length_append, List.length_singleton, List.range_succ,
    List.filter_append, List.filter_congr hold, owned]
  by_cases hscope : symbol.scope = scope <;> simp [hscope]

/-- The first symbol that a scope owns with some property is the first of all
symbols with that property and that owner. -/
theorem owned_find? (symbols : List Symbol) (scope : Nat)
    (test : Symbol → Bool) :
    (owned symbols scope).find? (fun id => symbols[id]?.any test) =
      symbols.findIdx? fun symbol => symbol.scope == scope && test symbol := by
  rw [owned, List.find?_filter]
  cases hfound : symbols.findIdx? fun symbol =>
      symbol.scope == scope && test symbol with
  | none =>
      rw [List.find?_range_eq_none]
      intro id hid
      have hnone := List.of_findIdx?_eq_none hfound id
      rw [List.getElem?_eq_getElem hid] at hnone ⊢
      simpa [Decidable.imp_iff_not_or] using hnone
  | some id =>
      obtain ⟨hlength, hid, hbefore⟩ :=
        List.findIdx?_eq_some_iff_getElem.mp hfound
      rw [List.find?_range_eq_some]
      refine ⟨?_, List.mem_range.mpr hlength, ?_⟩
      · simpa [List.getElem?_eq_getElem hlength] using hid
      · intro other hother
        have hnot := hbefore other hother
        have hlength' : other < symbols.length := Nat.lt_trans hother hlength
        simpa [List.getElem?_eq_getElem hlength', Decidable.imp_iff_not_or]
          using hnot

theorem Linked.mono {first second : Nat → Option Nat}
    (hmono : ∀ scope outer, first scope = some outer →
      second scope = some outer) {scopes : List Nat}
    (hlinked : Linked first scopes) : Linked second scopes := by
  induction scopes with
  | nil => exact hlinked
  | cons scope rest ih =>
      cases rest with
      | nil => exact hlinked
      | cons outer rest =>
          exact ⟨hmono scope outer hlinked.1, ih hlinked.2⟩

namespace WellFormed

variable {table : SymbolTable}

theorem parentOf_lt (htable : table.WellFormed) {scope outer : Nat}
    (hparent : table.parentOf scope = some outer) :
    outer < scope ∧ scope < table.scopes.length := by
  obtain ⟨found, hfound, houter⟩ := Option.bind_eq_some_iff.mp hparent
  exact ⟨(htable.scopes scope found hfound).outer outer houter,
    (List.getElem?_eq_some_iff.mp hfound).1⟩

theorem parentOf_global (htable : table.WellFormed) :
    table.parentOf 0 = none := by
  rw [parentOf, List.getElem?_eq_getElem htable.global]
  exact (htable.scopes 0 _ (List.getElem?_eq_getElem htable.global)).parent.mpr
    rfl

/-- Every scope on the way outwards exists. -/
theorem linked_lt (htable : table.WellFormed) {scope : Nat}
    {scopes : List Nat} (hlinked : Linked table.parentOf (scope :: scopes)) :
    scope < table.scopes.length := by
  cases scopes with
  | nil =>
      rw [show scope = 0 from hlinked]
      exact htable.global
  | cons outer rest => exact (htable.parentOf_lt hlinked.1).2

theorem linked_forall_lt (htable : table.WellFormed) {scopes : List Nat}
    (hlinked : Linked table.parentOf scopes) :
    ∀ scope ∈ scopes, scope < table.scopes.length := by
  induction scopes with
  | nil => simp
  | cons scope rest ih =>
      intro other hother
      rcases List.mem_cons.mp hother with rfl | hother
      · exact htable.linked_lt hlinked
      · cases rest with
        | nil => simp at hother
        | cons outer rest => exact ih hlinked.2 other hother

/-- The walk from parent to parent goes through linked scopes to their end,
when it may take as many steps as the first number says. -/
theorem enclosing_eq (htable : table.WellFormed) {scope : Nat}
    {scopes : List Nat} (hlinked : Linked table.parentOf (scope :: scopes))
    {bound : Nat} (hbound : scope < bound) :
    table.enclosing bound scope = scope :: scopes := by
  induction scopes generalizing scope bound with
  | nil =>
      obtain ⟨bound, rfl⟩ : ∃ fewer, bound = fewer + 1 := ⟨bound - 1, by omega⟩
      have hnone := htable.parentOf_global
      rw [parentOf] at hnone
      rw [show scope = 0 from hlinked, enclosing, hnone]
  | cons outer rest ih =>
      obtain ⟨bound, rfl⟩ : ∃ fewer, bound = fewer + 1 := ⟨bound - 1, by omega⟩
      obtain ⟨hparent, hrest⟩ := hlinked
      have hlt := (htable.parentOf_lt hparent).1
      rw [parentOf] at hparent
      rw [enclosing, hparent]
      simp only
      rw [ih hrest (by omega)]

theorem stack_eq (htable : table.WellFormed) :
    ∃ rest, table.stack.reverse = table.current :: rest := by
  have hlinked := htable.linked
  cases hstack : table.stack.reverse with
  | nil =>
      rw [hstack] at hlinked
      exact hlinked.elim
  | cons scope rest =>
      refine ⟨rest, ?_⟩
      rw [current, List.getLast?_eq_head?_reverse, hstack]
      rfl

theorem current_lt (htable : table.WellFormed) :
    table.current < table.scopes.length := by
  obtain ⟨rest, hstack⟩ := htable.stack_eq
  have hlinked := htable.linked
  rw [hstack] at hlinked
  exact htable.linked_lt hlinked

/-- A name is looked up in the open scopes, from the inside out. -/
theorem resolve_eq (htable : table.WellFormed) (name : String) :
    table.resolve name =
      table.stack.reverse.findSome? (table.findIn name) := by
  obtain ⟨rest, hstack⟩ := htable.stack_eq
  have hlinked := htable.linked
  rw [hstack] at hlinked ⊢
  rw [resolve, htable.enclosing_eq hlinked htable.current_lt]

/-- In a scope a name stands for the first symbol of that name and owner. -/
theorem findIn_eq (htable : table.WellFormed) (name : String) {scope : Nat}
    (hscope : scope < table.scopes.length) :
    table.findIn name scope = table.symbols.findIdx? fun symbol =>
      symbol.scope == scope && symbol.name == name := by
  have hat := htable.scopes scope _ (List.getElem?_eq_getElem hscope)
  rw [findIn, List.getElem?_eq_getElem hscope, Option.bind_some, hat.symbols]
  exact owned_find? table.symbols scope fun symbol => symbol.name == name

end WellFormed

theorem start_wellFormed : start.WellFormed where
  usages := rfl
  global := Nat.zero_lt_one
  scopes := by
    intro index scope hscope
    cases index with
    | zero =>
        cases hscope
        exact ⟨rfl, rfl, by simp [Scope.global], by simp [Scope.global]⟩
    | succ index => simp [start] at hscope
  owners := by simp [start]
  linked := rfl

theorem push_wellFormed {table : SymbolTable} (htable : table.WellFormed)
    (kind : Scope.Kind) : (table.push kind).WellFormed where
  usages := htable.usages
  global := by simp [push]
  scopes := by
    intro index scope hscope
    simp only [push] at hscope
    rw [List.getElem?_append] at hscope
    split at hscope
    · exact htable.scopes index scope hscope
    · rename_i hge
      obtain rfl : index = table.scopes.length := by
        have hlt := (List.getElem?_eq_some_iff.mp hscope).1
        simp at hlt
        omega
      simp only [Nat.sub_self, List.getElem?_cons_zero,
        Option.some.injEq] at hscope
      subst hscope
      refine ⟨rfl, ?_, ?_, ?_⟩
      · symm
        simp only [push, owned]
        rw [List.filter_eq_nil_iff]
        intro id hid
        have hid := List.mem_range.mp hid
        have howner := htable.owners _ (List.getElem_mem hid)
        simp only [List.getElem?_eq_getElem hid, Option.any_some, beq_iff_eq]
        omega
      · have hglobal := htable.global
        simp only [reduceCtorEq, false_iff]
        omega
      · intro outer houter
        cases houter
        exact htable.current_lt
  owners := by
    intro symbol hsymbol
    have howner := htable.owners symbol hsymbol
    simp only [push, List.length_append, List.length_singleton]
    omega
  linked := by
    obtain ⟨rest, hstack⟩ := htable.stack_eq
    have hlinked := htable.linked
    have hold : ∀ scope outer, table.parentOf scope = some outer →
        (table.push kind).parentOf scope = some outer := by
      intro scope outer hparent
      have hlt := (htable.parentOf_lt hparent).2
      rw [parentOf] at hparent ⊢
      simp only [push]
      rwa [List.getElem?_append_left hlt]
    rw [hstack] at hlinked
    simp only [push, List.reverse_append, List.reverse_singleton,
      List.singleton_append, hstack]
    exact ⟨by simp [parentOf], hlinked.mono hold⟩

/-- The open scopes may be any that lead to the global one. -/
theorem WellFormed.withStack {table : SymbolTable}
    (htable : table.WellFormed) {stack : List Nat}
    (hlinked : Linked table.parentOf stack.reverse) :
    WellFormed { table with stack := stack } :=
  ⟨htable.usages, htable.global, htable.scopes, htable.owners, hlinked⟩

theorem pop_eq {table : SymbolTable} {scope outer : Nat} {rest : List Nat}
    (hstack : table.stack.reverse = scope :: outer :: rest) :
    table.pop = { table with stack := (outer :: rest).reverse } := by
  have hlength : 1 < table.stack.length := by
    rw [← List.length_reverse, hstack]
    simp
  have hdropped : table.stack.dropLast = (outer :: rest).reverse := by
    rw [← List.reverse_reverse table.stack.dropLast, ← List.tail_reverse,
      hstack]
    rfl
  rw [pop, if_pos hlength, hdropped]

theorem pop_wellFormed {table : SymbolTable} (htable : table.WellFormed) :
    table.pop.WellFormed := by
  have hlinked := htable.linked
  cases hstack : table.stack.reverse with
  | nil =>
      rw [hstack] at hlinked
      exact hlinked.elim
  | cons scope rest =>
      cases rest with
      | nil =>
          have hlength : ¬ 1 < table.stack.length := by
            rw [← List.length_reverse, hstack]
            simp
          rw [pop, if_neg hlength]
          exact htable
      | cons outer rest =>
          rw [hstack] at hlinked
          rw [pop_eq hstack]
          apply htable.withStack
          rw [List.reverse_reverse]
          exact hlinked.2

theorem declare_parentOf (table : SymbolTable) (symbol : Symbol)
    (initialized : Bool) :
    (table.declare symbol initialized).parentOf = table.parentOf := by
  funext scope
  simp only [parentOf, declare, List.getElem?_modify]
  split
  · cases table.scopes[scope]? <;> rfl
  · cases table.scopes[scope]? <;> rfl

theorem declare_wellFormed {table : SymbolTable} (htable : table.WellFormed)
    {symbol : Symbol} (hscope : symbol.scope < table.scopes.length)
    (initialized : Bool) :
    (table.declare symbol initialized).WellFormed where
  usages := by simp [declare, htable.usages]
  global := by simpa [declare] using htable.global
  scopes := by
    intro index scope hindex
    simp only [declare, List.getElem?_modify] at hindex
    cases hfound : table.scopes[index]? with
    | none => simp [hfound] at hindex
    | some found =>
        have hat := htable.scopes index found hfound
        rw [hfound] at hindex
        simp only [declare]
        by_cases howner : symbol.scope = index
        · simp only [howner, if_true, Option.map_eq_map, Option.map_some,
            Option.some.injEq] at hindex
          subst hindex
          refine ⟨hat.id, ?_, hat.parent, hat.outer⟩
          rw [owned_append, if_pos howner, hat.symbols]
        · simp only [howner, if_false, Option.map_eq_map, Option.map_some,
            Option.some.injEq] at hindex
          subst hindex
          refine ⟨hat.id, ?_, hat.parent, hat.outer⟩
          rw [owned_append, if_neg howner, hat.symbols, List.append_nil]
  owners := by
    intro other hother
    simp only [declare, List.mem_append, List.mem_singleton,
      List.length_modify] at hother ⊢
    rcases hother with hother | rfl
    · exact htable.owners other hother
    · exact hscope
  linked := by
    rw [declare_parentOf]
    exact htable.linked

/-- What has happened to the symbols may be any list of their number. -/
theorem WellFormed.withUsages {table : SymbolTable}
    (htable : table.WellFormed) {usages : List Usage}
    (hlength : usages.length = table.usages.length) :
    WellFormed { table with usages := usages } :=
  ⟨hlength.trans htable.usages, htable.global, htable.scopes, htable.owners,
    htable.linked⟩

theorem markUsed_wellFormed {table : SymbolTable} (htable : table.WellFormed)
    (id : Nat) : (table.markUsed id).WellFormed :=
  htable.withUsages (List.length_modify _ _ _)

theorem markInitialized_wellFormed {table : SymbolTable}
    (htable : table.WellFormed) (id : Nat) :
    (table.markInitialized id).WellFormed :=
  htable.withUsages (List.length_modify _ _ _)

end SymbolTable

end ThreeAddress
