import Mathlib.Data.List.Chain
import ThreeAddress.Proofs.SymbolTable

/-!
Symbol tables after any requests.  Each request that is carried out keeps a table
well formed, and one is refused exactly when it refers to a symbol or a scope
that the table lacks.  The search for a name is also told as a run that stops at
the first missing number: in a well-formed table the run ends, meets no missing
number, and finds the first symbol of the name in the innermost open scope that
has one.
-/

namespace ThreeAddress

namespace SymbolTable

/-- The table after some requests, unless one of them is refused. -/
def after (table : SymbolTable) : List Action → Except Missing SymbolTable
  | [] => .ok table
  | action :: rest =>
      match table.perform action with
      | .ok (_, next) => next.after rest
      | .error missing => .error missing

/-- What a request refers to by number. -/
def Action.reference? : Action → Option Missing
  | .declare entry _ => some (.scope entry.scope)
  | .symbol id => some (.symbol id)
  | .usage id => some (.symbol id)
  | .markUsed id => some (.symbol id)
  | .markInitialized id => some (.symbol id)
  | _ => none

/-- The table has no symbol or no scope of that number. -/
def Lacks (table : SymbolTable) : Missing → Prop
  | .symbol id => table.symbols.length ≤ id
  | .scope id => table.scopes.length ≤ id

/-- A symbol of the name is declared in the scope under the given number. -/
def Declares (table : SymbolTable) (name : String) (scope id : Nat) : Prop :=
  ∃ symbol, table.symbols[id]? = some symbol ∧ symbol.scope = scope ∧
    symbol.name = name

/-- The earliest symbol of a name in a scope, or none if the scope has none. -/
def EarliestIn (table : SymbolTable) (name : String) (scope : Nat) :
    Option Nat → Prop
  | some id => table.Declares name scope id ∧
      ∀ earlier < id, ¬table.Declares name scope earlier
  | none => ∀ id, ¬table.Declares name scope id

/-- The earliest symbol of a name in the innermost open scope that has one, or
none if no open scope has one. -/
def Innermost (table : SymbolTable) (name : String) : Option Nat → Prop
  | some id => ∃ outer scope inner, table.stack = outer ++ scope :: inner ∧
      table.EarliestIn name scope (some id) ∧
        ∀ other ∈ inner, table.EarliestIn name other none
  | none => ∀ scope ∈ table.stack, table.EarliestIn name scope none

/-- The first symbol of a name among the given numbers, read one after another.
A number without a symbol ends the search. -/
def searchAmong (table : SymbolTable) (name : String) :
    List Nat → Except Missing (Option Nat)
  | [] => .ok none
  | id :: rest =>
      match table.symbols[id]? with
      | none => .error (.symbol id)
      | some symbol =>
          if symbol.name = name then .ok (some id)
          else table.searchAmong name rest

/-- The first symbol of a name in a scope, which has to be there. -/
def searchIn (table : SymbolTable) (name : String) (scope : Nat) :
    Except Missing (Option Nat) :=
  match table.scopes[scope]? with
  | none => .error (.scope scope)
  | some found => table.searchAmong name found.symbols

/-- The search for a name from a scope outwards, without a bound: what it ends
in, if it ends. -/
inductive Search (table : SymbolTable) (name : String) :
    Option Nat → Except Missing (Option Nat) → Prop where
  | outside : Search table name none (.ok none)
  | failed {scope : Nat} {missing : Missing}
      (hfailed : table.searchIn name scope = .error missing) :
      Search table name (some scope) (.error missing)
  | found {scope id : Nat} (hfound : table.searchIn name scope = .ok (some id)) :
      Search table name (some scope) (.ok (some id))
  | outward {scope : Nat} {answer : Except Missing (Option Nat)}
      (hnone : table.searchIn name scope = .ok none)
      (houter : Search table name (table.parentOf scope) answer) :
      Search table name (some scope) answer

/-- What holds of the four lists of a table: the scopes have their places as
numbers and lie inside scopes with smaller numbers, the open scopes lead down to
the global one along their parents, and each symbol is listed once, by the scope
that owns it. -/
structure Consistent (table : SymbolTable) : Prop where
  usages : table.symbols.length = table.usages.length
  ids : ∀ (index : Nat) (scope : Scope), table.scopes[index]? = some scope →
    scope.id = index
  parents : ∀ (index : Nat) (scope : Scope),
    table.scopes[index]? = some scope → index ≠ 0 →
      ∃ outer < index, scope.parent = some outer
  bottom : table.stack.head? = some 0
  links : table.stack.IsChain fun lower upper =>
    table.parentOf upper = some lower
  increasing : ∀ scope ∈ table.scopes, scope.symbols.Pairwise (· < ·)
  listed : ∀ scope ∈ table.scopes, ∀ id ∈ scope.symbols,
    id < table.symbols.length
  owner : ∀ (id : Nat) (symbol : Symbol), table.symbols[id]? = some symbol →
    ∀ index, (∃ scope : Scope, table.scopes[index]? = some scope ∧
      id ∈ scope.symbols) ↔ index = symbol.scope

/-- Every request that is carried out keeps a table well formed. -/
theorem perform_wellFormed {table next : SymbolTable}
    (htable : table.WellFormed) {action : Action} {answer : Answer}
    (hperform : table.perform action = .ok (answer, next)) :
    next.WellFormed := by
  cases action with
  | reset =>
      cases hperform
      exact start_wellFormed
  | push kind =>
      cases hperform
      exact push_wellFormed htable kind
  | pop =>
      cases hperform
      exact pop_wellFormed htable
  | declare symbol initialized =>
      rw [perform] at hperform
      split at hperform
      · rename_i hscope
        cases hperform
        exact declare_wellFormed htable hscope initialized
      · contradiction
  | markUsed id =>
      rw [perform] at hperform
      split at hperform
      · cases hperform
        exact markUsed_wellFormed htable id
      · contradiction
  | markInitialized id =>
      rw [perform] at hperform
      split at hperform
      · cases hperform
        exact markInitialized_wellFormed htable id
      · contradiction
  | symbol id =>
      rw [perform] at hperform
      split at hperform
      · cases hperform
        exact htable
      · contradiction
  | usage id =>
      rw [perform] at hperform
      split at hperform
      · cases hperform
        exact htable
      · contradiction
  | lookupLocal name =>
      cases hperform
      exact htable
  | resolve name =>
      cases hperform
      exact htable
  | history =>
      cases hperform
      exact htable

/-- So do any number of requests. -/
theorem after_wellFormed {table last : SymbolTable}
    (htable : table.WellFormed) {actions : List Action}
    (hafter : table.after actions = .ok last) : last.WellFormed := by
  induction actions generalizing table with
  | nil =>
      cases hafter
      exact htable
  | cons action rest ih =>
      rw [after] at hafter
      split at hafter
      · rename_i answer next hperform
        exact ih (perform_wellFormed htable hperform) hafter
      · contradiction

theorem mem_owned_iff {symbols : List Symbol} {scope id : Nat} :
    id ∈ owned symbols scope ↔
      ∃ symbol, symbols[id]? = some symbol ∧ symbol.scope = scope := by
  rw [owned, List.mem_filter, List.mem_range, Option.any_eq_true]
  constructor
  · rintro ⟨-, symbol, hsymbol, hscope⟩
    exact ⟨symbol, hsymbol, by simpa using hscope⟩
  · rintro ⟨symbol, hsymbol, hscope⟩
    exact ⟨(List.getElem?_eq_some_iff.mp hsymbol).1, symbol, hsymbol,
      by simpa using hscope⟩

/-- Linked scopes are a chain of parents that ends in the global scope. -/
theorem Linked.isChain {parentOf : Nat → Option Nat} {scopes : List Nat}
    (hlinked : Linked parentOf scopes) :
    scopes.IsChain (fun inner outer => parentOf inner = some outer) ∧
      scopes.getLast? = some 0 := by
  induction scopes with
  | nil => exact hlinked.elim
  | cons scope rest ih =>
      cases rest with
      | nil => simpa [Linked] using hlinked
      | cons outer rest =>
          obtain ⟨hparent, hrest⟩ := hlinked
          obtain ⟨hchain, hlast⟩ := ih hrest
          exact ⟨List.IsChain.cons_cons hparent hchain, by simpa using hlast⟩

theorem searchAmong_eq {table : SymbolTable} {name : String}
    {ids : List Nat} (hids : ∀ id ∈ ids, id < table.symbols.length) :
    table.searchAmong name ids = .ok (ids.find? (table.isNamed name)) := by
  induction ids with
  | nil => rfl
  | cons id rest ih =>
      obtain ⟨hid, hrest⟩ := List.forall_mem_cons.mp hids
      have hsymbol := List.getElem?_eq_getElem hid
      by_cases hname : table.symbols[id].name = name
      · simp [searchAmong, isNamed, hsymbol, hname]
      · simp [searchAmong, isNamed, hsymbol, hname, ih hrest]

/-- A search ends in one way only. -/
theorem Search.unique {table : SymbolTable} {name : String}
    {scope : Option Nat} {first second : Except Missing (Option Nat)}
    (hfirst : Search table name scope first)
    (hsecond : Search table name scope second) : first = second := by
  induction hfirst with
  | outside =>
      cases hsecond
      rfl
  | failed hfailed => cases hsecond <;> simp_all
  | found hfound => cases hsecond <;> simp_all
  | outward hnone houter ih =>
      cases hsecond with
      | failed hfailed => simp [hnone] at hfailed
      | found hfound => simp [hnone] at hfound
      | outward hother hrest => exact ih hrest

/-- A request with a guard is refused when the guard fails. -/
theorem guarded_eq_error_iff {present : Prop} [Decidable present]
    {granted : Answer × SymbolTable} {reference missing : Missing} :
    (if present then Except.ok granted else .error reference) =
        .error missing ↔ reference = missing ∧ ¬present := by
  split <;> simp_all

namespace WellFormed

variable {table : SymbolTable}

/-- A well-formed table is consistent. -/
theorem consistent (htable : table.WellFormed) : table.Consistent where
  usages := htable.usages.symm
  ids index scope hscope := (htable.scopes index scope hscope).id
  parents index scope hscope hindex := by
    have hat := htable.scopes index scope hscope
    cases hparent : scope.parent with
    | none => exact absurd (hat.parent.mp hparent) hindex
    | some outer => exact ⟨outer, hat.outer outer hparent, rfl⟩
  bottom := by
    rw [← List.getLast?_reverse]
    exact htable.linked.isChain.2
  links := List.isChain_reverse.mp htable.linked.isChain.1
  increasing scope hscope := by
    obtain ⟨index, hindex⟩ := List.getElem?_of_mem hscope
    rw [(htable.scopes index scope hindex).symbols]
    exact List.pairwise_lt_range.filter _
  listed scope hscope id hid := by
    obtain ⟨index, hindex⟩ := List.getElem?_of_mem hscope
    rw [(htable.scopes index scope hindex).symbols, mem_owned_iff] at hid
    obtain ⟨symbol, hsymbol, -⟩ := hid
    exact (List.getElem?_eq_some_iff.mp hsymbol).1
  owner id symbol hsymbol index := by
    constructor
    · rintro ⟨scope, hscope, hid⟩
      rw [(htable.scopes index scope hscope).symbols, mem_owned_iff] at hid
      obtain ⟨found, hfound, rfl⟩ := hid
      rw [Option.some.inj (hsymbol.symm.trans hfound)]
    · rintro rfl
      have howner := htable.owners symbol (List.mem_of_getElem? hsymbol)
      have hscope := List.getElem?_eq_getElem howner
      refine ⟨_, hscope, ?_⟩
      rw [(htable.scopes symbol.scope _ hscope).symbols, mem_owned_iff]
      exact ⟨symbol, hsymbol, rfl⟩

/-- In a scope a name is found to be the earliest symbol of that name. -/
theorem findIn_earliest (htable : table.WellFormed) (name : String)
    {scope : Nat} (hscope : scope < table.scopes.length) :
    table.EarliestIn name scope (table.findIn name scope) := by
  have htest : ∀ id (symbol : Symbol), table.symbols[id]? = some symbol →
      (table.Declares name scope id ↔
        (symbol.scope == scope && symbol.name == name) = true) := by
    intro id symbol hsymbol
    simp [Declares, hsymbol]
  rw [htable.findIn_eq name hscope]
  cases hfound : table.symbols.findIdx? fun symbol =>
      symbol.scope == scope && symbol.name == name with
  | none =>
      rintro id ⟨symbol, hsymbol, hdeclares⟩
      have hnone := List.findIdx?_eq_none_iff.mp hfound symbol
        (List.mem_of_getElem? hsymbol)
      simp [hdeclares] at hnone
  | some id =>
      obtain ⟨hlength, hid, hbefore⟩ :=
        List.findIdx?_eq_some_iff_getElem.mp hfound
      refine ⟨(htest id _ (List.getElem?_eq_getElem hlength)).mpr hid, ?_⟩
      intro earlier hearlier hdeclares
      have hlt : earlier < table.symbols.length := Nat.lt_trans hearlier hlength
      exact hbefore earlier hearlier
        ((htest earlier _ (List.getElem?_eq_getElem hlt)).mp hdeclares)

/-- A name is found to be the earliest symbol in the innermost open scope that
has one. -/
theorem resolve_innermost (htable : table.WellFormed) (name : String) :
    table.Innermost name (table.resolve name) := by
  have hopen := htable.linked_forall_lt htable.linked
  have hresolve := htable.resolve_eq name
  cases hfound : table.resolve name with
  | none =>
      rw [hfound, eq_comm, List.findSome?_eq_none_iff] at hresolve
      intro scope hscope
      have hreverse := List.mem_reverse.mpr hscope
      rw [← hresolve scope hreverse]
      exact htable.findIn_earliest name (hopen scope hreverse)
  | some id =>
      rw [hfound, eq_comm, List.findSome?_eq_some_iff] at hresolve
      obtain ⟨inner, scope, outer, hstack, hid, hinner⟩ := hresolve
      rw [hstack] at hopen
      refine ⟨outer.reverse, scope, inner.reverse, ?_, ?_, ?_⟩
      · rw [← List.reverse_reverse table.stack, hstack]
        simp
      · rw [← hid]
        exact htable.findIn_earliest name (hopen scope (by simp))
      · intro other hother
        have hmem := List.mem_reverse.mp hother
        rw [← hinner other hmem]
        exact htable.findIn_earliest name (hopen other (by simp [hmem]))

/-- The search in a scope that is there meets no missing symbol. -/
theorem searchIn_eq (htable : table.WellFormed) (name : String) {scope : Nat}
    (hscope : scope < table.scopes.length) :
    table.searchIn name scope = .ok (table.findIn name scope) := by
  have hfound := List.getElem?_eq_getElem hscope
  rw [searchIn, findIn, hfound, Option.bind_some]
  exact searchAmong_eq
    (htable.consistent.listed _ (List.mem_of_getElem? hfound))

/-- The search from a scope outwards ends, and goes through the linked
scopes. -/
theorem search_linked (htable : table.WellFormed) (name : String)
    {scope : Nat} {scopes : List Nat}
    (hlinked : Linked table.parentOf (scope :: scopes)) :
    Search table name (some scope)
      (.ok ((scope :: scopes).findSome? (table.findIn name))) := by
  -- The way outwards gets shorter; on the last scope there is no parent.
  induction scopes generalizing scope with
  | nil =>
      have hsearch := htable.searchIn_eq name (htable.linked_lt hlinked)
      rw [List.findSome?_cons]
      cases hfound : table.findIn name scope with
      | some id => exact .found (hfound ▸ hsearch)
      | none =>
          refine .outward (hfound ▸ hsearch) ?_
          rw [show scope = 0 from hlinked, htable.parentOf_global]
          exact .outside
  | cons outer rest ih =>
      have hsearch := htable.searchIn_eq name (htable.linked_lt hlinked)
      rw [List.findSome?_cons]
      cases hfound : table.findIn name scope with
      | some id => exact .found (hfound ▸ hsearch)
      | none =>
          refine .outward (hfound ▸ hsearch) ?_
          rw [hlinked.1]
          exact ih hlinked.2

/-- The search for a name from the current scope ends in what the name is found
to be, and in nothing else. -/
theorem search_iff (htable : table.WellFormed) (name : String)
    (answer : Except Missing (Option Nat)) :
    Search table name (some table.current) answer ↔
      answer = .ok (table.resolve name) := by
  obtain ⟨rest, hstack⟩ := htable.stack_eq
  have hlinked := htable.linked
  rw [hstack] at hlinked
  have hsearch := htable.search_linked name hlinked
  rw [← hstack, ← htable.resolve_eq] at hsearch
  constructor
  · intro hanswer
    exact hanswer.unique hsearch
  · rintro rfl
    exact hsearch

/-- A request is refused exactly when it refers to something that the table
lacks. -/
theorem perform_eq_error_iff (htable : table.WellFormed) (action : Action)
    (missing : Missing) :
    table.perform action = .error missing ↔
      action.reference? = some missing ∧ table.Lacks missing := by
  have hreference : ∀ reference : Missing,
      (reference = missing ∧ table.Lacks reference ↔
        some reference = some missing ∧ table.Lacks missing) := by
    intro reference
    rw [Option.some.injEq]
    exact and_congr_right fun heq => by rw [heq]
  cases action with
  | declare symbol initialized =>
      rw [perform, guarded_eq_error_iff, Nat.not_lt]
      exact hreference (.scope symbol.scope)
  | markUsed id =>
      rw [perform, guarded_eq_error_iff, htable.usages, Nat.not_lt]
      exact hreference (.symbol id)
  | markInitialized id =>
      rw [perform, guarded_eq_error_iff, htable.usages, Nat.not_lt]
      exact hreference (.symbol id)
  | symbol id =>
      refine Iff.trans ?_ (hreference (.symbol id))
      rw [Lacks, ← List.getElem?_eq_none_iff, perform]
      split <;> simp_all
  | usage id =>
      refine Iff.trans ?_ (hreference (.symbol id))
      rw [Lacks, ← htable.usages, ← List.getElem?_eq_none_iff, perform]
      split <;> simp_all
  | _ => simp [perform, Action.reference?]

end WellFormed

/-- After any requests a table is consistent.  The search for a name ends without
a missing number, in the earliest symbol of the name in the innermost open scope
that has one; in the current scope alone the name is found to be the earliest
symbol there; and a request is refused exactly when it refers to a symbol or a
scope that is not there. -/
theorem after_start_consistent {actions : List Action} {table : SymbolTable}
    (hafter : start.after actions = .ok table) :
    table.Consistent ∧
      (∀ name,
        (∀ answer, Search table name (some table.current) answer ↔
          answer = .ok (table.resolve name)) ∧
        table.Innermost name (table.resolve name) ∧
        table.searchIn name table.current = .ok (table.lookupLocal name) ∧
        table.EarliestIn name table.current (table.lookupLocal name)) ∧
      table.stack.getLast? = some table.current ∧
      ∀ action missing, table.perform action = .error missing ↔
        action.reference? = some missing ∧ table.Lacks missing := by
  have htable := after_wellFormed start_wellFormed hafter
  obtain ⟨rest, hstack⟩ := htable.stack_eq
  refine ⟨htable.consistent, ?_, ?_, htable.perform_eq_error_iff⟩
  · intro name
    exact ⟨htable.search_iff name, htable.resolve_innermost name,
      htable.searchIn_eq name htable.current_lt,
      htable.findIn_earliest name htable.current_lt⟩
  · rw [List.getLast?_eq_head?_reverse, hstack]
    rfl

/-- A name declared in the global scope, in a scope that is closed, twice in the
scope that is open then, and once more in the closed one. -/
def reopening : List Action :=
  [.declare ⟨"x", .int, 0, 1, none⟩ true, .push (.conditional .ifThen),
    .declare ⟨"x", .float, 1, 2, none⟩ false, .pop, .pop,
    .push (.conditional .whileLoop), .declare ⟨"x", .char, 2, 3, none⟩ true,
    .declare ⟨"x", .int, 2, 4, none⟩ true,
    .declare ⟨"x", .int, 1, 5, none⟩ true, .markUsed 2, .markInitialized 1]

def reopened : SymbolTable where
  scopes := [⟨0, none, .global, [0]⟩, ⟨1, some 0, .conditional .ifThen, [1, 4]⟩,
    ⟨2, some 0, .conditional .whileLoop, [2, 3]⟩]
  symbols := [⟨"x", .int, 0, 1, none⟩, ⟨"x", .float, 1, 2, none⟩,
    ⟨"x", .char, 2, 3, none⟩, ⟨"x", .int, 2, 4, none⟩, ⟨"x", .int, 1, 5, none⟩]
  usages := [⟨false, true⟩, ⟨false, true⟩, ⟨true, true⟩, ⟨false, true⟩,
    ⟨false, true⟩]
  stack := [0, 2]

theorem reopened_consistent :
    start.after reopening = .ok reopened ∧ reopened.Consistent ∧
      reopened.resolve "x" = some 2 ∧ reopened.Innermost "x" (some 2) ∧
      reopened.perform (.markUsed 5) = .error (.symbol 5) := by
  have hafter : start.after reopening = .ok reopened := by rfl
  have hresolve : reopened.resolve "x" = some 2 := by decide
  obtain ⟨hconsistent, hnames, -, hrefused⟩ := after_start_consistent hafter
  have hinnermost := (hnames "x").2.1
  rw [hresolve] at hinnermost
  exact ⟨hafter, hconsistent, hresolve, hinnermost,
    (hrefused _ _).mpr ⟨rfl, by simp [Lacks, reopened]⟩⟩

end SymbolTable

end ThreeAddress
