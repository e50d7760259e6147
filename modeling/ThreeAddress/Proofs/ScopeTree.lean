import ThreeAddress.Proofs.Enclosure
import ThreeAddress.Proofs.Lookup
import ThreeAddress.Proofs.Scoping

/-!
The scopes of an analysis and the tree.  Every conditional statement opens one
scope when it is visited, inside the scope that it is visited in, and nothing
else opens one.  So the scopes are those of the conditional statements in the
order of the tree, each inside the scope of the nearest such statement around
it, and a symbol belongs to the scope of the nearest one around its declaration.
-/

namespace ThreeAddress

/-- What does not change in a scope once it is open: the scope around it, and
what opened it. -/
def Scope.frame (scope : Scope) : Option Nat × Scope.Kind :=
  (scope.parent, scope.kind)

/-- The frame of the scope that a visit opens. -/
def Visit.opened? (visit : Visit) : Option (Option Nat × Scope.Kind) :=
  match visit.node with
  | .conditional form _ _ _ =>
      some (visit.scopes.head?, .conditional form)
  | _ => none

theorem Visit.opened?_isSome (visit : Visit) :
    visit.opened?.isSome = visit.node.isConditional := by
  obtain ⟨node, scopes⟩ := visit
  cases node <;> rfl

theorem Visit.exists_of_opened? {visit : Visit}
    {frame : Option Nat × Scope.Kind} (hopened : visit.opened? = some frame) :
    ∃ form condition body position,
      visit.node = .conditional form condition body position ∧
        frame = (visit.scopes.head?, .conditional form) := by
  obtain ⟨node, scopes⟩ := visit
  cases node with
  | conditional form condition body position =>
      exact ⟨form, condition, body, position, rfl,
        (Option.some.inj hopened).symm⟩
  | _ => simp [opened?] at hopened

/-- A declaration is owned by the innermost scope, whatever is around it. -/
theorem Visit.symbol?_of_head? {visit : Visit} {scope : Nat}
    (hscope : visit.scopes.head? = some scope) :
    visit.symbol? = Visit.symbol? ⟨visit.node, [scope]⟩ := by
  obtain ⟨node, scopes⟩ := visit
  obtain ⟨outer, rfl⟩ := List.head?_eq_some_iff.mp hscope
  cases node <;> rfl

namespace SymbolTable

def frames (table : SymbolTable) : List (Option Nat × Scope.Kind) :=
  table.scopes.map Scope.frame

@[simp]
theorem frames_push (table : SymbolTable) (kind : Scope.Kind) :
    (table.push kind).frames = table.frames ++ [(some table.current, kind)] := by
  simp [frames, push, Scope.frame]

@[simp]
theorem frames_declare (table : SymbolTable) (symbol : Symbol)
    (initialized : Bool) :
    (table.declare symbol initialized).frames = table.frames := by
  refine List.ext_getElem? fun index => ?_
  simp only [frames, declare, List.getElem?_map, List.getElem?_modify]
  cases table.scopes[index]? with
  | none => rfl
  | some scope => split <;> rfl

/-- In a well-formed table a frame tells all of its scope. -/
theorem WellFormed.scopes_of_frames {table : SymbolTable}
    (htable : table.WellFormed) {id : Nat} {parent : Option Nat}
    {kind : Scope.Kind} (hframe : table.frames[id]? = some (parent, kind)) :
    table.scopes[id]? = some ⟨id, parent, kind, owned table.symbols id⟩ := by
  rw [frames, List.getElem?_map, Option.map_eq_some_iff] at hframe
  obtain ⟨scope, hscope, hframe⟩ := hframe
  have hat := htable.scopes id scope hscope
  obtain ⟨number, around, opener, listed⟩ := scope
  obtain ⟨rfl, rfl⟩ := Prod.mk.inj hframe
  obtain rfl : number = id := hat.id
  obtain rfl : listed = owned table.symbols number := hat.symbols
  exact hscope

end SymbolTable

namespace Analyzer

variable (analyzer : Analyzer)

theorem declare_frames (name : String) (ty : Ty) (line : Nat)
    (initialized : Bool) (literal : Option String) :
    (analyzer.declare name ty line initialized literal).table.frames =
      analyzer.table.frames := by
  unfold declare
  dsimp only
  split
  · rfl
  · exact SymbolTable.frames_declare _ _ _

theorem assign_frames (name : String) (line : Nat) (literal : Option String) :
    (analyzer.assign name line literal).table.frames =
      analyzer.table.frames := by
  unfold assign
  split
  · rfl
  · rw [checkAssigned_table]
    rfl

theorem use_frames (name : String) (line : Nat) :
    (analyzer.use name line).table.frames = analyzer.table.frames := by
  unfold use
  split
  · rfl
  · split <;> rfl

theorem apply_frames (operator : Operator) (left right : Operand)
    (line : Nat) :
    (analyzer.apply operator left right line).table.frames =
      analyzer.table.frames := by
  unfold apply
  dsimp only
  split <;> rfl

end Analyzer

namespace Mirrors

variable {analyzer : Analyzer} {site : Site} {earlier : List Visit}

/-- A move opens the scope of the visit that it is. -/
theorem frames_move {next : Site} {step : Option Step} {visit : Option Visit}
    (hmirrors : Mirrors analyzer.table site earlier)
    (hmove : Move site step visit next) :
    (analyzer.run step.toList).table.frames =
      analyzer.table.frames ++ visit.toList.filterMap Visit.opened? := by
  cases hmove with
  | pass site node hpassed =>
      cases node <;> simp_all [Visit.opened?, Node.isPassed]
  | declare site ty name initializer position =>
      exact (analyzer.declare_frames _ _ _ _ _).trans (List.append_nil _).symm
  | assign site target value position =>
      exact (analyzer.assign_frames _ _ _).trans (List.append_nil _).symm
  | use site text position =>
      exact (analyzer.use_frames _ _).trans (List.append_nil _).symm
  | apply site operator left right position =>
      exact (analyzer.apply_frames _ _ _ _).trans (List.append_nil _).symm
  | enter scopes fresh form condition body position =>
      obtain ⟨outer, hstack⟩ := hmirrors.wellFormed.stack_eq
      obtain rfl : scopes = analyzer.table.current :: outer :=
        hmirrors.stack.symm.trans hstack
      simp [Analyzer.run, Analyzer.step, Analyzer.update, Visit.opened?]
  | leave inner scope scopes fresh =>
      have hpop := SymbolTable.pop_eq hmirrors.stack
      simp [Analyzer.run, Analyzer.step, Analyzer.update, hpop,
        SymbolTable.frames]

/-- A route opens the scopes of its visits, one after another. -/
theorem frames_route {last : Site} {steps : List Step} {visits : List Visit}
    (hmirrors : Mirrors analyzer.table site earlier)
    (hroute : Route site steps visits last) :
    (analyzer.run steps).table.frames =
      analyzer.table.frames ++ visits.filterMap Visit.opened? := by
  induction hroute generalizing analyzer earlier with
  | refl site => simp
  | cons hmove hroute ih =>
      rw [Analyzer.run_append, ih (hmirrors.move hmove),
        hmirrors.frames_move hmove, List.filterMap_append, List.append_assoc]

end Mirrors

/-- The symbols that visits bring in are symbols of their declarations, in
order. -/
theorem declared_sublist (visits : List Visit) :
    (declared visits).Sublist (visits.filterMap Visit.symbol?) := by
  induction visits using List.reverseRecOn with
  | nil => exact List.Sublist.refl _
  | append_singleton visits visit ih =>
      rw [declared_append_singleton, List.filterMap_append]
      refine ih.append ?_
      cases hsymbol : Occurrence.symbol? ⟨visits, visit⟩ with
      | none => exact List.nil_sublist _
      | some symbol =>
          have hvisit := (Occurrence.symbol?_eq_some_iff.mp hsymbol).1
          simp [hvisit]

/-- A kept value comes from an element before which as many are kept as before
the value. -/
theorem exists_getElem?_of_filterMap {α β : Type} {keep : α → Option β}
    {values : List α} {id : Nat} {kept : β}
    (hkept : (values.filterMap keep)[id]? = some kept) :
    ∃ index value, values[index]? = some value ∧ keep value = some kept ∧
      (values.take index).countP (fun value => (keep value).isSome) = id := by
  induction values generalizing id with
  | nil => simp at hkept
  | cons value rest ih =>
      cases hvalue : keep value with
      | none =>
          rw [List.filterMap_cons_none hvalue] at hkept
          obtain ⟨index, found, hfound, hkeep, hcount⟩ := ih hkept
          exact ⟨index + 1, found, hfound, hkeep, by simpa [hvalue] using hcount⟩
      | some first =>
          rw [List.filterMap_cons_some hvalue] at hkept
          cases id with
          | zero => exact ⟨0, value, rfl, hvalue.trans hkept, rfl⟩
          | succ id =>
              obtain ⟨index, found, hfound, hkeep, hcount⟩ := ih hkept
              exact ⟨index + 1, found, hfound, hkeep,
                by simpa [hvalue] using hcount⟩

namespace Node

/-- The visit of the node at a place. -/
theorem visits_getElem? {root : Node} {index : Nat} {visit : Visit}
    (hvisit : (root.visits [0] 1)[index]? = some visit) :
    root.preorder[index]? = some visit.node ∧
      visit.scopes.head? = some (scopeWithin 0 1 root.preorder index) := by
  have hnode : root.preorder[index]? = some visit.node := by
    rw [← root.visits_map_node [0] 1, List.getElem?_map, hvisit]
    rfl
  have hscopes : ((root.visits [0] 1).map fun visit =>
      visit.scopes.head?) = (List.range root.preorder.length).map fun index =>
        some (scopeWithin 0 1 root.preorder index) :=
    root.visits_scopesTold 0 [] 1
  have hscope := congrArg (fun scopes => scopes[index]?) hscopes
  have hindex := (List.getElem?_eq_some_iff.mp hnode).1
  simp only [List.getElem?_map, hvisit, Option.map_some,
    List.getElem?_range hindex, Option.some.injEq] at hscope
  exact ⟨hnode, hscope⟩

/-- The symbols of the declarations of a tree, from their places. -/
theorem visits_filterMap_symbol? (root : Node) :
    (root.visits [0] 1).filterMap Visit.symbol? =
      root.preorder.zipIdx.filterMap fun entry =>
        Visit.symbol? ⟨entry.1, [scopeWithin 0 1 root.preorder entry.2]⟩ := by
  have hvisits : (root.visits [0] 1).filterMap Visit.symbol? =
      (root.visits [0] 1).zipIdx.filterMap fun entry => entry.1.symbol? := by
    rw [show (fun entry : Visit × Nat => entry.1.symbol?) =
      Visit.symbol? ∘ Prod.fst from rfl, ← List.filterMap_map,
      List.zipIdx_map_fst]
  have hnodes : root.preorder.zipIdx =
      (root.visits [0] 1).zipIdx.map (Prod.map Visit.node id) := by
    rw [← root.visits_map_node [0] 1, List.zipIdx_map]
  rw [hvisits, hnodes, List.filterMap_map]
  refine List.filterMap_congr fun entry hentry => ?_
  have hvisit := List.mem_zipIdx_iff_getElem?.mp hentry
  exact Visit.symbol?_of_head? (visits_getElem? hvisit).2

end Node

open Node (countConditionals scopeWithin)

/-- The scope tree of an analysis mirrors the tree.  There is the global scope,
and one for each conditional statement: the scopes are numbered as these
statements come, and each lies in the scope of the nearest conditional statement
around its own, or in the global one.  The symbols are those of declarations, in
order, each owned by the scope of the nearest conditional statement around its
declaration and listed there and nowhere else.  In the end the global scope
alone is open. -/
theorem analyze_scopes_mirror_tree (root : Node) :
    (analyze root).scopes.length = 1 + countConditionals root.preorder ∧
    (analyze root).scopes[0]? =
      some ⟨0, none, .global, SymbolTable.owned (analyze root).symbols 0⟩ ∧
    (∀ id, 0 < id → id < (analyze root).scopes.length →
      ∃ index form condition body position,
        root.preorder[index]? =
            some (.conditional form condition body position) ∧
          1 + countConditionals (root.preorder.take index) = id ∧
          (analyze root).scopes[id]? =
            some ⟨id, some (scopeWithin 0 1 root.preorder index),
              .conditional form,
              SymbolTable.owned (analyze root).symbols id⟩) ∧
    (analyze root).symbols.Sublist
      (root.preorder.zipIdx.filterMap fun entry =>
        Visit.symbol? ⟨entry.1, [scopeWithin 0 1 root.preorder entry.2]⟩) ∧
    (∀ id symbol, (analyze root).symbols[id]? = some symbol → ∀ index,
      (∃ scope : Scope, (analyze root).scopes[index]? = some scope ∧
        id ∈ scope.symbols) ↔ index = symbol.scope) ∧
    (({} : Analyzer).run root.walk).table.stack = [0] ∧
    (({} : Analyzer).run root.walk).table.current = 0 := by
  have hroute := root.walk_route 0 [] 1
  have hstart : Mirrors ({} : Analyzer).table ⟨[0], 1⟩ [] := Mirrors.start
  have hmirrors := hstart.route hroute
  have hframes := hstart.frames_route hroute
  refine ⟨hmirrors.count, ?_, ?_, ?_, hmirrors.wellFormed.consistent.owner,
    ?_, hmirrors.current_eq⟩
  · apply hmirrors.wellFormed.scopes_of_frames
    rw [hframes]
    rfl
  · intro id hpositive hid
    obtain ⟨id, rfl⟩ : ∃ before, id = before + 1 := ⟨id - 1, by omega⟩
    have hlength : id + 1 <
        (({} : Analyzer).run root.walk).table.frames.length := by
      rwa [SymbolTable.frames, List.length_map]
    have hframe := List.getElem?_eq_getElem hlength
    generalize (({} : Analyzer).run root.walk).table.frames[id + 1] = frame
      at hframe
    -- The scopes behind the global one come from the visits that open them.
    have hopened : ((root.visits [0] 1).filterMap Visit.opened?)[id]? =
        some frame := by
      rw [hframes] at hframe
      exact hframe
    obtain ⟨index, visit, hvisit, hfound, hcount⟩ :=
      exists_getElem?_of_filterMap hopened
    obtain ⟨hnode, hscope⟩ := Node.visits_getElem? hvisit
    obtain ⟨form, condition, body, position, hconditional, rfl⟩ :=
      Visit.exists_of_opened? hfound
    rw [hscope] at hframe
    refine ⟨index, form, condition, body, position, ?_, ?_,
      hmirrors.wellFormed.scopes_of_frames hframe⟩
    · rw [hnode, hconditional]
    · rw [← root.visits_map_node [0] 1, ← List.map_take, countConditionals,
        List.countP_map, ← hcount, Nat.add_comm]
      simp only [Visit.opened?_isSome]
      rfl
  · rw [← Node.visits_filterMap_symbol?]
    have hsymbols : (analyze root).symbols = declared (root.visits [0] 1) :=
      hmirrors.symbols
    rw [hsymbols]
    exact declared_sublist _
  · exact List.reverse_eq_iff.mp hmirrors.stack

/-- A loop whose condition and body are one and the same statement: the third
scope is that of its second place. -/
theorem analyze_scopes_mirror_tree_of_loop :
    let inner := Node.conditional .ifThen none
      (some (.declaration .int ⟨"x", none⟩ none none)) none
    let root := Node.conditional .whileLoop (some inner) (some inner) none
    0 < 3 ∧ 3 < (analyze root).scopes.length ∧
      ∃ index form condition body position,
        root.preorder[index]? =
            some (.conditional form condition body position) ∧
          1 + countConditionals (root.preorder.take index) = 3 ∧
          (analyze root).scopes[3]? =
            some ⟨3, some (scopeWithin 0 1 root.preorder index),
              .conditional form,
              SymbolTable.owned (analyze root).symbols 3⟩ :=
  ⟨by decide, by decide,
    (analyze_scopes_mirror_tree _).2.2.1 3 (by decide) (by decide)⟩

end ThreeAddress
