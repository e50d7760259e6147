import Mathlib.Data.List.Induction
import ThreeAddress.Diagnostic
import ThreeAddress.Proofs.Shape
import ThreeAddress.Symbol

/-!
Lexical scoping, told from the tree alone.  The nodes of a tree are visited one
after another, each inside some scopes: the conditional statements around it,
numbered in the order in which they are visited, and the global scope.  What a
name means at a visit is told by the declarations visited before.
-/

namespace ThreeAddress

/-- A node on a visit, and the scopes that it stands in, from the inside out. -/
structure Visit where
  node : Node
  scopes : List Nat
deriving Repr

namespace Node

def countConditionals (nodes : List Node) : Nat :=
  nodes.countP isConditional

mutual

/-- The visits of a tree inside the given scopes: a node before its children,
and these from left to right.  A conditional statement is a scope around its
condition and its body; its number is `fresh`, if it is the first. -/
def visits : Node → (scopes : List Nat) → (fresh : Nat) → List Visit
  | compound form statements position, scopes, fresh =>
      ⟨compound form statements position, scopes⟩ ::
        visitsAll statements scopes fresh
  | declaration ty name initializer position, scopes, fresh =>
      ⟨declaration ty name initializer position, scopes⟩ ::
        visitsOption initializer scopes fresh
  | assignment target value position, scopes, fresh =>
      ⟨assignment target value position, scopes⟩ ::
        visitsOption value scopes fresh
  | conditional form condition body position, scopes, fresh =>
      ⟨conditional form condition body position, scopes⟩ ::
        (visitsOption condition (fresh :: scopes) (fresh + 1) ++
          visitsOption body (fresh :: scopes)
            (fresh + 1 + countConditionals (preorderOption condition)))
  | result value position, scopes, fresh =>
      ⟨result value position, scopes⟩ :: visitsOption value scopes fresh
  | binary operator left right position, scopes, fresh =>
      ⟨binary operator left right position, scopes⟩ ::
        (left.visits scopes fresh ++
          right.visits scopes (fresh + countConditionals left.preorder))
  | identifier text position, scopes, _ => [⟨identifier text position, scopes⟩]
  | literal text position, scopes, _ => [⟨literal text position, scopes⟩]

def visitsAll : List Node → (scopes : List Nat) → (fresh : Nat) → List Visit
  | [], _, _ => []
  | node :: rest, scopes, fresh =>
      node.visits scopes fresh ++
        visitsAll rest scopes (fresh + countConditionals node.preorder)

def visitsOption : Option Node → (scopes : List Nat) → (fresh : Nat) →
    List Visit
  | none, _, _ => []
  | some node, scopes, fresh => node.visits scopes fresh

end

mutual

/-- Nodes are visited in the order of the tree. -/
theorem visits_map_node (node : Node) (scopes : List Nat) (fresh : Nat) :
    (node.visits scopes fresh).map Visit.node = node.preorder := by
  cases node with
  | compound form statements position =>
      simp [visits, preorder, visitsAll_map_node statements]
  | declaration ty name initializer position =>
      simp [visits, preorder, visitsOption_map_node initializer]
  | assignment target value position =>
      simp [visits, preorder, visitsOption_map_node value]
  | conditional form condition body position =>
      simp [visits, preorder, visitsOption_map_node condition,
        visitsOption_map_node body]
  | result value position =>
      simp [visits, preorder, visitsOption_map_node value]
  | binary operator left right position =>
      simp [visits, preorder, visits_map_node left, visits_map_node right]
  | identifier text position => rfl
  | literal text position => rfl

theorem visitsAll_map_node (nodes : List Node) (scopes : List Nat)
    (fresh : Nat) :
    (visitsAll nodes scopes fresh).map Visit.node = preorderAll nodes := by
  cases nodes with
  | nil => rfl
  | cons node rest =>
      simp [visitsAll, preorderAll, visits_map_node node,
        visitsAll_map_node rest]

theorem visitsOption_map_node (node : Option Node) (scopes : List Nat)
    (fresh : Nat) :
    (visitsOption node scopes fresh).map Visit.node = preorderOption node := by
  cases node with
  | none => rfl
  | some node => exact visits_map_node node scopes fresh

end

end Node

/-- The symbol of a declaration, owned by the innermost scope that the
declaration stands in. -/
def Visit.symbol? (visit : Visit) : Option Symbol :=
  match visit.node, visit.scopes with
  | .declaration ty name initializer position, scope :: _ =>
      some ⟨name.text, ty, scope,
        (Node.declaration ty name initializer position).line,
        initializer.bind Node.literalText?⟩
  | _, _ => none

/-- Whether a visit is one of a declaration of the name directly in the
scope. -/
def Visit.declares (visit : Visit) (name : String) (scope : Nat) : Bool :=
  visit.symbol?.any fun symbol => symbol.scope == scope && symbol.name == name

theorem Visit.exists_symbol_of_find? {visits : List Visit} {name : String}
    {scope : Nat} {first : Visit}
    (hfirst : (visits.find? fun visit => visit.declares name scope) =
      some first) : ∃ symbol, first.symbol? = some symbol := by
  have hdeclares : first.declares name scope = true := by
    simpa using List.find?_some hfirst
  obtain ⟨symbol, hsymbol, _⟩ := (Option.any_eq_true _ _).mp hdeclares
  exact ⟨symbol, hsymbol⟩

/-- The number is that of the symbol of the declaration. -/
def Visit.Denotes (symbols : List Symbol) (declaration : Visit) (id : Nat) :
    Prop :=
  ∃ symbol, declaration.symbol? = some symbol ∧ symbols[id]? = some symbol

theorem Visit.Denotes.mono {symbols others : List Symbol}
    {declaration : Visit} {id : Nat}
    (hdenotes : Visit.Denotes symbols declaration id)
    (hsymbols : symbols <+: others) : Visit.Denotes others declaration id := by
  obtain ⟨symbol, hsymbol, hid⟩ := hdenotes
  obtain ⟨rest, rfl⟩ := hsymbols
  refine ⟨symbol, hsymbol, ?_⟩
  rwa [List.getElem?_append_left (List.getElem?_eq_some_iff.mp hid).1]

/-- A name where it is used, with its line and the problem that there is if it
is not declared. -/
structure Use where
  name : String
  line : Nat
  problem : Problem
deriving DecidableEq, Repr

/-- Identifiers and the targets of assignments are used names. -/
def Node.use? : Node → Option Use
  | assignment target value position =>
      some ⟨target.text, (assignment target value position).line,
        .assignedUndeclared target.text⟩
  | identifier text position =>
      some ⟨text, (identifier text position).line, .undeclared text⟩
  | _ => none

/-- A visit together with those before it. -/
structure Occurrence where
  earlier : List Visit
  visit : Visit
deriving Repr

/-- The occurrences of some visits, which come after `earlier`. -/
def occurrences (earlier : List Visit) : List Visit → List Occurrence
  | [] => []
  | visit :: rest => ⟨earlier, visit⟩ :: occurrences (earlier ++ [visit]) rest

theorem occurrences_append (earlier first second : List Visit) :
    occurrences earlier (first ++ second) =
      occurrences earlier first ++ occurrences (earlier ++ first) second := by
  induction first generalizing earlier with
  | nil => simp [occurrences]
  | cons visit rest ih => simp [occurrences, ih]

namespace Occurrence

/-- No declaration of the name visited before lies directly in one of the
scopes. -/
def Undeclared (occurrence : Occurrence) (name : String) : Prop :=
  ∀ declaration ∈ occurrence.earlier, ∀ scope ∈ occurrence.visit.scopes,
    declaration.declares name scope = false

instance (occurrence : Occurrence) (name : String) :
    Decidable (occurrence.Undeclared name) :=
  inferInstanceAs (Decidable (∀ declaration ∈ occurrence.earlier,
    ∀ scope ∈ occurrence.visit.scopes, declaration.declares name scope = false))

/-- The declaration that a name refers to: the first one of that name in the
innermost scope that has one. -/
def binding? (occurrence : Occurrence) (name : String) : Option Visit :=
  occurrence.visit.scopes.findSome? fun scope =>
    occurrence.earlier.find? fun visit => visit.declares name scope

theorem binding?_eq_none_iff {occurrence : Occurrence} {name : String} :
    occurrence.binding? name = none ↔ occurrence.Undeclared name := by
  simp only [binding?, List.findSome?_eq_none_iff, List.find?_eq_none,
    Bool.not_eq_true, Undeclared]
  exact ⟨fun hnone declaration hdeclaration scope hscope =>
    hnone scope hscope declaration hdeclaration,
    fun hnone scope hscope declaration hdeclaration =>
      hnone declaration hdeclaration scope hscope⟩

/-- What is to be reported at an occurrence if it uses an undeclared name. -/
def report? (occurrence : Occurrence) : Option Diagnostic :=
  occurrence.visit.node.use?.bind fun use =>
    if occurrence.Undeclared use.name then some ⟨use.problem, use.line⟩
    else none

/-- The symbol that a declaration brings in, if it is the first of its name
directly in its scope. -/
def symbol? (occurrence : Occurrence) : Option Symbol :=
  occurrence.visit.symbol?.filter fun symbol =>
    !occurrence.earlier.any fun visit =>
      visit.declares symbol.name symbol.scope

theorem symbol?_eq_some_iff {occurrence : Occurrence} {symbol : Symbol} :
    occurrence.symbol? = some symbol ↔
      occurrence.visit.symbol? = some symbol ∧
        (occurrence.earlier.find? fun visit =>
          visit.declares symbol.name symbol.scope) = none := by
  rw [symbol?, Option.filter_eq_some_iff, List.find?_eq_none,
    Bool.not_eq_true', List.any_eq_false]

def isUse (occurrence : Occurrence) : Bool :=
  occurrence.visit.node.use?.isSome

/-- Looking up a name at an occurrence finds what it refers to: nothing, or the
symbol of the declaration. -/
def Resolves (occurrence : Occurrence) (name : String)
    (symbols : List Symbol) (found : Option Nat) : Prop :=
  Option.Rel (Visit.Denotes symbols) (occurrence.binding? name) found

theorem Resolves.eq_none_iff {occurrence : Occurrence} {name : String}
    {symbols : List Symbol} {found : Option Nat}
    (hresolves : occurrence.Resolves name symbols found) :
    found = none ↔ occurrence.Undeclared name := by
  rw [← binding?_eq_none_iff]
  unfold Resolves at hresolves
  generalize occurrence.binding? name = binding at hresolves ⊢
  cases hresolves with
  | some hdenotes => simp
  | none => simp

theorem Resolves.mono {occurrence : Occurrence} {name : String}
    {symbols others : List Symbol} {found : Option Nat}
    (hresolves : occurrence.Resolves name symbols found)
    (hsymbols : symbols <+: others) :
    occurrence.Resolves name others found := by
  unfold Resolves at hresolves ⊢
  generalize occurrence.binding? name = binding at hresolves ⊢
  cases hresolves with
  | some hdenotes => exact .some (hdenotes.mono hsymbols)
  | none => exact .none

/-- What the used name is found to stand for, in a list of symbols. -/
def Finds (symbols : List Symbol) (occurrence : Occurrence)
    (found : Option Nat) : Prop :=
  ∃ use ∈ occurrence.visit.node.use?,
    occurrence.Resolves use.name symbols found

theorem Finds.mono {symbols others : List Symbol}
    {occurrence : Occurrence} {found : Option Nat}
    (hfinds : Finds symbols occurrence found) (hsymbols : symbols <+: others) :
    Finds others occurrence found := by
  obtain ⟨use, huse, hresolves⟩ := hfinds
  exact ⟨use, huse, hresolves.mono hsymbols⟩

end Occurrence

/-- The symbols that some visits bring in. -/
def declared (visits : List Visit) : List Symbol :=
  (occurrences [] visits).filterMap Occurrence.symbol?

theorem declared_append_singleton (visits : List Visit) (visit : Visit) :
    declared (visits ++ [visit]) =
      declared visits ++ (Occurrence.symbol? ⟨visits, visit⟩).toList := by
  rw [declared, occurrences_append, List.filterMap_append]
  cases hsymbol : Occurrence.symbol? ⟨visits, visit⟩ <;>
    simp [declared, occurrences, hsymbol]

theorem declared_mono (visits others : List Visit) :
    declared visits <+: declared (visits ++ others) := by
  rw [declared, declared, occurrences_append, List.filterMap_append]
  exact List.prefix_append _ _

/-- The first symbol of a name in a scope is that of the first declaration of
the name there. -/
theorem declared_find? (visits : List Visit) (name : String) (scope : Nat) :
    ((declared visits).find? fun symbol =>
        symbol.scope == scope && symbol.name == name) =
      (visits.find? fun visit => visit.declares name scope).bind
        Visit.symbol? := by
  induction visits using List.reverseRecOn with
  | nil => rfl
  | append_singleton visits visit ih =>
      rw [declared_append_singleton, List.find?_append, ih, List.find?_append]
      cases hearlier : visits.find? fun visit => visit.declares name scope with
      | some first =>
          obtain ⟨symbol, hsymbol⟩ := Visit.exists_symbol_of_find? hearlier
          simp [hsymbol]
      | none =>
          cases hsymbol : visit.symbol? with
          | none => simp [Occurrence.symbol?, Visit.declares, hsymbol]
          | some symbol =>
              by_cases htest :
                  (symbol.scope == scope && symbol.name == name) = true
              · have hnames := htest
                simp only [Bool.and_eq_true, beq_iff_eq] at hnames
                obtain ⟨rfl, rfl⟩ := hnames
                have hfirst :
                    Occurrence.symbol? ⟨visits, visit⟩ = some symbol :=
                  Occurrence.symbol?_eq_some_iff.mpr ⟨hsymbol, hearlier⟩
                simp [hfirst, Visit.declares, hsymbol]
              · cases hfirst : Occurrence.symbol? ⟨visits, visit⟩ with
                | none => simp [Visit.declares, hsymbol, htest]
                | some found =>
                    have hfound := (Occurrence.symbol?_eq_some_iff.mp hfirst).1
                    obtain rfl := Option.some.inj (hsymbol.symm.trans hfound)
                    simp [Visit.declares, hsymbol, htest]

/-- No two symbols share their name and their owner. -/
theorem declared_nodup (visits : List Visit) :
    ((declared visits).map fun symbol => (symbol.name, symbol.scope)).Nodup := by
  induction visits using List.reverseRecOn with
  | nil => exact List.nodup_nil
  | append_singleton visits visit ih =>
      rw [declared_append_singleton]
      cases hsymbol : Occurrence.symbol? ⟨visits, visit⟩ with
      | none => simpa using ih
      | some symbol =>
          rw [List.map_append, List.nodup_append]
          refine ⟨ih, by simp, ?_⟩
          intro pair hpair other hother heq
          subst heq
          simp only [Option.toList_some, List.map_cons, List.map_nil,
            List.mem_singleton] at hother
          subst hother
          obtain ⟨found, hfound, hnames⟩ := List.mem_map.mp hpair
          have hfind := declared_find? visits symbol.name symbol.scope
          rw [(Occurrence.symbol?_eq_some_iff.mp hsymbol).2, Option.bind_none,
            List.find?_eq_none] at hfind
          have hnot := hfind found hfound
          simp only [Prod.mk.injEq] at hnames
          simp [hnames] at hnot

end ThreeAddress
