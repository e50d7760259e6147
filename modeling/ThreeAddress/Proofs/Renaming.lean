import ThreeAddress.Compilation
import ThreeAddress.Proofs.Children
import ThreeAddress.Proofs.Relabeling

/-!
What variables are called does not matter.  Renaming a tree renames the steps of
its walk, so that analysis finds the same scopes, the same symbols and the same
problems on the same lines, as long as no two names of the tree become one.
-/

namespace ThreeAddress

/-- A change of names alone. -/
def Relabeling.ofNames (change : String → String) : Relabeling :=
  ⟨change, id⟩

def Name.rename (change : String → String) (name : Name) : Name :=
  { name with text := change name.text }

namespace Node

mutual

/-- A tree with its names changed: those of declarations, of the targets of
assignments and of identifiers. -/
def rename (change : String → String) : Node → Node
  | compound form statements position =>
      compound form (renameAll change statements) position
  | declaration ty name initializer position =>
      declaration ty (name.rename change) (renameOption change initializer)
        position
  | assignment target value position =>
      assignment (target.rename change) (renameOption change value) position
  | conditional form condition body position =>
      conditional form (renameOption change condition)
        (renameOption change body) position
  | result value position => result (renameOption change value) position
  | binary operator left right position =>
      binary operator (left.rename change) (right.rename change) position
  | identifier text position => identifier (change text) position
  | literal text position => literal text position

def renameAll (change : String → String) : List Node → List Node
  | [] => []
  | node :: rest => node.rename change :: renameAll change rest

def renameOption (change : String → String) : Option Node → Option Node
  | none => none
  | some node => some (node.rename change)

end

/-- The name that a node declares, assigns to or is. -/
def name? : Node → Option String
  | declaration _ name _ _ => some name.text
  | assignment target _ _ => some target.text
  | identifier text _ => some text
  | _ => none

def names (root : Node) : List String :=
  root.preorder.filterMap name?

section Change

variable (change : String → String)

theorem renameOption_isSome (node : Option Node) :
    (renameOption change node).isSome = node.isSome := by
  cases node <;> rfl

theorem literalText?_rename (node : Node) :
    (node.rename change).literalText? = node.literalText? := by
  cases node <;> rfl

theorem renameOption_bind_literalText? (node : Option Node) :
    (renameOption change node).bind literalText? = node.bind literalText? := by
  cases node with
  | none => rfl
  | some node => exact literalText?_rename change node

theorem operand_rename (node : Node) :
    (node.rename change).operand =
      (Relabeling.ofNames change).operand node.operand := by
  cases node <;> rfl

mutual

/-- The walk through a renamed tree is the walk through the tree, renamed. -/
theorem walk_rename (node : Node) :
    (node.rename change).walk =
      node.walk.map (Relabeling.ofNames change).step := by
  cases node with
  | compound form statements position => exact walkAll_renameAll statements
  | declaration ty name initializer position =>
      simp [rename, walk, Name.rename, Relabeling.ofNames, Relabeling.step,
        line, Node.position, renameOption_isSome,
        renameOption_bind_literalText?, walkOption_renameOption initializer]
  | assignment target value position =>
      simp [rename, walk, Name.rename, Relabeling.ofNames, Relabeling.step,
        line, Node.position, renameOption_bind_literalText?,
        walkOption_renameOption value]
  | conditional form condition body position =>
      simp [rename, walk, Relabeling.step, walkOption_renameOption condition,
        walkOption_renameOption body]
  | result value position => exact walkOption_renameOption value
  | binary operator left right position =>
      simp [rename, walk, Relabeling.ofNames, Relabeling.step, line,
        Node.position,
        operand_rename, walk_rename left, walk_rename right]
  | identifier text position => rfl
  | literal text position => rfl

theorem walkAll_renameAll (nodes : List Node) :
    walkAll (renameAll change nodes) =
      (walkAll nodes).map (Relabeling.ofNames change).step := by
  cases nodes with
  | nil => rfl
  | cons node rest =>
      simp [renameAll, walkAll, walk_rename node, walkAll_renameAll rest]

theorem walkOption_renameOption (node : Option Node) :
    walkOption (renameOption change node) =
      (walkOption node).map (Relabeling.ofNames change).step := by
  cases node with
  | none => rfl
  | some node => exact walk_rename node

end

end Change

theorem mem_walkAll_iff {step : Step} {nodes : List Node} :
    step ∈ walkAll nodes ↔ ∃ node ∈ nodes, step ∈ node.walk := by
  induction nodes with
  | nil => simp [walkAll]
  | cons node rest ih => simp [walkAll, ih]

theorem mem_walkOption_iff {step : Step} {node : Option Node} :
    step ∈ walkOption node ↔ ∃ part ∈ node.toList, step ∈ part.walk := by
  cases node <;> simp [walkOption]

theorem operand_names (node : Node) :
    ∀ name ∈ node.operand.names, node.name? = some name := by
  cases node <;> simp [operand, Operand.names, name?]

/-- A step of the walk through a tree is one of the walk through a tree right
below, or it tells names of the root and of the nodes right below. -/
theorem mem_walk {node : Node} {step : Step} (hstep : step ∈ node.walk) :
    (∃ child ∈ node.children, step ∈ child.walk) ∨
      ∀ name ∈ step.names, node.name? = some name ∨
        ∃ child ∈ node.children, child.name? = some name := by
  cases node with
  | compound form statements position =>
      exact Or.inl (mem_walkAll_iff.mp hstep)
  | declaration ty name initializer position =>
      rcases List.mem_cons.mp hstep with rfl | hstep
      · exact Or.inr (by simp [Step.names, name?])
      · exact Or.inl (mem_walkOption_iff.mp hstep)
  | assignment target value position =>
      rcases List.mem_cons.mp hstep with rfl | hstep
      · exact Or.inr (by simp [Step.names, name?])
      · exact Or.inl (mem_walkOption_iff.mp hstep)
  | conditional form condition body position =>
      simp only [walk, List.mem_cons, List.mem_append, List.not_mem_nil,
        or_false, mem_walkOption_iff] at hstep
      rcases hstep with rfl | (⟨child, hchild, hstep⟩ | ⟨child, hchild, hstep⟩)
        | rfl
      · exact Or.inr (by simp [Step.names])
      · exact Or.inl ⟨child, List.mem_append_left _ hchild, hstep⟩
      · exact Or.inl ⟨child, List.mem_append_right _ hchild, hstep⟩
      · exact Or.inr (by simp [Step.names])
  | result value position => exact Or.inl (mem_walkOption_iff.mp hstep)
  | binary operator left right position =>
      simp only [walk, List.mem_append, List.mem_singleton] at hstep
      rcases hstep with (hstep | hstep) | rfl
      · exact Or.inl ⟨left, by simp [children], hstep⟩
      · exact Or.inl ⟨right, by simp [children], hstep⟩
      · refine Or.inr fun name hname => Or.inr ?_
        rcases List.mem_append.mp hname with hname | hname
        · exact ⟨left, by simp [children], left.operand_names name hname⟩
        · exact ⟨right, by simp [children], right.operand_names name hname⟩
  | identifier text position =>
      rw [List.mem_singleton.mp hstep]
      exact Or.inr (by simp [Step.names, name?])
  | literal text position => simp [walk] at hstep

theorem mem_names_iff {root : Node} {name : String} :
    name ∈ root.names ↔
      root.name? = some name ∨ ∃ child ∈ root.children, name ∈ child.names := by
  simp only [names, preorder_eq root, List.mem_filterMap, List.mem_cons,
    mem_preorderAll_iff]
  constructor
  · rintro ⟨part, rfl | ⟨child, hchild, hpart⟩, hname⟩
    · exact Or.inl hname
    · exact Or.inr ⟨child, hchild, part, hpart, hname⟩
  · rintro (hname | ⟨child, hchild, part, hpart, hname⟩)
    · exact ⟨root, Or.inl rfl, hname⟩
    · exact ⟨part, Or.inr ⟨child, hchild, hpart⟩, hname⟩

/-- The walk through a tree tells names of the tree only. -/
theorem walk_names (root : Node) :
    ∀ step ∈ root.walk, ∀ name ∈ step.names, name ∈ root.names := by
  induction root using children_induction with
  | step root ih =>
      intro step hstep name hname
      rw [mem_names_iff]
      rcases mem_walk hstep with ⟨child, hchild, hstep⟩ | htold
      · exact Or.inr ⟨child, hchild, ih child hchild step hstep name hname⟩
      · refine (htold name hname).imp_right ?_
        rintro ⟨child, hchild, hown⟩
        exact ⟨child, hchild, mem_names_iff.mpr (Or.inl hown)⟩

end Node

/-- Analysis is invariant under renaming.  If no two names of a tree become one,
then analysis of the renamed tree gives the same scopes, the same symbols under
their new names, and the same diagnostics under the new names, which are of the
same kinds and on the same lines one by one. -/
theorem analyze_rename (root : Node) (change : String → String)
    (hinjective : Set.InjOn change {name | name ∈ root.names}) :
    (analyze (root.rename change)).scopes = (analyze root).scopes ∧
      (analyze (root.rename change)).symbols =
        (analyze root).symbols.map (fun symbol =>
          { symbol with name := change symbol.name }) ∧
      (analyze (root.rename change)).diagnostics =
        (analyze root).diagnostics.map (Relabeling.ofNames change).diagnostic ∧
      (analyze (root.rename change)).diagnostics.map (fun diagnostic =>
          (diagnostic.kind, diagnostic.line)) =
        (analyze root).diagnostics.map fun diagnostic =>
          (diagnostic.kind, diagnostic.line) := by
  have hanalysis : analyze (root.rename change) =
      (Relabeling.ofNames change).analysis (analyze root) := by
    rw [analyze, root.walk_rename change]
    exact Relabeling.outcome_run hinjective root.walk_names
  rw [hanalysis]
  refine ⟨rfl, rfl, rfl, ?_⟩
  rw [Relabeling.analysis, List.map_map]
  refine List.map_congr_left fun diagnostic _ => ?_
  have hkind := (Relabeling.ofNames change).diagnostic_kind diagnostic
  exact congrArg (·, diagnostic.line) hkind

/-- Two variables that swap their names; one of them is shadowed, redeclared and
used too early.  Other names would be made one by the same change. -/
theorem analyze_rename_of_swapped :
    let change := fun name => if name = "x" then "y" else "x"
    let root := parse (tokenize
      "int x; int y = x;\nwhile (y < 1) \x7b\n  int x = y;\n  int x;\n\x7d")
    Set.InjOn change {name | name ∈ root.names} ∧
      change "y" = change "z" ∧
      (root.rename change).names = ["y", "x", "y", "x", "y", "x", "y"] ∧
      (analyze (root.rename change)).scopes = (analyze root).scopes ∧
      (analyze (root.rename change)).diagnostics.map (fun diagnostic =>
          (diagnostic.kind, diagnostic.line)) =
        [(.useBeforeInit, 1), (.redeclaration, 4), (.unusedVariable, 1),
          (.unusedVariable, 3)] := by
  intro change root
  have hnames : ∀ first ∈ root.names, ∀ second ∈ root.names,
      change first = change second → first = second := by decide +kernel
  have hinjective : Set.InjOn change {name | name ∈ root.names} :=
    fun first hfirst second hsecond => hnames first hfirst second hsecond
  obtain ⟨hscopes, -, -, hkinds⟩ := analyze_rename root change hinjective
  refine ⟨hinjective, rfl, by decide +kernel, hscopes, hkinds.trans ?_⟩
  decide +kernel

end ThreeAddress
