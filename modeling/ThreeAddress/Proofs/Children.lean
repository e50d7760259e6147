import ThreeAddress.Node

/-!
A tree by the children of its nodes.  The nodes of a tree are the root and then
those of the trees below it, from left to right, and what passes from the
children to a node holds of every tree.
-/

namespace ThreeAddress

namespace Node

theorem preorderAll_append (first second : List Node) :
    preorderAll (first ++ second) = preorderAll first ++ preorderAll second := by
  induction first with
  | nil => rfl
  | cons node rest ih => simp [preorderAll, ih]

theorem preorderAll_toList (node : Option Node) :
    preorderAll node.toList = preorderOption node := by
  cases node with
  | none => rfl
  | some node => simp [preorderAll, preorderOption]

theorem mem_preorderAll_iff {part : Node} {nodes : List Node} :
    part ∈ preorderAll nodes ↔ ∃ node ∈ nodes, part ∈ node.preorder := by
  induction nodes with
  | nil => simp [preorderAll]
  | cons node rest ih => simp [preorderAll, ih]

theorem preorder_eq (node : Node) :
    node.preorder = node :: preorderAll node.children := by
  cases node with
  | conditional form condition body position =>
      simp [preorder, children, preorderAll_append, preorderAll_toList]
  | _ => simp [preorder, children, preorderAll, preorderAll_toList]

mutual

/-- What holds of a node whenever it holds of the children holds of every
node. -/
@[elab_as_elim]
theorem children_induction {motive : Node → Prop}
    (step : ∀ node, (∀ child ∈ node.children, motive child) → motive node)
    (node : Node) : motive node := by
  apply step
  cases node with
  | compound form statements position =>
      exact children_inductionAll step statements
  | declaration ty name initializer position =>
      exact children_inductionOption step initializer
  | assignment target value position =>
      exact children_inductionOption step value
  | conditional form condition body position =>
      exact List.forall_mem_append.mpr
        ⟨children_inductionOption step condition,
          children_inductionOption step body⟩
  | result value position => exact children_inductionOption step value
  | binary operator left right position =>
      exact List.forall_mem_cons.mpr ⟨children_induction step left,
        List.forall_mem_singleton.mpr (children_induction step right)⟩
  | identifier text position => exact List.forall_mem_nil _
  | literal text position => exact List.forall_mem_nil _

theorem children_inductionAll {motive : Node → Prop}
    (step : ∀ node, (∀ child ∈ node.children, motive child) → motive node)
    (nodes : List Node) : ∀ node ∈ nodes, motive node := by
  cases nodes with
  | nil => exact List.forall_mem_nil _
  | cons node rest =>
      exact List.forall_mem_cons.mpr
        ⟨children_induction step node, children_inductionAll step rest⟩

theorem children_inductionOption {motive : Node → Prop}
    (step : ∀ node, (∀ child ∈ node.children, motive child) → motive node)
    (node : Option Node) : ∀ part ∈ node.toList, motive part := by
  cases node with
  | none => exact List.forall_mem_nil _
  | some node =>
      exact List.forall_mem_singleton.mpr (children_induction step node)

end

end Node

end ThreeAddress
