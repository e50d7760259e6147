import Mathlib.Data.List.Find
import ThreeAddress.Proofs.Children
import ThreeAddress.Proofs.Traversal

/-!
The conditional statement around a node, told by places.  A node is known by its
place in the order of its tree, since equal nodes may stand at several places.
The parts of a node come right after it in that order.  So the statements around
a place are those before it whose parts reach over it, and the nearest of them
is the last.
-/

namespace ThreeAddress

namespace Node

/-- Whether there is a conditional statement at `outer` whose parts reach over
the place `index` behind it. -/
def reaches (nodes : List Node) (index outer : Nat) : Bool :=
  nodes[outer]?.any fun node =>
    node.isConditional && decide (index < outer + node.preorder.length)

/-- The place of the nearest conditional statement around the node at a
place. -/
def nearest? (nodes : List Node) (index : Nat) : Option Nat :=
  (List.range index).reverse.find? (reaches nodes index)

/-- The scope that the node at a place stands in: that of the nearest
conditional statement around it, where these statements are numbered from
`fresh` on, or `scope` if there is none. -/
def scopeWithin (scope fresh : Nat) (nodes : List Node) (index : Nat) : Nat :=
  match nearest? nodes index with
  | none => scope
  | some outer => fresh + countConditionals (nodes.take outer)

theorem preorderAll_prefix_drop {nodes : List Node}
    (hnodes : ∀ node ∈ nodes, ∀ (index : Nat) (part : Node),
      node.preorder[index]? = some part →
        part.preorder <+: node.preorder.drop index)
    {index : Nat} {part : Node}
    (hpart : (preorderAll nodes)[index]? = some part) :
    part.preorder <+: (preorderAll nodes).drop index := by
  induction nodes generalizing index with
  | nil => simp [preorderAll] at hpart
  | cons node rest ih =>
      rw [preorderAll] at hpart ⊢
      rw [List.getElem?_append] at hpart
      rw [List.drop_append]
      split at hpart
      · have hprefix := hnodes node List.mem_cons_self index part hpart
        exact hprefix.trans (List.prefix_append _ _)
      · rename_i hindex
        rw [List.drop_eq_nil_of_le (Nat.le_of_not_lt hindex), List.nil_append]
        exact ih (fun other hother =>
          hnodes other (List.mem_cons_of_mem _ hother)) hpart

/-- The parts of a node of a tree come right after the node. -/
theorem preorder_prefix_drop (node : Node) :
    ∀ (index : Nat) (part : Node), node.preorder[index]? = some part →
      part.preorder <+: node.preorder.drop index := by
  induction node using children_induction with
  | step node ih =>
      intro index part hpart
      cases index with
      | zero =>
          obtain rfl : node = part := by simpa [preorder_eq node] using hpart
          exact List.prefix_rfl
      | succ index =>
          rw [preorder_eq node] at hpart ⊢
          exact preorderAll_prefix_drop ih hpart

/-- So they end where the tree ends, or before. -/
theorem add_length_preorder_le {node part : Node} {index : Nat}
    (hpart : node.preorder[index]? = some part) :
    index + part.preorder.length ≤ node.preorder.length := by
  have hlength := (node.preorder_prefix_drop index part hpart).length_le
  have hindex := (List.getElem?_eq_some_iff.mp hpart).1
  rw [List.length_drop] at hlength
  omega

theorem nearest?_lt {nodes : List Node} {index outer : Nat}
    (hnearest : nearest? nodes index = some outer) : outer < index := by
  simpa using List.mem_of_find?_eq_some hnearest

/-- Nodes further on are not around a place. -/
theorem nearest?_append_left {first : List Node} {index : Nat}
    (hindex : index ≤ first.length) (second : List Node) :
    nearest? (first ++ second) index = nearest? first index := by
  refine List.find?_congr fun outer houter => ?_
  have houter : outer < index := by simpa using houter
  rw [reaches, reaches, List.getElem?_append_left (by omega)]

/-- Nothing in a tree reaches over a place behind it. -/
theorem nearest?_preorder_append (node : Node) (rest : List Node)
    (index : Nat) :
    nearest? (node.preorder ++ rest) (node.preorder.length + index) =
      (nearest? rest index).map (node.preorder.length + ·) := by
  -- What stands in the tree ends with it, before the place.
  have hbehind : (List.range node.preorder.length).reverse.find?
      (reaches (node.preorder ++ rest) (node.preorder.length + index)) =
        none := by
    rw [List.find?_eq_none]
    intro outer houter
    have houter : outer < node.preorder.length := by simpa using houter
    have hlength := add_length_preorder_le (List.getElem?_eq_getElem houter)
    rw [reaches, List.getElem?_append_left houter,
      List.getElem?_eq_getElem houter, Option.any_some, Bool.and_eq_true,
      decide_eq_true_iff]
    omega
  have hshift : reaches (node.preorder ++ rest) (node.preorder.length + index) ∘
      (node.preorder.length + ·) = reaches rest index := by
    funext outer
    simp [reaches, List.getElem?_append_right, Nat.add_assoc]
  rw [nearest?, List.range_add, List.reverse_append, List.find?_append,
    hbehind, Option.or_none, ← List.map_reverse, List.find?_map, hshift,
    nearest?]

/-- A conditional statement is around every part of it, and the nearest unless
one of the parts is. -/
theorem nearest?_preorder_succ (node : Node) {index : Nat}
    (hindex : index < (preorderAll node.children).length) :
    nearest? node.preorder (index + 1) =
      ((nearest? (preorderAll node.children) index).map (· + 1)).or
        (if node.isConditional then some 0 else none) := by
  have hshift : reaches node.preorder (index + 1) ∘ Nat.succ =
      reaches (preorderAll node.children) index := by
    funext outer
    simp only [reaches, preorder_eq node, Function.comp_apply,
      List.getElem?_cons_succ, Nat.succ_add, Nat.succ_lt_succ_iff]
  have hroot : reaches node.preorder (index + 1) 0 = node.isConditional := by
    simp [reaches, preorder_eq node, hindex]
  rw [nearest?, List.range_succ_eq_map, List.reverse_cons, List.find?_append,
    ← List.map_reverse, List.find?_map, hshift, List.find?_singleton, hroot,
    nearest?]

theorem scopeWithin_append_left {first : List Node} {index : Nat}
    (hindex : index < first.length) (scope fresh : Nat) (second : List Node) :
    scopeWithin scope fresh (first ++ second) index =
      scopeWithin scope fresh first index := by
  rw [scopeWithin, scopeWithin, nearest?_append_left (Nat.le_of_lt hindex)]
  cases hnearest : nearest? first index with
  | none => rfl
  | some outer =>
      have houter := nearest?_lt hnearest
      have htake : (first ++ second).take outer = first.take outer :=
        List.take_append_of_le_length (by omega)
      exact congrArg (fun nodes => fresh + countConditionals nodes) htake

theorem scopeWithin_preorder_append (node : Node) (scope fresh : Nat)
    (rest : List Node) (index : Nat) :
    scopeWithin scope fresh (node.preorder ++ rest)
        (node.preorder.length + index) =
      scopeWithin scope (fresh + countConditionals node.preorder) rest
        index := by
  rw [scopeWithin, scopeWithin, nearest?_preorder_append]
  cases nearest? rest index with
  | none => rfl
  | some outer => simp [List.take_length_add_append, Nat.add_assoc]

theorem scopeWithin_preorder_succ (node : Node) {index : Nat}
    (hindex : index < (preorderAll node.children).length)
    (scope fresh : Nat) :
    scopeWithin scope fresh node.preorder (index + 1) =
      scopeWithin (if node.isConditional then fresh else scope)
        (if node.isConditional then fresh + 1 else fresh)
        (preorderAll node.children) index := by
  rw [scopeWithin, scopeWithin, nearest?_preorder_succ node hindex]
  cases nearest? (preorderAll node.children) index with
  | none => cases hconditional : node.isConditional <;> simp
  | some outer =>
      cases hconditional : node.isConditional <;>
        simp [preorder_eq node, hconditional, Nat.add_assoc, Nat.add_comm]

theorem visitsAll_append (first second : List Node) (scopes : List Nat)
    (fresh : Nat) :
    visitsAll (first ++ second) scopes fresh =
      visitsAll first scopes fresh ++
        visitsAll second scopes
          (fresh + countConditionals (preorderAll first)) := by
  induction first generalizing fresh with
  | nil => rfl
  | cons node rest ih => simp [visitsAll, preorderAll, ih, Nat.add_assoc]

theorem visitsAll_toList (node : Option Node) (scopes : List Nat)
    (fresh : Nat) :
    visitsAll node.toList scopes fresh = visitsOption node scopes fresh := by
  cases node with
  | none => rfl
  | some node => simp [visitsAll, visitsOption]

/-- A node is visited before its children, and these inside it if it is a
conditional statement. -/
theorem visits_eq (node : Node) (scopes : List Nat) (fresh : Nat) :
    node.visits scopes fresh =
      ⟨node, scopes⟩ ::
        visitsAll node.children
          (if node.isConditional then fresh :: scopes else scopes)
          (if node.isConditional then fresh + 1 else fresh) := by
  cases node with
  | conditional form condition body position =>
      simp [visits, children, isConditional, visitsAll_append,
        visitsAll_toList, preorderAll_toList]
  | _ => simp [visits, children, isConditional, visitsAll, visitsAll_toList]

/-- The innermost scopes of visits are those of the places of the nodes. -/
def ScopesTold (visits : List Visit) (scope fresh : Nat)
    (nodes : List Node) : Prop :=
  visits.map (fun visit => visit.scopes.head?) =
    (List.range nodes.length).map fun index =>
      some (scopeWithin scope fresh nodes index)

theorem visitsAll_scopesTold {nodes : List Node}
    (hnodes : ∀ node ∈ nodes, ∀ scope scopes fresh,
      ScopesTold (node.visits (scope :: scopes) fresh) scope fresh
        node.preorder) (scope : Nat) (scopes : List Nat) (fresh : Nat) :
    ScopesTold (visitsAll nodes (scope :: scopes) fresh) scope fresh
      (preorderAll nodes) := by
  induction nodes generalizing fresh with
  | nil => rfl
  | cons node rest ih =>
      have hhead := hnodes node List.mem_cons_self scope scopes fresh
      have htail := ih (fun other hother =>
        hnodes other (List.mem_cons_of_mem _ hother))
        (fresh + countConditionals node.preorder)
      unfold ScopesTold at hhead htail ⊢
      rw [visitsAll, preorderAll, List.map_append, hhead, htail,
        List.length_append, List.range_add, List.map_append, List.map_map]
      congr 1
      · refine List.map_congr_left fun index hindex => ?_
        rw [scopeWithin_append_left (List.mem_range.mp hindex)]
      · refine List.map_congr_left fun index _ => ?_
        rw [Function.comp_apply, scopeWithin_preorder_append]

/-- A node is visited in the scope of the nearest conditional statement around
its place. -/
theorem visits_scopesTold (node : Node) :
    ∀ scope scopes fresh,
      ScopesTold (node.visits (scope :: scopes) fresh) scope fresh
        node.preorder := by
  induction node using children_induction with
  | step node ih =>
      intro scope scopes fresh
      -- The innermost scope around the children is the new one, if the node
      -- opens one, and else that of the node.
      have hscopes : (if node.isConditional then fresh :: scope :: scopes
          else scope :: scopes) =
            (if node.isConditional then fresh else scope) ::
              if node.isConditional then scope :: scopes else scopes := by
        cases node.isConditional <;> rfl
      have hchildren := visitsAll_scopesTold ih
        (if node.isConditional then fresh else scope)
        (if node.isConditional then scope :: scopes else scopes)
        (if node.isConditional then fresh + 1 else fresh)
      unfold ScopesTold at hchildren ⊢
      rw [visits_eq, hscopes, List.map_cons, hchildren,
        congrArg List.length (preorder_eq node), List.length_cons,
        List.range_succ_eq_map, List.map_cons, List.map_map]
      congr 1
      refine List.map_congr_left fun index hindex => ?_
      rw [Function.comp_apply,
        scopeWithin_preorder_succ node (List.mem_range.mp hindex)]

end Node

end ThreeAddress
