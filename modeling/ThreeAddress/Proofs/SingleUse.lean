import ThreeAddress.Proofs.Provenance
import ThreeAddress.Proofs.Temporaries
import ThreeAddress.Proofs.Usage

/-!
Temporaries are in single-assignment form.  Every operator of a tree is computed
into a temporary of its own, which is handed to the node above; that node takes
it as an operand, or drops it.  So where no text of the tree looks like a
temporary, none is taken twice, and none before it has been computed.
-/

namespace ThreeAddress

namespace Node

def isDeclaration : Node → Bool
  | declaration .. => true
  | _ => false

def isAssignment : Node → Bool
  | assignment .. => true
  | _ => false

/-- The number of instructions that some nodes ask for: one for an operator, one
for a declaration and another one for its initializer, one for an assignment. -/
def countInstructions (nodes : List Node) : Nat :=
  countOperators nodes + nodes.countP isDeclaration +
    nodes.countP hasInitializer + nodes.countP isAssignment

theorem countInstructions_append (first second : List Node) :
    countInstructions (first ++ second) =
      countInstructions first + countInstructions second := by
  simp only [countInstructions, countOperators_append, List.countP_append]
  omega

theorem countInstructions_cons (node : Node) (rest : List Node) :
    countInstructions (node :: rest) =
      countInstructions [node] + countInstructions rest :=
  countInstructions_append [node] rest

mutual

/-- A tree lowers to as many instructions as its nodes ask for. -/
theorem length_lower (node : Node) (next : Nat) :
    (node.lower next).code.length = countInstructions node.preorder := by
  cases node with
  | compound form statements position =>
      rw [preorder, countInstructions_cons, ← length_lowerAll statements next]
      exact (Nat.zero_add _).symm
  | declaration ty name initializer position =>
      rw [preorder, countInstructions_cons,
        ← length_lowerOption initializer next]
      cases initializer with
      | none => rfl
      | some value =>
          have hown : countInstructions
              [declaration ty name (some value) position] = 2 := rfl
          simp only [lower, Option.isSome_some, if_true, List.length_cons,
            List.length_append, List.length_nil, hown]
          omega
  | assignment target value position =>
      rw [preorder, countInstructions_cons, ← length_lowerOption value next,
        lower, List.length_append, Nat.add_comm]
      rfl
  | conditional form condition body position =>
      rw [preorder, countInstructions_cons, countInstructions_append,
        ← length_lowerOption condition next, ← length_lowerOption body,
        ← List.length_append]
      exact (Nat.zero_add _).symm
  | result value position =>
      rw [preorder, countInstructions_cons, ← length_lowerOption value next]
      exact (Nat.zero_add _).symm
  | binary operator left right position =>
      rw [preorder, countInstructions_cons, countInstructions_append,
        ← length_lower left next, ← length_lower right, ← List.length_append,
        lower, List.length_append, Nat.add_comm]
      rfl
  | identifier text position => rfl
  | literal text position => rfl

theorem length_lowerAll (nodes : List Node) (next : Nat) :
    (lowerAll nodes next).code.length =
      countInstructions (preorderAll nodes) := by
  cases nodes with
  | nil => rfl
  | cons node rest =>
      rw [lowerAll, preorderAll, List.length_append, countInstructions_append,
        length_lower node, length_lowerAll rest]

theorem length_lowerOption (node : Option Node) (next : Nat) :
    (lowerOption node next).code.length =
      countInstructions (preorderOption node) := by
  cases node with
  | none => rfl
  | some node => exact length_lower node next

end

end Node

theorem ne_temporary {text : String} (htext : isTemporary text = false)
    (number : Nat) : text ≠ temporary number := by
  rintro rfl
  rw [isTemporary_temporary] at htext
  contradiction

theorem Ty.isTemporary_name (ty : Ty) : isTemporary ty.name = false := by
  cases ty <;> decide

/-- How often code takes a temporary as an operand. -/
def timesTaken (code : List Instruction) (number : Nat) : Nat :=
  (code.flatMap Instruction.operands).count (temporary number)

theorem timesTaken_append (first second : List Instruction) (number : Nat) :
    timesTaken (first ++ second) number =
      timesTaken first number + timesTaken second number := by
  simp [timesTaken]

/-- An operand that is read in place of a missing one is no temporary. -/
theorem count_getD (operand : Option String) (number : Nat) :
    [operand.getD ""].count (temporary number) =
      operand.toList.count (temporary number) := by
  cases operand with
  | none =>
      have hempty : "" ≠ temporary number := ne_temporary (by decide) number
      simp [hempty]
  | some text => rfl

/-- Lowered code whose temporaries have numbers from `next` on.  It takes only
such as it has computed before, each at most once, the operand that is handed on
included; and nothing but an operator is computed into one. -/
structure Lowered.Linear (next : Nat) (lowered : Lowered) : Prop where
  grows : next ≤ lowered.next
  supplied : lowered.Supplied Instruction.computed? fun text =>
    isTemporary text = false
  taken : ∀ number,
    lowered.operand.toList.count (temporary number) +
        timesTaken lowered.code number ≤
      if next ≤ number ∧ number < lowered.next then 1 else 0
  written : ∀ instruction ∈ lowered.code, ∀ number,
    instruction.result = some (temporary number) →
      instruction.computed? = some (temporary number)

namespace Lowered.Linear

variable {next : Nat} {left right : Lowered}

theorem nil (next : Nat) : Linear next ⟨none, [], next⟩ :=
  ⟨Nat.le_refl next, ⟨trivial, by simp⟩, by simp [timesTaken], by simp⟩

/-- A name or a literal of the tree. -/
theorem leaf {text : String} (htext : isTemporary text = false) (next : Nat) :
    Linear next ⟨some text, [], next⟩ := by
  refine ⟨Nat.le_refl next, ⟨trivial, ?_⟩, ?_, by simp⟩
  · rintro name ⟨⟩ -
    exact Or.inl htext
  · intro number
    have hne := ne_temporary htext number
    simp [timesTaken, hne]

/-- The operand may be dropped. -/
theorem drop (hleft : left.Linear next) :
    Linear next ⟨none, left.code, left.next⟩ where
  grows := hleft.grows
  supplied := ⟨hleft.supplied.code, by simp⟩
  taken number := by
    have htaken := hleft.taken number
    simp only [Option.toList_none, List.count_nil]
    omega
  written := hleft.written

/-- Code that follows other code, with both operands dropped. -/
theorem append (hleft : left.Linear next) (hright : right.Linear left.next) :
    Linear next ⟨none, left.code ++ right.code, right.next⟩ where
  grows := Nat.le_trans hleft.grows hright.grows
  supplied := by
    refine ⟨covered_append.mpr ⟨hleft.supplied.code, ?_⟩, by simp⟩
    exact hright.supplied.code.mono fun text => Or.inl
  taken number := by
    -- the two parts have the numbers below and above `left.next`
    have hfirst := hleft.taken number
    have hsecond := hright.taken number
    have hgrows := hleft.grows
    have hgrows' := hright.grows
    simp only [Option.toList_none, List.count_nil, timesTaken_append]
    split at hfirst <;> split at hsecond <;> split <;> omega
  written := List.forall_mem_append.mpr ⟨hleft.written, hright.written⟩

theorem declare (hleft : left.Linear next) (ty : Ty) {name : String}
    (hname : isTemporary name = false) :
    Linear next
      ⟨none, Instruction.declare ty name :: left.code, left.next⟩ where
  grows := hleft.grows
  supplied := by
    refine ⟨⟨by simp [Instruction.reads, Instruction.declare], ?_⟩, by simp⟩
    exact hleft.supplied.code.mono fun text => Or.inl
  taken number := by
    have htaken := hleft.taken number
    have hty := ne_temporary ty.isTemporary_name number
    have hnone : timesTaken [Instruction.declare ty name] number = 0 := by
      simp [timesTaken, Instruction.operands, Instruction.declare, hty]
    rw [← List.singleton_append, timesTaken_append, hnone]
    simp only [Option.toList_none, List.count_nil]
    omega
  written := by
    refine List.forall_mem_cons.mpr ⟨?_, hleft.written⟩
    intro number hresult
    exact absurd (Option.some.inj hresult) (ne_temporary hname number)

/-- The operand may be assigned to a name of the tree. -/
theorem assign (hleft : left.Linear next) {target : String}
    (htarget : isTemporary target = false) :
    Linear next
      ⟨none, left.code ++ [Instruction.assign left.operand target],
        left.next⟩ where
  grows := hleft.grows
  supplied := ⟨hleft.supplied.assign target, by simp⟩
  taken number := by
    have htaken := hleft.taken number
    have hassign : timesTaken [Instruction.assign left.operand target] number =
        left.operand.toList.count (temporary number) := by
      simp [timesTaken, Instruction.operands, Instruction.assign]
    rw [timesTaken_append, hassign]
    simp only [Option.toList_none, List.count_nil]
    omega
  written := by
    refine List.forall_mem_append.mpr ⟨hleft.written, ?_⟩
    rw [List.forall_mem_singleton]
    intro number hresult
    exact absurd (Option.some.inj hresult) (ne_temporary htarget number)

/-- An operator takes both operands and hands on a new temporary. -/
theorem binary (hleft : left.Linear next) (hright : right.Linear left.next)
    (operator : Operator) :
    Linear next
      ⟨some (temporary right.next), left.code ++ right.code ++
        [Instruction.binary operator (left.operand.getD "")
          (right.operand.getD "") (temporary right.next)],
        right.next + 1⟩ where
  grows := Nat.le_succ_of_le (Nat.le_trans hleft.grows hright.grows)
  supplied := hleft.supplied.binary hright.supplied operator rfl _
  taken number := by
    have hfirst := hleft.taken number
    have hsecond := hright.taken number
    have hgrows := hleft.grows
    have hgrows' := hright.grows
    have hbinary : timesTaken [Instruction.binary operator
        (left.operand.getD "") (right.operand.getD "")
        (temporary right.next)] number =
          left.operand.toList.count (temporary number) +
            right.operand.toList.count (temporary number) := by
      rw [← count_getD, ← count_getD, ← List.count_append]
      rfl
    have hnew : [temporary right.next].count (temporary number) =
        if right.next = number then 1 else 0 := by
      by_cases hnumber : right.next = number
      · simp [hnumber]
      · simp [hnumber, mt temporary_injective hnumber]
    simp only [Option.toList_some, hnew, timesTaken_append, hbinary]
    split at hfirst <;> split at hsecond <;> split <;> split <;> omega
  written := by
    refine List.forall_mem_append.mpr ⟨List.forall_mem_append.mpr
      ⟨hleft.written, hright.written⟩, ?_⟩
    rw [List.forall_mem_singleton]
    intro number hresult
    exact hresult

end Lowered.Linear

/-- Neither a name nor a literal among some marks looks like a temporary. -/
def Mark.NoTemporaries (marks : List Mark) : Prop :=
  ∀ mark ∈ marks, mark.kind = .identifier ∨ mark.kind = .literal →
    isTemporary mark.text = false

namespace Node

open Mark (NoTemporaries)

mutual

/-- A tree whose texts do not look like temporaries is lowered to code that
takes each temporary at most once. -/
theorem lower_linear (node : Node) (next : Nat)
    (hmarks : NoTemporaries node.marks) : (node.lower next).Linear next := by
  cases node with
  | compound form statements position =>
      refine lowerAll_linear statements next fun mark hmark => hmarks mark ?_
      cases form <;> simp [marks, hmark]
  | declaration ty name initializer position =>
      have hname : isTemporary name.text = false :=
        hmarks ⟨.identifier, name.text, name.position⟩ (by simp [marks])
          (Or.inl rfl)
      have hvalue := lowerOption_linear initializer next
        (fun mark hmark => hmarks mark (by simp [marks, hmark]))
      cases initializer with
      | none => exact hvalue.declare ty hname
      | some value => exact (hvalue.assign hname).declare ty hname
  | assignment target value position =>
      have htarget : isTemporary target.text = false :=
        hmarks ⟨.identifier, target.text, target.position⟩ (by simp [marks])
          (Or.inl rfl)
      exact (lowerOption_linear value next
        (fun mark hmark => hmarks mark (by simp [marks, hmark]))).assign htarget
  | conditional form condition body position =>
      exact (lowerOption_linear condition next
        (fun mark hmark => hmarks mark (by simp [marks, hmark]))).append
          (lowerOption_linear body _
            (fun mark hmark => hmarks mark (by simp [marks, hmark])))
  | result value position =>
      exact (lowerOption_linear value next
        (fun mark hmark => hmarks mark (by simp [marks, hmark]))).drop
  | binary operator left right position =>
      exact (lower_linear left next
        (fun mark hmark => hmarks mark (by simp [marks, hmark]))).binary
          (lower_linear right _
            (fun mark hmark => hmarks mark (by simp [marks, hmark]))) operator
  | identifier text position =>
      exact .leaf (hmarks ⟨.identifier, text, position⟩ (by simp [marks])
        (Or.inl rfl)) next
  | literal text position =>
      exact .leaf (hmarks ⟨.literal, text, position⟩ (by simp [marks])
        (Or.inr rfl)) next

theorem lowerAll_linear (nodes : List Node) (next : Nat)
    (hmarks : NoTemporaries (marksAll nodes)) :
    (lowerAll nodes next).Linear next := by
  cases nodes with
  | nil => exact .nil next
  | cons node rest =>
      exact (lower_linear node next
        (fun mark hmark => hmarks mark (by simp [marksAll, hmark]))).append
          (lowerAll_linear rest _
            (fun mark hmark => hmarks mark (by simp [marksAll, hmark])))

theorem lowerOption_linear (node : Option Node) (next : Nat)
    (hmarks : NoTemporaries (marksOption node)) :
    (lowerOption node next).Linear next := by
  cases node with
  | none => exact .nil next
  | some node => exact lower_linear node next hmarks

end

end Node

/-- What code takes as an operand it reads, if it is a temporary: the operand of
a declaration is the name of a type. -/
theorem mem_reads_of_temporary {root : Node} {instruction : Instruction}
    (hmem : instruction ∈ generate root) {number : Nat}
    (hoperand : temporary number ∈ instruction.operands) :
    temporary number ∈ instruction.reads := by
  refine Instruction.mem_reads_of_mem_operands ?_ hoperand
    (isName_temporary number)
  intro hopcode
  have hdeclares : instruction ∈
      (generate root).filter Instruction.isDeclaration :=
    List.mem_filter.mpr ⟨hmem, by simp [Instruction.isDeclaration, hopcode]⟩
  rw [generate, root.lower_declarations 0, List.mem_filterMap] at hdeclares
  obtain ⟨node, -, hnode⟩ := hdeclares
  cases node with
  | declaration ty name initializer position =>
      cases hnode
      have hty : temporary number = ty.name := by
        simpa [Instruction.operands, Instruction.declare] using hoperand
      exact ne_temporary ty.isTemporary_name number hty.symm
  | _ => simp [Node.declaration?] at hnode

/-- Temporaries are in single-assignment form.  The operators of a tree are
computed into the temporaries from the first one on, one after another, and all
other instructions are declarations and assignments.  If no name and no literal
of the tree looks like a temporary, then no temporary is taken as an operand
twice, one that is taken has been computed by an earlier instruction, and
nothing but this instruction writes to it. -/
theorem generate_temporaries_single (root : Node) :
    (generate root).filterMap Instruction.computed? =
        (List.range (Node.countOperators root.preorder)).map temporary ∧
      (generate root).length =
        Node.countOperators root.preorder +
          root.preorder.countP Node.isDeclaration +
          root.preorder.countP Node.hasInitializer +
          root.preorder.countP Node.isAssignment ∧
      ((∀ mark ∈ root.marks, mark.kind = .identifier ∨ mark.kind = .literal →
          isTemporary mark.text = false) →
        ∀ number,
          ((generate root).flatMap Instruction.operands).count
              (temporary number) ≤ 1 ∧
            (∀ index instruction,
              (generate root)[index]? = some instruction →
                temporary number ∈ instruction.operands →
                  ∃ earlier ∈ (generate root).take index,
                    earlier.computed? = some (temporary number)) ∧
            ∀ instruction ∈ generate root,
              instruction.result = some (temporary number) →
                instruction.computed? = some (temporary number)) := by
  refine ⟨generate_computed root, root.length_lower 0, ?_⟩
  intro hmarks number
  have hlinear := root.lower_linear 0 hmarks
  refine ⟨?_, ?_, fun instruction hmem =>
    hlinear.written instruction hmem number⟩
  · have htaken := hlinear.taken number
    change timesTaken (root.lower 0).code number ≤ 1
    split at htaken <;> omega
  · intro index instruction hat hoperand
    have hread := mem_reads_of_temporary (List.mem_of_getElem? hat) hoperand
    rcases hlinear.supplied.code.known_or_given hat hread with hplain | hgiven
    · exact absurd rfl (ne_temporary hplain number)
    · exact hgiven

/-- Statements in the place of operands: the product is taken by an assignment,
the difference by the sum, and the sum by nothing. -/
theorem generate_temporaries_single_of_statements :
    let product : Node := .assignment ⟨"x", none⟩
      (some (.binary .mul (.identifier "t" none) (.literal "2" none) none)) none
    let difference : Node :=
      .binary .sub (.identifier "x" none) (.literal "t1x" none) none
    let root : Node := .binary .add product difference none
    generate root =
        [.binary .mul "t" "2" "t0", .assign (some "t0") "x",
          .binary .sub "x" "t1x" "t1", .binary .add "" "t1" "t2"] ∧
      (∀ mark ∈ root.marks, mark.kind = .identifier ∨ mark.kind = .literal →
        isTemporary mark.text = false) ∧
      ∀ number,
        ((generate root).flatMap Instruction.operands).count
            (temporary number) ≤ 1 ∧
          ∀ index instruction, (generate root)[index]? = some instruction →
            temporary number ∈ instruction.operands →
              ∃ earlier ∈ (generate root).take index,
                earlier.computed? = some (temporary number) := by
  intro product difference root
  have hmarks : ∀ mark ∈ root.marks,
      mark.kind = .identifier ∨ mark.kind = .literal →
        isTemporary mark.text = false := by decide
  refine ⟨by decide, hmarks, fun number => ?_⟩
  obtain ⟨hcount, hearlier, -⟩ :=
    (generate_temporaries_single root).2.2 hmarks number
  exact ⟨hcount, hearlier⟩

end ThreeAddress
