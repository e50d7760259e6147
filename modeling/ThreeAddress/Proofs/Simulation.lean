import ThreeAddress.Compilation
import ThreeAddress.Proofs.Conservation
import ThreeAddress.Proofs.Execution
import ThreeAddress.Proofs.Shape

/-!
Code does what the tree means.  While code runs, its store agrees with the store
of the direct evaluation on every name but those of temporaries, and lowering an
expression writes no temporary with a smaller number than its own; so what has
been computed on the left is still there when the right side is done.
-/

namespace ThreeAddress

universe u

variable {V : Type u}

/-- Two stores agree on all names that are no temporaries. -/
def Agrees (machine store : Valuation V) : Prop :=
  ∀ name, isTemporary name = false → machine name = store name

theorem Agrees.update {machine store : Valuation V}
    (hagrees : Agrees machine store) (name : String) {first second : V}
    (hvalue : first = second) :
    Agrees (Function.update machine name first)
      (Function.update store name second) := by
  intro other hother
  subst hvalue
  by_cases heq : other = name
  · subst heq
    simp
  · simp [Function.update_of_ne heq, hagrees other hother]

theorem Agrees.update_temporary {machine store : Valuation V}
    (hagrees : Agrees machine store) (number : Nat) (value : V) :
    Agrees (Function.update machine (temporary number) value) store := by
  intro other hother
  have hne : other ≠ temporary number := by
    rintro rfl
    rw [isTemporary_temporary] at hother
    contradiction
  rw [Function.update_of_ne hne]
  exact hagrees other hother

/-- A mark whose text tells what it is: an identifier is a name and no
temporary, and a literal is no name. -/
def Mark.Plain (mark : Mark) : Prop :=
  (mark.kind = .identifier →
    isName mark.text = true ∧ isTemporary mark.text = false) ∧
    (mark.kind = .literal → isName mark.text = false)

/-- The code of an expression, run from `machine` to `after`, has computed a
value: it leaves earlier temporaries alone, and its operand has the value as
long as later code does. -/
structure Computed (meaning : Meaning V) (store machine after : Valuation V)
    (next : Nat) (lowered : Lowered) (value : V) : Prop where
  agrees : Agrees after store
  grows : next ≤ lowered.next
  frame : ∀ number, number < next →
    after (temporary number) = machine (temporary number)
  operand : ∃ text, lowered.operand = some text ∧
    ∀ later, Agrees later store →
      (∀ number, number < lowered.next →
        later (temporary number) = after (temporary number)) →
      meaning.read later (some text) = value

/-- Right after the code of an expression its operand has the value. -/
theorem Computed.read {meaning : Meaning V} {store machine after : Valuation V}
    {next : Nat} {lowered : Lowered} {value : V}
    (hcomputed : Computed meaning store machine after next lowered value) :
    meaning.read after lowered.operand = value := by
  obtain ⟨text, hoperand, hread⟩ := hcomputed.operand
  rw [hoperand]
  exact hread after hcomputed.agrees fun _ _ => rfl

theorem identifier_computed (meaning : Meaning V)
    {store machine : Valuation V} (hagrees : Agrees machine store)
    {text : String} (hname : isName text = true)
    (htemporary : isTemporary text = false) (position : Option Position)
    (next : Nat) :
    Computed meaning store machine machine next
      ((Node.identifier text position).lower next) (store text) := by
  refine ⟨hagrees, Nat.le_refl next, fun _ _ => rfl, text, rfl, ?_⟩
  intro later hlater _
  simp [Meaning.read, hname, hlater text htemporary]

theorem literal_computed (meaning : Meaning V)
    {store machine : Valuation V} (hagrees : Agrees machine store)
    {text : String} (hname : isName text = false)
    (position : Option Position) (next : Nat) :
    Computed meaning store machine machine next
      ((Node.literal text position).lower next) (meaning.literal text) := by
  refine ⟨hagrees, Nat.le_refl next, fun _ _ => rfl, text, rfl, ?_⟩
  intro later _ _
  simp [Meaning.read, hname]

/-- Two operands, the second computed after the first, and the operator put
into a fresh temporary. -/
theorem Computed.binary {meaning : Meaning V}
    {store machine middle after : Valuation V} {next : Nat}
    {first second : Lowered} {left right : V} (operator : Operator)
    (hfirst : Computed meaning store machine middle next first left)
    (hsecond : Computed meaning store middle after first.next second right)
    (code : List Instruction) :
    Computed meaning store machine
      (Function.update after (temporary second.next)
        (meaning.apply operator
          (meaning.read after (some (first.operand.getD "")))
          (meaning.read after (some (second.operand.getD "")))))
      next ⟨some (temporary second.next), code, second.next + 1⟩
      (meaning.apply operator left right) := by
  obtain ⟨leftText, hleftText, hleft⟩ := hfirst.operand
  have hleftRead : meaning.read after (some (first.operand.getD "")) =
      left := by
    rw [hleftText]
    exact hleft after hsecond.agrees hsecond.frame
  have hrightRead : meaning.read after (some (second.operand.getD "")) =
      right := by
    obtain ⟨rightText, hrightText, _⟩ := hsecond.operand
    have hread := hsecond.read
    rw [hrightText] at hread ⊢
    exact hread
  have hgrows := Nat.le_trans hfirst.grows hsecond.grows
  rw [hleftRead, hrightRead]
  refine ⟨hsecond.agrees.update_temporary second.next _,
    Nat.le_succ_of_le hgrows, ?_, temporary second.next, rfl, ?_⟩
  · intro number hnumber
    have hne : temporary number ≠ temporary second.next := by
      intro heq
      have := temporary_injective heq
      omega
    rw [Function.update_of_ne hne,
      hsecond.frame number (Nat.lt_of_lt_of_le hnumber hfirst.grows),
      hfirst.frame number hnumber]
  · intro later _ hlater
    have hkept := hlater second.next (Nat.lt_succ_self second.next)
    simp [Meaning.read, isName_temporary, hkept]

theorem Node.lower_computed (meaning : Meaning V) {store : Valuation V}
    (node : Node) (hnode : node.isExpression = true)
    (hplain : ∀ mark ∈ node.marks, mark.Plain) (next : Nat)
    {machine : Valuation V} (hagrees : Agrees machine store) :
    Computed meaning store machine
      (meaning.run (node.lower next).code machine) next (node.lower next)
      (node.value meaning store) := by
  cases node with
  | identifier text position =>
      obtain ⟨hname, htemporary⟩ :=
        (hplain ⟨.identifier, text, position⟩ (by simp [Node.marks])).1 rfl
      exact identifier_computed meaning hagrees hname htemporary position next
  | literal text position =>
      have hname :=
        (hplain ⟨.literal, text, position⟩ (by simp [Node.marks])).2 rfl
      exact literal_computed meaning hagrees hname position next
  | binary operator left right position =>
      simp only [Node.isExpression, Bool.and_eq_true] at hnode
      simp only [Node.marks, List.mem_append, List.mem_cons] at hplain
      have hleft := left.lower_computed meaning hnode.1
        (fun mark hmark => hplain mark (Or.inl hmark)) next hagrees
      have hright := right.lower_computed meaning hnode.2
        (fun mark hmark => hplain mark (Or.inr (Or.inr hmark)))
        (left.lower next).next hleft.agrees
      have hbinary := hleft.binary operator hright
        (Node.binary operator left right position |>.lower next).code
      simpa only [Node.lower, Node.value, Meaning.run_append,
        Meaning.run_binary] using hbinary
  | compound form statements position => simp [Node.isExpression] at hnode
  | declaration ty name initializer position =>
      simp [Node.isExpression] at hnode
  | assignment target value position => simp [Node.isExpression] at hnode
  | conditional form condition body position =>
      simp [Node.isExpression] at hnode
  | result value position => simp [Node.isExpression] at hnode

/-- The code of an expression that may be absent: its operand has the value that
is assigned. -/
theorem Node.lowerOption_read (meaning : Meaning V)
    {machine store : Valuation V} (hagrees : Agrees machine store)
    (value : Option Node) (hvalue : value.all Node.isExpression = true)
    (hplain : ∀ mark ∈ Node.marksOption value, mark.Plain) (next : Nat) :
    let lowered := Node.lowerOption value next
    let after := meaning.run lowered.code machine
    Agrees after store ∧ meaning.read after lowered.operand =
      Node.valueOption meaning store value := by
  cases value with
  | none => exact ⟨hagrees, rfl⟩
  | some node =>
      have hcomputed := node.lower_computed meaning hvalue hplain next hagrees
      exact ⟨hcomputed.agrees, hcomputed.read⟩

/-- The code of a statement without a condition does what the statement
means. -/
theorem Node.lower_agrees (meaning : Meaning V) {machine store : Valuation V}
    (hagrees : Agrees machine store) {node : Node}
    (hnode : node.isStatement = true) (hstraight : node.isConditional = false)
    (hplain : ∀ mark ∈ node.marks, mark.Plain) (next : Nat) :
    Agrees (meaning.run (node.lower next).code machine)
      (node.perform meaning store) := by
  cases node with
  | declaration ty name initializer position =>
      have hname : isTemporary name.text = false :=
        ((hplain ⟨.identifier, name.text, name.position⟩
          (by simp [Node.marks])).1 rfl).2
      have hdeclared := hagrees.update name.text
        (congrArg (meaning.declare ty.name name.text)
          (hagrees name.text hname))
      cases initializer with
      | none => simpa [Node.lower, Node.perform] using hdeclared
      | some value =>
          obtain ⟨hafter, hread⟩ := Node.lowerOption_read meaning hdeclared
            (some value) hnode
            (fun mark hmark => hplain mark (by simp [Node.marks, hmark])) next
          simpa [Node.lower, Node.perform, Node.valueOption] using
            hafter.update name.text hread
  | assignment target value position =>
      obtain ⟨hafter, hread⟩ := Node.lowerOption_read meaning hagrees value
        hnode (fun mark hmark => hplain mark (by simp [Node.marks, hmark])) next
      simpa [Node.lower, Node.perform] using hafter.update target.text hread
  | result value position =>
      obtain ⟨hafter, _⟩ := Node.lowerOption_read meaning hagrees value
        hnode (fun mark hmark => hplain mark (by simp [Node.marks, hmark])) next
      exact hafter
  | conditional form condition body position =>
      simp [Node.isConditional] at hstraight
  | compound form statements position => simp [Node.isStatement] at hnode
  | binary operator left right position => simp [Node.isStatement] at hnode
  | identifier text position => simp [Node.isStatement] at hnode
  | literal text position => simp [Node.isStatement] at hnode

theorem Node.lowerAll_agrees (meaning : Meaning V)
    {machine store : Valuation V} (hagrees : Agrees machine store)
    {statements : List Node}
    (hstatements : ∀ node ∈ statements, node.isStatement = true)
    (hstraight : ∀ node ∈ statements, node.isConditional = false)
    (hplain : ∀ mark ∈ Node.marksAll statements, mark.Plain) (next : Nat) :
    Agrees (meaning.run (Node.lowerAll statements next).code machine)
      (statements.foldl (Node.perform meaning) store) := by
  induction statements generalizing machine store next with
  | nil => exact hagrees
  | cons node rest ih =>
      simp only [Node.marksAll, List.mem_append] at hplain
      have hnode := Node.lower_agrees meaning hagrees
        (hstatements node List.mem_cons_self)
        (hstraight node List.mem_cons_self)
        (fun mark hmark => hplain mark (Or.inl hmark)) next
      have hrest := ih hnode
        (fun other hother => hstatements other (List.mem_cons_of_mem node hother))
        (fun other hother => hstraight other (List.mem_cons_of_mem node hother))
        (fun mark hmark => hplain mark (Or.inr hmark)) (node.lower next).next
      simpa [Node.lowerAll] using hrest

theorem Node.mem_preorder_self (node : Node) : node ∈ node.preorder := by
  cases node <;> simp [Node.preorder]

theorem Node.mem_preorderAll {node : Node} {statements : List Node}
    (hmem : node ∈ statements) : node ∈ Node.preorderAll statements := by
  induction statements with
  | nil => simp at hmem
  | cons first rest ih =>
      rw [Node.preorderAll, List.mem_append]
      rcases List.mem_cons.mp hmem with rfl | hrest
      · exact Or.inl node.mem_preorder_self
      · exact Or.inr (ih hrest)

/-- What the tree of a source stands for are tokens of the source. -/
theorem exists_token_of_mem_marks {source : String} {mark : Mark}
    (hmark : mark ∈ (compile source).tree.marks) :
    ∃ token ∈ tokenize source, token.mark = mark := by
  have hsublist := (parse_accounts (tokenize source)).sublist
  rw [List.map_nil, List.append_nil] at hsublist
  obtain ⟨token, htoken, rfl⟩ := List.mem_map.mp (hsublist.subset hmark)
  exact ⟨token, (List.mem_filter.mp htoken).1, rfl⟩

/-- What a parsed source tells of its names and literals is plain, if none of
its identifiers looks like a temporary. -/
theorem compile_marks_plain {source : String}
    (hnames : ∀ mark ∈ (compile source).tree.marks,
      mark.kind = .identifier → isTemporary mark.text = false) :
    ∀ mark ∈ (compile source).tree.marks, mark.Plain := by
  intro mark hmark
  obtain ⟨token, htoken, rfl⟩ := exists_token_of_mem_marks hmark
  constructor
  · intro hkind
    exact ⟨isName_of_identifier htoken hkind, hnames token.mark hmark hkind⟩
  · intro hkind
    exact isName_of_literal htoken hkind

/-- Code generation preserves meaning on straight-line programs: whatever
literals, operators and declarations mean, carrying out the code of a source
without conditional statements ends in the store that the direct evaluation of
its statements ends in, temporaries apart, if no identifier looks like a
temporary. -/
theorem compile_preserves_meaning (source : String)
    (hstraight : ∀ node ∈ (compile source).tree.preorder,
      node.isConditional = false)
    (hnames : ∀ mark ∈ (compile source).tree.marks,
      mark.kind = .identifier → isTemporary mark.text = false)
    (meaning : Meaning V) (initial : Valuation V) (name : String)
    (hname : isTemporary name = false) :
    meaning.run (compile source).instructions initial name =
      (compile source).tree.evaluate meaning initial name := by
  obtain ⟨statements, htree, hshape⟩ := parse_isStatementAll (tokenize source)
  have hplain := compile_marks_plain hnames
  have hcode : (compile source).instructions = generate (compile source).tree :=
    rfl
  change (compile source).tree = .compound .program statements none at htree
  rw [htree] at hstraight hplain
  rw [hcode, htree]
  apply Node.lowerAll_agrees meaning (fun _ _ => rfl)
    (Node.isStatementAll_iff.mp hshape) _ hplain 0 name hname
  intro node hnode
  exact hstraight node
    (List.mem_cons_of_mem _ (Node.mem_preorderAll hnode))

/-- Integers, where a declaration sets a variable to zero and only sums,
differences and products are of interest. -/
def integerMeaning : Meaning Int where
  literal text := text.toNat?.getD 0
  apply
    | .add, left, right => left + right
    | .sub, left, right => left - right
    | .mul, left, right => left * right
    | _, _, _ => 0
  declare _ _ _ := 0
  missing := 0

theorem compile_preserves_meaning_of_sum :
    let compiled := compile "int x = 1 + y * x; x = x - y * y;"
    (∀ node ∈ compiled.tree.preorder, node.isConditional = false) ∧
      (∀ mark ∈ compiled.tree.marks,
        mark.kind = .identifier → isTemporary mark.text = false) ∧
      ∀ initial, integerMeaning.run compiled.instructions initial "x" =
        compiled.tree.evaluate integerMeaning initial "x" := by
  have hstraight : ∀ node ∈
      (compile "int x = 1 + y * x; x = x - y * y;").tree.preorder,
      node.isConditional = false := by decide +kernel
  have hnames : ∀ mark ∈
      (compile "int x = 1 + y * x; x = x - y * y;").tree.marks,
      mark.kind = .identifier → isTemporary mark.text = false := by
    decide +kernel
  exact ⟨hstraight, hnames, fun initial =>
    compile_preserves_meaning "int x = 1 + y * x; x = x - y * y;" hstraight
      hnames integerMeaning initial "x" (by decide)⟩

end ThreeAddress
