import ThreeAddress.Proofs.Acceptance
import ThreeAddress.Proofs.Simulation

/-!
Which names have a value when code reads them.  Analysis takes a name for
initialized from its declaration or assignment on, and code writes it when the
value has been computed; in between the name is read in its own value only.  So
without errors and conditional statements, a name that is read has been written
before, or it is the one that the statement at hand gives a value.
-/

namespace ThreeAddress

namespace Instruction

/-- The names that an instruction reads.  The operand of a declaration is the
name of a type, and nothing is read there. -/
def reads (instruction : Instruction) : List String :=
  match instruction.opcode with
  | .declare => []
  | _ =>
      (instruction.operand1.toList ++ instruction.operand2.toList).filter isName

def written? (instruction : Instruction) : Option String :=
  match instruction.opcode with
  | .declare => none
  | _ => instruction.result

theorem mem_reads_assign {value : Option String} {target name : String} :
    name ∈ (assign value target).reads ↔
      value = some name ∧ isName name = true := by
  simp [assign, reads]

theorem mem_reads_binary {operator : Operator}
    {left right target name : String} :
    name ∈ (binary operator left right target).reads ↔
      (name = left ∨ name = right) ∧ isName name = true := by
  simp [binary, reads]

end Instruction

/-- A name is among the results of code, of those that count. -/
def Given (given? : Instruction → Option String) (code : List Instruction)
    (name : String) : Prop :=
  ∃ instruction ∈ code, given? instruction = some name

/-- Code in which every name that is read is known before, or is given by an
earlier instruction. -/
def Covered (given? : Instruction → Option String) (known : String → Prop) :
    List Instruction → Prop
  | [] => True
  | instruction :: rest =>
      (∀ name ∈ instruction.reads, known name) ∧
        Covered given?
          (fun name => known name ∨ given? instruction = some name) rest

section Coverage

variable {given? : Instruction → Option String} {known : String → Prop}
  {first second : List Instruction} {name : String}

theorem given_append :
    Given given? (first ++ second) name ↔
      Given given? first name ∨ Given given? second name := by
  simp [Given, or_and_right, exists_or]

theorem given_singleton {instruction : Instruction} :
    Given given? [instruction] name ↔ given? instruction = some name := by
  simp [Given]

theorem Covered.mono {others : String → Prop} {code : List Instruction}
    (hcovered : Covered given? known code)
    (hmono : ∀ name, known name → others name) :
    Covered given? others code := by
  induction code generalizing known others with
  | nil => trivial
  | cons instruction rest ih =>
      refine ⟨fun name hname => hmono name (hcovered.1 name hname), ?_⟩
      exact ih hcovered.2 fun name => Or.imp_left (hmono name)

/-- Code that follows other code may read what is given there. -/
theorem covered_append :
    Covered given? known (first ++ second) ↔
      Covered given? known first ∧
        Covered given? (fun name => known name ∨ Given given? first name)
          second := by
  induction first generalizing known with
  | nil => simp [Covered, Given]
  | cons instruction rest ih =>
      rw [List.cons_append, Covered, Covered, ih, and_assoc]
      simp [Given, or_assoc]

theorem covered_singleton {instruction : Instruction} :
    Covered given? known [instruction] ↔
      ∀ name ∈ instruction.reads, known name := by
  simp [Covered]

/-- At each place of covered code. -/
theorem Covered.known_or_given {code : List Instruction}
    (hcovered : Covered given? known code) {index : Nat}
    {instruction : Instruction} (hat : code[index]? = some instruction)
    (hname : name ∈ instruction.reads) :
    known name ∨ Given given? (code.take index) name := by
  induction code generalizing known index with
  | nil => simp at hat
  | cons head rest ih =>
      cases index with
      | zero =>
          cases hat
          exact Or.inl (hcovered.1 name hname)
      | succ index =>
          rcases ih hcovered.2 hat with (hknown | hhead) | hgiven
          · exact Or.inl hknown
          · exact Or.inr ⟨head, List.mem_cons_self, hhead⟩
          · obtain ⟨earlier, hmem, hearlier⟩ := hgiven
            exact Or.inr ⟨earlier, List.mem_cons_of_mem head hmem, hearlier⟩

end Coverage

/-- Lowered code that is covered, and whose operand is known or given when the
code is done, if it is a name. -/
structure Lowered.Supplied (given? : Instruction → Option String)
    (known : String → Prop) (lowered : Lowered) : Prop where
  code : Covered given? known lowered.code
  operand : ∀ name, lowered.operand = some name → isName name = true →
    known name ∨ Given given? lowered.code name

/-- A name that is read in place of an operand is that operand; where there is
none, the empty text is read, which is no name. -/
theorem Lowered.operand_of_getD {lowered : Lowered} {name : String}
    (hname : name = lowered.operand.getD "") (hisName : isName name = true) :
    lowered.operand = some name := by
  cases hoperand : lowered.operand with
  | none =>
      rw [hoperand, Option.getD_none] at hname
      subst hname
      exact absurd hisName (by decide)
  | some text => rw [hname, hoperand, Option.getD_some]

namespace Lowered.Supplied

variable {given? : Instruction → Option String} {known : String → Prop}
  {left right : Lowered}

/-- The operand may be assigned. -/
theorem assign (hleft : left.Supplied given? known) (target : String) :
    Covered given? known
      (left.code ++ [Instruction.assign left.operand target]) := by
  rw [covered_append, covered_singleton]
  refine ⟨hleft.code, fun name hname => ?_⟩
  obtain ⟨hoperand, hisName⟩ := Instruction.mem_reads_assign.mp hname
  exact hleft.operand name hoperand hisName

/-- Two operands, the second computed after the first, and an operator that is
applied to them. -/
theorem binary (hleft : left.Supplied given? known)
    (hright : right.Supplied given? known) (operator : Operator)
    {target : String}
    (hgiven : given? (.binary operator (left.operand.getD "")
      (right.operand.getD "") target) = some target) (next : Nat) :
    Supplied given? known
      ⟨some target, left.code ++ right.code ++
        [.binary operator (left.operand.getD "") (right.operand.getD "")
          target], next⟩ := by
  constructor
  · rw [covered_append, covered_append, covered_singleton]
    refine ⟨⟨hleft.code, hright.code.mono fun name => Or.inl⟩, ?_⟩
    intro name hname
    obtain ⟨hoperand, hisName⟩ := Instruction.mem_reads_binary.mp hname
    rw [given_append]
    rcases hoperand with hoperand | hoperand
    · exact (hleft.operand name (operand_of_getD hoperand hisName)
        hisName).imp_right Or.inl
    · exact (hright.operand name (operand_of_getD hoperand hisName)
        hisName).imp_right Or.inr
  · intro name hoperand _
    cases hoperand
    rw [given_append, given_singleton]
    exact Or.inr (Or.inr hgiven)

end Lowered.Supplied

namespace Node

section Lowering

variable {given? : Instruction → Option String} {known : String → Prop}
  (hbinary : ∀ operator left right target,
    given? (.binary operator left right target) = some target)

include hbinary

/-- The code of an expression reads the names that are used in the expression,
and temporaries that it has written itself. -/
theorem lower_supplied (node : Node) (hnode : node.isExpression = true)
    (hliterals : ∀ mark ∈ node.marks, mark.kind = .literal →
      isName mark.text = false)
    (huses : ∀ name line, Step.use name line ∈ node.walk → known name)
    (next : Nat) : (node.lower next).Supplied given? known := by
  induction node, hnode using expression_induction generalizing next with
  | identifier text position =>
      refine ⟨trivial, fun name hoperand _ => ?_⟩
      cases hoperand
      exact Or.inl (huses text _ List.mem_cons_self)
  | literal text position =>
      refine ⟨trivial, fun name hoperand hname => ?_⟩
      cases hoperand
      have hliteral := hliterals ⟨.literal, text, position⟩ (by simp [marks]) rfl
      simp [hliteral] at hname
  | binary operator left right position hleft hright hnode ihleft ihright =>
      simp only [marks, List.mem_append, List.mem_cons] at hliterals
      simp only [walk, List.mem_append] at huses
      have hfirst := ihleft
        (fun mark hmark => hliterals mark (Or.inl hmark))
        (fun name line huse => huses name line (Or.inl (Or.inl huse))) next
      have hsecond := ihright
        (fun mark hmark => hliterals mark (Or.inr (Or.inr hmark)))
        (fun name line huse => huses name line (Or.inl (Or.inr huse)))
        (left.lower next).next
      exact hfirst.binary hsecond operator (hbinary ..) _

theorem lowerOption_supplied (value : Option Node)
    (hvalue : value.all isExpression = true)
    (hliterals : ∀ mark ∈ marksOption value, mark.kind = .literal →
      isName mark.text = false)
    (huses : ∀ name line, Step.use name line ∈ walkOption value → known name)
    (next : Nat) : (lowerOption value next).Supplied given? known := by
  cases value with
  | none => exact ⟨trivial, by simp [lowerOption]⟩
  | some node => exact lower_supplied hbinary node hvalue hliterals huses next

/-- The code of a statement without a condition reads the names that are used
there. -/
theorem lower_covered {node : Node} (hnode : node.isStatement = true)
    (hstraight : node.isConditional = false)
    (hliterals : ∀ mark ∈ node.marks, mark.kind = .literal →
      isName mark.text = false)
    (huses : ∀ name line, Step.use name line ∈ node.walk → known name)
    (next : Nat) : Covered given? known (node.lower next).code := by
  cases node, hnode, hstraight using straight_cases with
  | declaration ty name initializer position hvalue =>
      have hsupplied := lowerOption_supplied hbinary initializer hvalue
        (fun mark hmark => hliterals mark (by simp [marks, hmark]))
        (fun name line huse => huses name line (by simp [walk, huse])) next
      refine ⟨by simp [Instruction.reads, Instruction.declare], ?_⟩
      cases initializer with
      | none => trivial
      | some value =>
          exact (hsupplied.assign name.text).mono fun name => Or.inl
  | assignment target value position hvalue =>
      have hsupplied := lowerOption_supplied hbinary value hvalue
        (fun mark hmark => hliterals mark (by simp [marks, hmark]))
        (fun name line huse => huses name line (by simp [walk, huse])) next
      exact hsupplied.assign target.text
  | result value position hvalue =>
      have hsupplied := lowerOption_supplied hbinary value hvalue
        (fun mark hmark => hliterals mark (by simp [marks, hmark]))
        (fun name line huse => huses name line (by simpa [walk] using huse))
        next
      exact hsupplied.code

end Lowering

/-- An expression is walked through in its scope, and gives no name a value. -/
theorem walk_of_isExpression (node : Node) (hnode : node.isExpression = true) :
    ∀ step ∈ node.walk, step.isLocal = true ∧ step.given? = none := by
  induction node, hnode using expression_induction with
  | identifier text position => simp [walk, Step.isLocal, Step.given?]
  | literal text position => simp [walk]
  | binary operator left right position hleft hright hnode ihleft ihright =>
      intro step hstep
      simp only [walk, List.mem_append, List.mem_singleton] at hstep
      rcases hstep with (hstep | hstep) | rfl
      · exact ihleft step hstep
      · exact ihright step hstep
      · exact ⟨rfl, rfl⟩

theorem walkOption_of_isExpression (value : Option Node)
    (hvalue : value.all isExpression = true) :
    ∀ step ∈ walkOption value, step.isLocal = true ∧ step.given? = none := by
  cases value with
  | none => simp [walkOption]
  | some node => exact walk_of_isExpression node hvalue

/-- The name that a statement gives a value. -/
def target? : Node → Option String
  | declaration _ name (some _) _ => some name.text
  | assignment target _ _ => some target.text
  | _ => none

/-- The code of a statement writes its target. -/
theorem given_of_target? {node : Node} {name : String}
    (htarget : node.target? = some name) (next : Nat) :
    Given Instruction.written? (node.lower next).code name := by
  cases node with
  | declaration ty declared initializer position =>
      cases initializer with
      | none => simp [target?] at htarget
      | some value =>
          cases htarget
          refine ⟨.assign (value.lower next).operand declared.text, ?_, rfl⟩
          simp [lower, lowerOption]
  | assignment target value position =>
      cases htarget
      refine ⟨.assign (lowerOption value next).operand target.text, ?_, rfl⟩
      simp [lower]
  | _ => simp [target?] at htarget

/-- A statement without a condition is walked through in its scope, and gives a
value to its target only. -/
theorem walk_of_isStatement {node : Node} (hnode : node.isStatement = true)
    (hstraight : node.isConditional = false) :
    ∀ step ∈ node.walk, step.isLocal = true ∧
      ∀ name, step.given? = some name → node.target? = some name := by
  have hvalues : ∀ value : Option Node, value.all isExpression = true →
      ∀ step ∈ walkOption value, step.isLocal = true ∧
        ∀ name, step.given? = some name → node.target? = some name := by
    intro value hvalue step hstep
    obtain ⟨hlocal, hgiven⟩ := walkOption_of_isExpression value hvalue step hstep
    exact ⟨hlocal, by simp [hgiven]⟩
  cases node, hnode, hstraight using straight_cases with
  | declaration ty name initializer position hvalue =>
      intro step hstep
      rcases List.mem_cons.mp hstep with rfl | hstep
      · cases initializer with
        | none => exact ⟨rfl, by simp [Step.given?]⟩
        | some value => exact ⟨rfl, fun other hother => hother⟩
      · exact hvalues initializer hvalue step hstep
  | assignment target value position hvalue =>
      intro step hstep
      rcases List.mem_cons.mp hstep with rfl | hstep
      · exact ⟨rfl, fun other hother => hother⟩
      · exact hvalues value hvalue step hstep
  | result value position hvalue => exact hvalues value hvalue

/-- The code of some statements, each instruction beside the statement that it
comes from. -/
def listing : List Node → (next : Nat) → List (Node × Instruction)
  | [], _ => []
  | node :: rest, next =>
      ((node.lower next).code.map fun instruction => (node, instruction)) ++
        listing rest (node.lower next).next

theorem listing_map_snd (statements : List Node) (next : Nat) :
    (listing statements next).map Prod.snd =
      (lowerAll statements next).code := by
  induction statements generalizing next with
  | nil => rfl
  | cons node rest ih => simp [listing, lowerAll, ih, Function.comp_def]

end Node

/-- An accepted statement without a condition: what it uses had a value before
or is its own target, and what has a value after it had one before or is written
by its code. -/
theorem AcceptedAll.statement {table last : SymbolTable} {node : Node}
    (haccepted : AcceptedAll table node.walk last)
    (htable : table.WellFormed) (hnode : node.isStatement = true)
    (hstraight : node.isConditional = false) :
    (∀ name line, Step.use name line ∈ node.walk →
      table.Assigned name ∨ node.target? = some name) ∧
    ∀ name, last.Assigned name →
      table.Assigned name ∨ node.target? = some name := by
  have hwalk := Node.walk_of_isStatement hnode hstraight
  have hlocal := fun step hstep => (hwalk step hstep).1
  have htarget : ∀ name, (table.Assigned name ∨
      ∃ step ∈ node.walk, step.given? = some name) →
        table.Assigned name ∨ node.target? = some name := by
    rintro name (hassigned | ⟨step, hstep, hgiven⟩)
    · exact Or.inl hassigned
    · exact Or.inr ((hwalk step hstep).2 name hgiven)
  constructor
  · intro name line huse
    exact htarget name (haccepted.assigned htable hlocal (Or.inr ⟨line, huse⟩))
  · intro name hassigned
    exact htarget name (haccepted.assigned htable hlocal (Or.inl hassigned))

/-- Along accepted statements, what is read has been known before or written
since, or is the target of the statement at hand.  What the table takes for
assigned is known all the way. -/
theorem AcceptedAll.listing_reads {statements : List Node}
    {table last : SymbolTable}
    (haccepted : AcceptedAll table (Node.walkAll statements) last)
    (htable : table.WellFormed)
    (hstatements : ∀ node ∈ statements, node.isStatement = true)
    (hstraight : ∀ node ∈ statements, node.isConditional = false)
    (hliterals : ∀ mark ∈ Node.marksAll statements, mark.kind = .literal →
      isName mark.text = false)
    {known : String → Prop} (hknown : ∀ name, table.Assigned name → known name)
    {next index : Nat} {statement : Node} {instruction : Instruction}
    (hat : (Node.listing statements next)[index]? =
      some (statement, instruction))
    {name : String} (hname : name ∈ instruction.reads) :
    (known name ∨ Given Instruction.written?
      ((Node.lowerAll statements next).code.take index) name) ∨
        statement.target? = some name := by
  induction statements generalizing table known next index with
  | nil => simp [Node.listing] at hat
  | cons node rest ih =>
      obtain ⟨middle, hfirst, hothers⟩ := AcceptedAll.append_iff.mp haccepted
      simp only [List.forall_mem_cons] at hstatements hstraight
      simp only [Node.marksAll, List.mem_append] at hliterals
      obtain ⟨huses, hassigned⟩ :=
        hfirst.statement htable hstatements.1 hstraight.1
      have hcovered : Covered Instruction.written?
          (fun name => known name ∨ node.target? = some name)
          (node.lower next).code :=
        Node.lower_covered (fun _ _ _ _ => rfl) hstatements.1 hstraight.1
          (fun mark hmark => hliterals mark (Or.inl hmark))
          (fun name line huse =>
            (huses name line huse).imp_left (hknown name)) next
      simp only [Node.listing, Node.lowerAll] at hat ⊢
      -- The instruction comes from the first statement, or from a later one; for
      -- those, what the first one writes is known as well.
      by_cases hindex : index < (node.lower next).code.length
      · rw [List.getElem?_append_left (by simpa using hindex),
          List.getElem?_map] at hat
        obtain ⟨own, hown, hpair⟩ := Option.map_eq_some_iff.mp hat
        cases hpair
        rw [List.take_append_of_le_length (Nat.le_of_lt hindex)]
        rcases hcovered.known_or_given hown hname with
          (hbefore | htarget) | hgiven
        · exact Or.inl (Or.inl hbefore)
        · exact Or.inr htarget
        · exact Or.inl (Or.inr hgiven)
      · have hlength := Nat.le_of_not_lt hindex
        rw [List.getElem?_append_right (by simpa using hlength),
          List.length_map] at hat
        have hmiddle : ∀ name, middle.Assigned name → known name ∨
            Given Instruction.written? (node.lower next).code name := by
          intro name hname
          rcases hassigned name hname with hbefore | htarget
          · exact Or.inl (hknown name hbefore)
          · exact Or.inr (Node.given_of_target? htarget next)
        have hrest := ih hothers (hfirst.wellFormed htable) hstatements.2
          hstraight.2 (fun mark hmark => hliterals mark (Or.inr hmark))
          hmiddle hat
        rwa [List.take_append, List.take_of_length_le hlength, given_append,
          ← or_assoc]

/-- A source without conditional statements and errors reads no variable before
it has a value, except in the value that the variable itself is given: every name
that an instruction reads is written by an earlier one, or the statement that the
instruction comes from gives that very name its value. -/
theorem compile_reads_written (source : String)
    (hstraight : ∀ node ∈ (compile source).tree.preorder,
      node.isConditional = false)
    (herrors : (compile source).analysis.errors = []) :
    let listing := Node.listing (compile source).tree.statements 0
    listing.map Prod.snd = (compile source).instructions ∧
      ∀ index statement instruction,
        listing[index]? = some (statement, instruction) →
          ∀ name ∈ instruction.reads,
            (∃ earlier ∈ (compile source).instructions.take index,
              earlier.written? = some name) ∨
                statement.target? = some name := by
  obtain ⟨statements, htree, hshape⟩ := parse_isStatementAll (tokenize source)
  change (compile source).tree = .compound .program statements none at htree
  have hcode : (compile source).instructions =
      (Node.lowerAll statements 0).code := by
    change ((compile source).tree.lower 0).code = _
    rw [htree]
    rfl
  have haccepted : AcceptedAll SymbolTable.start
      (compile source).tree.walk _ := analyze_accepted herrors
  have hliterals : ∀ mark ∈ (compile source).tree.marks,
      mark.kind = .literal → isName mark.text = false := by
    intro mark hmark hkind
    obtain ⟨token, htoken, rfl⟩ := exists_token_of_mem_marks hmark
    exact isName_of_literal htoken hkind
  have hunassigned : ∀ name, SymbolTable.start.Assigned name → False := by
    rintro name ⟨id, hresolve, -⟩
    obtain ⟨symbol, hsymbol, -⟩ := SymbolTable.exists_symbol_of_resolve hresolve
    simp [SymbolTable.start] at hsymbol
  rw [htree] at hstraight hliterals haccepted
  rw [htree, hcode]
  refine ⟨Node.listing_map_snd statements 0, ?_⟩
  intro index statement instruction hat name hname
  have hreads := haccepted.listing_reads SymbolTable.start_wellFormed
    (Node.isStatementAll_iff.mp hshape)
    (fun node hnode => hstraight node
      (List.mem_cons_of_mem _ (Node.mem_preorderAll hnode)))
    hliterals hunassigned hat hname
  rwa [false_or] at hreads

theorem compile_reads_written_of_powers :
    let source := "int x = 1 + 2; float y; y = x * x + 1.5; x = y - x; return y;"
    (∀ node ∈ (compile source).tree.preorder, node.isConditional = false) ∧
      (compile source).analysis.errors = [] ∧
      ∀ index statement instruction,
        (Node.listing (compile source).tree.statements 0)[index]? =
            some (statement, instruction) →
          ∀ name ∈ instruction.reads,
            (∃ earlier ∈ (compile source).instructions.take index,
              earlier.written? = some name) ∨
                statement.target? = some name := by
  intro source
  have hstraight : ∀ node ∈ (compile source).tree.preorder,
      node.isConditional = false := by decide +kernel
  have herrors : (compile source).analysis.errors = [] := by decide +kernel
  exact ⟨hstraight, herrors, (compile_reads_written source hstraight herrors).2⟩

/-- A variable may be read in its own initializer, where nothing has been written
to it yet. -/
theorem compile_reads_unwritten :
    let source := "int x = x + 1;"
    (∀ node ∈ (compile source).tree.preorder, node.isConditional = false) ∧
      (compile source).analysis.errors = [] ∧
      ¬∀ index instruction,
        (compile source).instructions[index]? = some instruction →
          ∀ name ∈ instruction.reads,
            ∃ earlier ∈ (compile source).instructions.take index,
              earlier.written? = some name := by
  intro source
  have hcode : (compile source).instructions =
      [.declare .int "x", .binary .add "x" "1" "t0",
        .assign (some "t0") "x"] := by decide +kernel
  refine ⟨by decide +kernel, by decide +kernel, fun hwritten => ?_⟩
  rw [hcode] at hwritten
  obtain ⟨earlier, hmem, hearlier⟩ := hwritten 1
    (.binary .add "x" "1" "t0") rfl "x" (by decide)
  simp only [List.take_succ_cons, List.take_zero, List.mem_singleton] at hmem
  subst hmem
  contradiction

end ThreeAddress
