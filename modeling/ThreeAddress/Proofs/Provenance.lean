import ThreeAddress.Proofs.Declarations
import ThreeAddress.Proofs.Initialization
import ThreeAddress.Proofs.LongestMatch

/-!
Where the names in code come from.  Analysis looks a name up where it is visited,
in the scopes that are open there; code is one flat list, in which a value comes
before the assignment that it is for.  Still the two agree: if analysis finds
every name declared, then every name in code is declared or computed by an
earlier instruction.  A tree is the link between them.  In its order every used
name follows a declaration of it, and lowering keeps that order as far as
declarations go.
-/

namespace ThreeAddress

/-- Whether a text is an identifier: a word that is neither reserved nor a
literal. -/
def isIdentifier (text : String) : Bool :=
  isWord text && !keywords.contains text && !booleanWords.contains text

theorem isIdentifier_iff {text : String} :
    isIdentifier text = true ↔
      isWord text = true ∧ text ∉ keywords ∧ text ∉ booleanWords := by
  simp [isIdentifier, and_assoc]

theorem isName_of_isIdentifier {text : String}
    (hidentifier : isIdentifier text = true) : isName text = true := by
  obtain ⟨hword, -, hboolean⟩ := isIdentifier_iff.mp hidentifier
  simp [isName, hword, hboolean]

theorem isIdentifier_temporary (number : Nat) :
    isIdentifier (temporary number) = true := by
  have hkeywords : ∀ word ∈ keywords, isTemporary word = false := by decide
  have hname := isName_temporary number
  simp only [isName, Bool.and_eq_true, Bool.not_eq_true',
    List.contains_eq_mem, decide_eq_false_iff_not] at hname
  refine isIdentifier_iff.mpr ⟨hname.1, ?_, hname.2⟩
  intro hmem
  have htemporary := hkeywords _ hmem
  rw [isTemporary_temporary] at htemporary
  contradiction

/-- The identifiers among the tokens are those whose text is one. -/
theorem kind_eq_identifier_iff {source : String} {token : Token}
    (hmem : token ∈ tokenize source) :
    token.kind = .identifier ↔ isIdentifier token.text = true := by
  obtain ⟨first, rest, extra, hlexeme, htext⟩ :=
    exists_lexeme_of_mem_tokenize hmem
  rw [isIdentifier_iff]
  constructor
  · intro hkind
    rw [htext]
    exact (lexeme?_word hlexeme).1 hkind
  · rintro ⟨hword, hreserved⟩
    rw [htext, isWord_ofList_cons, Bool.and_eq_true] at hword
    have hread := hlexeme.symm.trans (Lexes.lexeme?_eq (.word hword.1))
    simp only [Option.some.injEq, Lexeme.mk.injEq] at hread
    obtain ⟨hkind, rfl⟩ := hread
    rw [take_length_takeWhile] at htext
    rw [hkind, ← htext]
    exact wordKind_eq_identifier_iff.mpr hreserved

/-- A mark whose kind and text agree: the identifiers are those whose text is
one, and no literal is a name. -/
structure Mark.Lexical (mark : Mark) : Prop where
  identifier : mark.kind = .identifier ↔ isIdentifier mark.text = true
  literal : mark.kind = .literal → isName mark.text = false

theorem compile_marks_lexical (source : String) :
    ∀ mark ∈ (compile source).tree.marks, mark.Lexical := by
  intro mark hmark
  obtain ⟨token, htoken, rfl⟩ := exists_token_of_mem_marks hmark
  exact ⟨kind_eq_identifier_iff htoken, isName_of_literal htoken⟩

namespace Instruction

def operands (instruction : Instruction) : List String :=
  instruction.operand1.toList ++ instruction.operand2.toList

def declared? (instruction : Instruction) : Option String :=
  match instruction.opcode with
  | .declare => instruction.result
  | _ => none

/-- The name that an instruction brings in: one that it declares, or one that it
computes. -/
def introduced? (instruction : Instruction) : Option String :=
  match instruction.opcode with
  | .assign => none
  | _ => instruction.result

theorem declared?_eq_some_iff {instruction : Instruction} {name : String} :
    instruction.declared? = some name ↔
      instruction.opcode = .declare ∧ instruction.result = some name := by
  cases hopcode : instruction.opcode <;> simp [declared?, hopcode]

theorem introduced?_eq_some_iff {instruction : Instruction} {name : String} :
    instruction.introduced? = some name ↔
      (instruction.opcode = .declare ∨
        ∃ operator, instruction.opcode = .binary operator) ∧
          instruction.result = some name := by
  cases hopcode : instruction.opcode <;> simp [introduced?, hopcode]

theorem mem_reads_of_mem_operands {instruction : Instruction} {name : String}
    (hopcode : instruction.opcode ≠ .declare)
    (hname : name ∈ instruction.operands) (hisName : isName name = true) :
    name ∈ instruction.reads := by
  rw [reads]
  split
  · contradiction
  · exact List.mem_filter.mpr ⟨hname, hisName⟩

/-- An instruction whose names come from the instructions before it: it assigns
to a declared name and reads names that are brought in, and what it declares has
a type that is no identifier. -/
structure Backed (earlier : List Instruction) (instruction : Instruction) :
    Prop where
  target : instruction.opcode = .assign →
    ∃ name, instruction.result = some name ∧ Given declared? earlier name
  reads : ∀ name ∈ instruction.reads, isIdentifier name = true ∧
    Given introduced? earlier name
  type : instruction.opcode = .declare →
    ∀ operand ∈ instruction.operands, isIdentifier operand = false

end Instruction

/-- What is declared is brought in. -/
theorem Given.introduced {code : List Instruction} {name : String}
    (hdeclared : Given Instruction.declared? code name) :
    Given Instruction.introduced? code name := by
  obtain ⟨instruction, hmem, hname⟩ := hdeclared
  obtain ⟨hopcode, hresult⟩ := Instruction.declared?_eq_some_iff.mp hname
  exact ⟨instruction, hmem,
    Instruction.introduced?_eq_some_iff.mpr ⟨Or.inl hopcode, hresult⟩⟩

/-- Code whose names come from the code before it, each instruction counting for
those that follow. -/
def BackedAll (earlier : List Instruction) : List Instruction → Prop
  | [] => True
  | instruction :: rest =>
      instruction.Backed earlier ∧ BackedAll (earlier ++ [instruction]) rest

theorem backedAll_append {earlier first second : List Instruction} :
    BackedAll earlier (first ++ second) ↔
      BackedAll earlier first ∧ BackedAll (earlier ++ first) second := by
  induction first generalizing earlier with
  | nil => simp [BackedAll]
  | cons instruction rest ih => simp [BackedAll, ih, and_assoc]

/-- At each place of the code. -/
theorem BackedAll.backed {earlier code : List Instruction}
    (hcode : BackedAll earlier code) {index : Nat} {instruction : Instruction}
    (hat : code[index]? = some instruction) :
    instruction.Backed (earlier ++ code.take index) := by
  induction code generalizing earlier index with
  | nil => simp at hat
  | cons head rest ih =>
      cases index with
      | zero =>
          cases hat
          simpa using hcode.1
      | succ index => simpa using ih hcode.2 hat

/-- Lowered code whose names come from the code before it, and whose operand, if
it is a name, has been brought in when the code is done. -/
structure Lowered.Backed (earlier : List Instruction) (lowered : Lowered) :
    Prop where
  code : BackedAll earlier lowered.code
  operand : ∀ name, lowered.operand = some name → isName name = true →
    isIdentifier name = true ∧
      Given Instruction.introduced? (earlier ++ lowered.code) name

namespace Lowered.Backed

variable {earlier : List Instruction} {left right : Lowered}

/-- The operand may be assigned to a declared name. -/
theorem assign (hleft : left.Backed earlier) {target : String}
    (htarget : Given Instruction.declared? earlier target) :
    BackedAll earlier
      (left.code ++ [Instruction.assign left.operand target]) := by
  rw [backedAll_append]
  refine ⟨hleft.code, ⟨?_, ?_, by simp [Instruction.assign]⟩, trivial⟩
  · rintro -
    exact ⟨target, rfl, given_append.mpr (Or.inl htarget)⟩
  · intro name hname
    obtain ⟨hoperand, hisName⟩ := Instruction.mem_reads_assign.mp hname
    exact hleft.operand name hoperand hisName

/-- Two operands, the second computed after the first, and a temporary for the
operator that is applied to them. -/
theorem binary (hleft : left.Backed earlier)
    (hright : right.Backed (earlier ++ left.code)) (operator : Operator)
    (number next : Nat) :
    Backed earlier
      ⟨some (temporary number), left.code ++ right.code ++
        [.binary operator (left.operand.getD "") (right.operand.getD "")
          (temporary number)], next⟩ := by
  constructor
  · rw [backedAll_append, backedAll_append]
    refine ⟨⟨hleft.code, hright.code⟩,
      ⟨by simp [Instruction.binary], ?_, by simp [Instruction.binary]⟩, trivial⟩
    intro name hname
    obtain ⟨hoperand, hisName⟩ := Instruction.mem_reads_binary.mp hname
    rw [← List.append_assoc]
    rcases hoperand with hoperand | hoperand
    · exact (hleft.operand name (operand_of_getD hoperand hisName)
        hisName).imp_right fun hgiven => given_append.mpr (Or.inl hgiven)
    · exact hright.operand name (operand_of_getD hoperand hisName) hisName
  · intro name hname _
    cases hname
    refine ⟨isIdentifier_temporary number, ?_⟩
    rw [given_append, given_append, given_singleton]
    exact Or.inr (Or.inr rfl)

end Lowered.Backed

def Node.declaredName? : Node → Option String
  | declaration _ name _ _ => some name.text
  | _ => none

/-- Some nodes declare a name. -/
def NamesDeclared (nodes : List Node) (name : String) : Prop :=
  ∃ node ∈ nodes, node.declaredName? = some name

/-- Nodes in whose order every used name is known before, or is declared by an
earlier one of them. -/
def UsesKnown (known : String → Prop) : List Node → Prop
  | [] => True
  | node :: rest =>
      (∀ use ∈ node.use?, known use.name) ∧
        UsesKnown (fun name => known name ∨ node.declaredName? = some name) rest

theorem UsesKnown.mono {known others : String → Prop} {nodes : List Node}
    (hnodes : UsesKnown known nodes)
    (hmono : ∀ name, known name → others name) : UsesKnown others nodes := by
  induction nodes generalizing known others with
  | nil => trivial
  | cons node rest ih =>
      exact ⟨fun use huse => hmono use.name (hnodes.1 use huse),
        ih hnodes.2 fun name => Or.imp_left (hmono name)⟩

theorem usesKnown_append {known : String → Prop} {first second : List Node} :
    UsesKnown known (first ++ second) ↔
      UsesKnown known first ∧
        UsesKnown (fun name => known name ∨ NamesDeclared first name)
          second := by
  induction first generalizing known with
  | nil => simp [UsesKnown, NamesDeclared]
  | cons node rest ih => simp [UsesKnown, NamesDeclared, ih, and_assoc, or_assoc]

theorem UsesKnown.tail {known : String → Prop} {node : Node}
    {rest : List Node} (hnodes : UsesKnown known (node :: rest))
    (hnode : node.declaredName? = none) : UsesKnown known rest := by
  refine hnodes.2.mono ?_
  rintro name (hknown | hdeclared)
  · exact hknown
  · simp [hnode] at hdeclared

/-- Code that declares what some nodes declare makes their names known. -/
theorem UsesKnown.after {earlier code : List Instruction}
    {first rest : List Node}
    (hnodes : UsesKnown (Given Instruction.declared? earlier) (first ++ rest))
    (hcode : ∀ name, NamesDeclared first name →
      Given Instruction.declared? code name) :
    UsesKnown (Given Instruction.declared? (earlier ++ code)) rest := by
  refine (usesKnown_append.mp hnodes).2.mono ?_
  intro name hname
  exact given_append.mpr (hname.imp_right (hcode name))

/-- The names of declarations are among those that the code declares. -/
theorem given_declared {code : List Instruction} {nodes : List Node}
    (hcode : code.filter Instruction.isDeclaration =
      nodes.filterMap Node.declaration?) {name : String}
    (hname : NamesDeclared nodes name) :
    Given Instruction.declared? code name := by
  obtain ⟨node, hnode, hdeclared⟩ := hname
  cases node with
  | declaration ty declared initializer position =>
      cases hdeclared
      have hmem : Instruction.declare ty declared.text ∈
          nodes.filterMap Node.declaration? :=
        List.mem_filterMap.mpr ⟨_, hnode, rfl⟩
      rw [← hcode] at hmem
      exact ⟨_, (List.mem_filter.mp hmem).1, rfl⟩
  | _ => simp [Node.declaredName?] at hdeclared

namespace Node

mutual

/-- If every name that a tree uses is declared before, in the code so far or in
the tree, then the names in its code come from before. -/
theorem lower_backed (node : Node) (next : Nat) {earlier : List Instruction}
    (huses : UsesKnown (Given Instruction.declared? earlier) node.preorder)
    (hmarks : ∀ mark ∈ node.marks, mark.Lexical) :
    (node.lower next).Backed earlier := by
  cases node with
  | compound form statements position =>
      refine lowerAll_backed statements next (huses.tail rfl) ?_
      intro mark hmark
      apply hmarks
      cases form <;> simp [marks, hmark]
  | declaration ty name initializer position =>
      have hdeclare : (Instruction.declare ty name.text).Backed earlier := by
        refine ⟨by simp [Instruction.declare], by simp [Instruction.declare,
          Instruction.reads], ?_⟩
        have hkeyword := hmarks ⟨.keyword, ty.name, position⟩ (by simp [marks])
        simpa [Instruction.operands, Instruction.declare] using
          hkeyword.identifier
      have hknown : UsesKnown (Given Instruction.declared?
          (earlier ++ [.declare ty name.text])) (preorderOption initializer) := by
        refine huses.2.mono fun other hother => ?_
        rw [given_append, given_singleton]
        exact hother
      have hvalue := lowerOption_backed initializer next hknown
        (fun mark hmark => hmarks mark (by simp [marks, hmark]))
      refine ⟨⟨hdeclare, ?_⟩, by simp [lower]⟩
      cases initializer with
      | none => trivial
      | some value =>
          exact hvalue.assign
            (given_append.mpr (Or.inr (given_singleton.mpr rfl)))
  | assignment target value position =>
      have htarget := huses.1 _ rfl
      have hvalue := lowerOption_backed value next (huses.tail rfl)
        (fun mark hmark => hmarks mark (by simp [marks, hmark]))
      exact ⟨hvalue.assign htarget, by simp [lower]⟩
  | conditional form condition body position =>
      have hparts := huses.tail rfl
      have hfirst := lowerOption_backed condition next
        (usesKnown_append.mp hparts).1
        (fun mark hmark => hmarks mark (by simp [marks, hmark]))
      have hsecond := lowerOption_backed body (lowerOption condition next).next
        (hparts.after fun name =>
          given_declared (lowerOption_declarations condition next))
        (fun mark hmark => hmarks mark (by simp [marks, hmark]))
      exact ⟨backedAll_append.mpr ⟨hfirst.code, hsecond.code⟩, by simp [lower]⟩
  | result value position =>
      have hvalue := lowerOption_backed value next (huses.tail rfl)
        (fun mark hmark => hmarks mark (by simp [marks, hmark]))
      exact ⟨hvalue.code, by simp [lower]⟩
  | binary operator left right position =>
      have hparts := huses.tail rfl
      have hleft := lower_backed left next (usesKnown_append.mp hparts).1
        (fun mark hmark => hmarks mark (by simp [marks, hmark]))
      have hright := lower_backed right (left.lower next).next
        (hparts.after fun name => given_declared (lower_declarations left next))
        (fun mark hmark => hmarks mark (by simp [marks, hmark]))
      exact hleft.binary hright operator _ _
  | identifier text position =>
      refine ⟨trivial, fun name hname _ => ?_⟩
      cases hname
      have hmark := hmarks ⟨.identifier, text, position⟩ (by simp [marks])
      have hdeclared : Given Instruction.declared? earlier text :=
        huses.1 _ rfl
      exact ⟨hmark.identifier.mp rfl,
        given_append.mpr (Or.inl hdeclared.introduced)⟩
  | literal text position =>
      refine ⟨trivial, fun name hname hisName => ?_⟩
      cases hname
      have hmark := hmarks ⟨.literal, text, position⟩ (by simp [marks])
      simp [hmark.literal rfl] at hisName

theorem lowerAll_backed (nodes : List Node) (next : Nat)
    {earlier : List Instruction}
    (huses : UsesKnown (Given Instruction.declared? earlier)
      (preorderAll nodes))
    (hmarks : ∀ mark ∈ marksAll nodes, mark.Lexical) :
    (lowerAll nodes next).Backed earlier := by
  cases nodes with
  | nil => exact ⟨trivial, by simp [lowerAll]⟩
  | cons node rest =>
      have hfirst := lower_backed node next (usesKnown_append.mp huses).1
        (fun mark hmark => hmarks mark (by simp [marksAll, hmark]))
      have hothers := lowerAll_backed rest (node.lower next).next
        (huses.after fun name => given_declared (lower_declarations node next))
        (fun mark hmark => hmarks mark (by simp [marksAll, hmark]))
      exact ⟨backedAll_append.mpr ⟨hfirst.code, hothers.code⟩,
        by simp [lowerAll]⟩

theorem lowerOption_backed (node : Option Node) (next : Nat)
    {earlier : List Instruction}
    (huses : UsesKnown (Given Instruction.declared? earlier)
      (preorderOption node))
    (hmarks : ∀ mark ∈ marksOption node, mark.Lexical) :
    (lowerOption node next).Backed earlier := by
  cases node with
  | none => exact ⟨trivial, by simp [lowerOption]⟩
  | some node => exact lower_backed node next huses hmarks

end

end Node

theorem Visit.declaredName?_of_declares {visit : Visit} {name : String}
    {scope : Nat} (hdeclares : visit.declares name scope = true) :
    visit.node.declaredName? = some name := by
  obtain ⟨node, scopes⟩ := visit
  cases node with
  | declaration ty declared initializer position =>
      cases scopes with
      | nil => simp [declares, symbol?] at hdeclares
      | cons scope outer =>
          simp only [declares, symbol?, Option.any_some, Bool.and_eq_true,
            beq_iff_eq] at hdeclares
          simp [Node.declaredName?, hdeclares.2]
  | _ => simp [declares, symbol?] at hdeclares

/-- Visits on which no undeclared name is reported: in their order every used
name follows a declaration of it. -/
theorem usesKnown_of_report? {earlier visits : List Visit}
    (hreports : ∀ occurrence ∈ occurrences earlier visits,
      occurrence.report? = none) :
    UsesKnown (NamesDeclared (earlier.map Visit.node))
      (visits.map Visit.node) := by
  induction visits generalizing earlier with
  | nil => trivial
  | cons visit rest ih =>
      obtain ⟨hhead, htail⟩ := List.forall_mem_cons.mp hreports
      constructor
      · intro use huse
        have hdeclared : ¬Occurrence.Undeclared ⟨earlier, visit⟩ use.name := by
          intro hundeclared
          simp [Occurrence.report?, Option.mem_def.mp huse, hundeclared] at hhead
        simp only [Occurrence.Undeclared, not_forall] at hdeclared
        obtain ⟨declaration, hmem, scope, -, hdeclares⟩ := hdeclared
        exact ⟨declaration.node, List.mem_map_of_mem hmem,
          Visit.declaredName?_of_declares (eq_true_of_ne_false hdeclares)⟩
      · refine (ih htail).mono fun name hname => ?_
        simpa [NamesDeclared, or_and_right, exists_or] using hname

/-- Analysis and code agree on declared names.  In the code of a source in which
analysis finds no undeclared name, every name that is assigned to is declared by
an earlier instruction, and every operand that is an identifier is declared or
computed by one.  The type that a declaration has as its operand is reserved and
no identifier; whatever the other instructions read is one. -/
theorem compile_names_introduced (source : String)
    (hdeclared : Diagnostic.ofKind .undeclaredUse
      (compile source).analysis.diagnostics = [])
    (index : Nat) (instruction : Instruction)
    (hat : (compile source).instructions[index]? = some instruction) :
    (instruction.opcode = .assign →
      ∃ earlier ∈ (compile source).instructions.take index,
        earlier.opcode = .declare ∧ earlier.result = instruction.result) ∧
      (∀ operand ∈ instruction.operands, isIdentifier operand = true →
        ∃ earlier ∈ (compile source).instructions.take index,
          (earlier.opcode = .declare ∨
            ∃ operator, earlier.opcode = .binary operator) ∧
              earlier.result = some operand) ∧
      ∀ operand ∈ instruction.reads, isIdentifier operand = true := by
  have hroute := (compile source).tree.walk_route 0 [] 1
  have hreports := (analyze_ofKind (by decide) (compile source).tree).symm.trans
    hdeclared
  rw [Mirrors.undeclaredUse_route Mirrors.start hroute, List.append_eq_nil_iff,
    List.filterMap_eq_nil_iff] at hreports
  have huses := usesKnown_of_report? hreports.2
  rw [Node.visits_map_node] at huses
  have hgiven : UsesKnown (Given Instruction.declared? [])
      (compile source).tree.preorder :=
    huses.mono fun name hname => by simp [NamesDeclared] at hname
  have hcode := ((compile source).tree.lower_backed 0 hgiven
    (compile_marks_lexical source)).code
  have hbacked := hcode.backed hat
  rw [List.nil_append] at hbacked
  refine ⟨?_, ?_, fun operand hoperand => (hbacked.reads operand hoperand).1⟩
  · intro hassign
    obtain ⟨name, hresult, earlier, hmem, hname⟩ := hbacked.target hassign
    rw [hresult]
    exact ⟨earlier, hmem, Instruction.declared?_eq_some_iff.mp hname⟩
  · intro operand hoperand hidentifier
    have hopcode : instruction.opcode ≠ .declare := by
      intro hdeclare
      simp [hbacked.type hdeclare operand hoperand] at hidentifier
    obtain ⟨earlier, hmem, hname⟩ := (hbacked.reads operand
      (Instruction.mem_reads_of_mem_operands hopcode hoperand
        (isName_of_isIdentifier hidentifier))).2
    exact ⟨earlier, hmem, Instruction.introduced?_eq_some_iff.mp hname⟩

theorem compile_names_introduced_of_loop :
    let source := "int x = 9; while (x > 1) \x7b int y = x / 2; " ++
      "if (y == 3) x = y - x; x = y; \x7d return x;"
    Diagnostic.ofKind .undeclaredUse (compile source).analysis.diagnostics = [] ∧
      (compile source).instructions[8]? = some (.assign (some "t3") "x") ∧
      (∃ earlier ∈ (compile source).instructions.take 8,
        earlier.opcode = .declare ∧ earlier.result = some "x") ∧
      ∃ earlier ∈ (compile source).instructions.take 8,
        (earlier.opcode = .declare ∨
          ∃ operator, earlier.opcode = .binary operator) ∧
            earlier.result = some "t3" := by
  intro source
  have hdeclared : Diagnostic.ofKind .undeclaredUse
      (compile source).analysis.diagnostics = [] := by decide +kernel
  have hat : (compile source).instructions[8]? =
      some (.assign (some "t3") "x") := by decide +kernel
  obtain ⟨htarget, hoperands, -⟩ :=
    compile_names_introduced source hdeclared 8 _ hat
  exact ⟨hdeclared, hat, htarget rfl,
    hoperands "t3" (by decide) (by decide +kernel)⟩

end ThreeAddress
