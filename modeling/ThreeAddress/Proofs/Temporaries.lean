import ThreeAddress.Compilation
import ThreeAddress.Proofs.Vocabulary

/-!
Which temporaries code writes.  Lowering numbers them one after another, one for
each operator of the tree, and looks at no name on the way; so a variable is
safe from them exactly when its name is none of the first so many temporaries.
-/

namespace ThreeAddress

/-- The result of an instruction that applies an operator. -/
def Instruction.computed? (instruction : Instruction) : Option String :=
  match instruction.opcode with
  | .binary _ => instruction.result
  | _ => none

theorem Instruction.computed?_eq_some_iff {instruction : Instruction}
    {text : String} :
    instruction.computed? = some text ↔
      (∃ operator, instruction.opcode = .binary operator) ∧
        instruction.result = some text := by
  cases hopcode : instruction.opcode <;> simp [computed?, hopcode]

namespace Node

def isBinary : Node → Bool
  | binary .. => true
  | _ => false

def countOperators (nodes : List Node) : Nat :=
  nodes.countP isBinary

@[simp] theorem countOperators_nil : countOperators [] = 0 := rfl

@[simp] theorem countOperators_cons (node : Node) (rest : List Node) :
    countOperators (node :: rest) =
      countOperators rest + if node.isBinary then 1 else 0 :=
  List.countP_cons

@[simp] theorem countOperators_append (first second : List Node) :
    countOperators (first ++ second) =
      countOperators first + countOperators second :=
  List.countP_append

end Node

/-- Lowered code that writes so many temporaries, the first of which has the
number `next`. -/
structure Lowered.Numbered (lowered : Lowered) (next count : Nat) : Prop where
  computed : lowered.code.filterMap Instruction.computed? =
    (List.range' next count).map temporary
  next : lowered.next = next + count

namespace Lowered.Numbered

variable {next first second : Nat} {left right : Lowered}

theorem nil (operand : Option String) (next : Nat) :
    Numbered ⟨operand, [], next⟩ next 0 :=
  ⟨rfl, rfl⟩

/-- Code that follows other code goes on with the numbers. -/
theorem append (hleft : left.Numbered next first)
    (hright : right.Numbered left.next second) (operand : Option String) :
    Numbered ⟨operand, left.code ++ right.code, right.next⟩ next
      (first + second) := by
  constructor
  · rw [List.filterMap_append, hleft.computed, hright.computed, hleft.next,
      ← List.map_append, List.range'_append_1]
  · simp only [hright.next, hleft.next, Nat.add_assoc]

/-- Declarations and assignments take no number. -/
theorem declare (hleft : left.Numbered next first) (ty : Ty) (name : String) :
    Numbered ⟨none, Instruction.declare ty name :: left.code, left.next⟩ next
      first :=
  ⟨hleft.computed, hleft.next⟩

theorem assign (hleft : left.Numbered next first) (value : Option String)
    (target : String) :
    Numbered ⟨none, left.code ++ [Instruction.assign value target], left.next⟩
      next first := by
  refine ⟨?_, hleft.next⟩
  rw [List.filterMap_append, hleft.computed]
  exact List.append_nil _

/-- An operator takes the next number. -/
theorem binary (hleft : left.Numbered next first) (operator : Operator)
    (operand1 operand2 : String) :
    Numbered
      ⟨some (temporary left.next), left.code ++
        [Instruction.binary operator operand1 operand2
          (temporary left.next)],
        left.next + 1⟩
      next (first + 1) := by
  constructor
  · rw [List.filterMap_append, hleft.computed, List.range'_1_concat,
      List.map_append, hleft.next]
    rfl
  · simp only [hleft.next, Nat.add_assoc]

end Lowered.Numbered

namespace Node

mutual

/-- A tree writes one temporary for each of its operators. -/
theorem lower_numbered (node : Node) (next : Nat) :
    (node.lower next).Numbered next (countOperators node.preorder) := by
  cases node with
  | compound form statements position =>
      simpa [lower, preorder, isBinary] using lowerAll_numbered statements next
  | declaration ty name initializer position =>
      have hvalue := lowerOption_numbered initializer next
      cases initializer with
      | none =>
          simpa [lower, lowerOption, preorder, preorderOption, isBinary] using
            hvalue.declare ty name.text
      | some value =>
          simpa [lower, preorder, isBinary] using
            (hvalue.assign _ name.text).declare ty name.text
  | assignment target value position =>
      simpa [lower, preorder, isBinary] using
        (lowerOption_numbered value next).assign _ target.text
  | conditional form condition body position =>
      have hparts := (lowerOption_numbered condition next).append
        (lowerOption_numbered body _) none
      simpa [lower, preorder, isBinary] using hparts
  | result value position =>
      have hvalue := lowerOption_numbered value next
      simpa [lower, preorder, isBinary] using
        (⟨hvalue.computed, hvalue.next⟩ : Lowered.Numbered ⟨none, _, _⟩ _ _)
  | binary operator left right position =>
      have hoperands := (lower_numbered left next).append
        (lower_numbered right _) none
      simpa [lower, preorder, isBinary] using
        hoperands.binary operator ((left.lower next).operand.getD "")
          ((right.lower (left.lower next).next).operand.getD "")
  | identifier text position => exact .nil (some text) next
  | literal text position => exact .nil (some text) next

theorem lowerAll_numbered (nodes : List Node) (next : Nat) :
    (lowerAll nodes next).Numbered next
      (countOperators (preorderAll nodes)) := by
  cases nodes with
  | nil => exact .nil none next
  | cons node rest =>
      have hparts := (lower_numbered node next).append
        (lowerAll_numbered rest _) none
      simpa [lowerAll, preorderAll] using hparts

theorem lowerOption_numbered (node : Option Node) (next : Nat) :
    (lowerOption node next).Numbered next
      (countOperators (preorderOption node)) := by
  cases node with
  | none => exact .nil none next
  | some node => exact lower_numbered node next

end

end Node

/-- The operators of a program are computed into the temporaries from the first
one on. -/
theorem generate_computed (root : Node) :
    (generate root).filterMap Instruction.computed? =
      (List.range (Node.countOperators root.preorder)).map temporary := by
  rw [generate, (root.lower_numbered 0).computed, List.range_eq_range']

/-- What an operator of a source is computed into: one of the first temporaries,
and each of these. -/
theorem exists_computes_iff (source text : String) :
    (∃ instruction ∈ (compile source).instructions,
      (∃ operator, instruction.opcode = .binary operator) ∧
        instruction.result = some text) ↔
      ∃ number < Node.countOperators (compile source).tree.preorder,
        temporary number = text := by
  have hcode : (compile source).instructions = generate (compile source).tree :=
    rfl
  simp only [← Instruction.computed?_eq_some_iff]
  rw [hcode, ← List.mem_filterMap, generate_computed]
  simp

/-- Temporaries are fresh exactly for the sources that name no variable like one
of them: no operator is computed into a variable of the source if and only if
no identifier is a temporary with a number below the number of operators. -/
theorem compile_temporaries_fresh_iff (source : String) :
    (∀ instruction ∈ (compile source).instructions, ∀ operator,
      instruction.opcode = .binary operator →
        ∀ token ∈ tokenize source, token.kind = .identifier →
          instruction.result ≠ some token.text) ↔
      ∀ token ∈ tokenize source, token.kind = .identifier →
        ∀ number < Node.countOperators (compile source).tree.preorder,
          token.text ≠ temporary number := by
  constructor
  · intro hfresh token htoken hkind number hnumber htext
    obtain ⟨instruction, hmem, ⟨operator, hopcode⟩, hresult⟩ :=
      (exists_computes_iff source token.text).mpr ⟨number, hnumber, htext.symm⟩
    exact hfresh instruction hmem operator hopcode token htoken hkind hresult
  · intro hnames instruction hmem operator hopcode token htoken hkind hresult
    obtain ⟨number, hnumber, htext⟩ := (exists_computes_iff source token.text).mp
      ⟨instruction, hmem, ⟨operator, hopcode⟩, hresult⟩
    exact hnames token htoken hkind number hnumber htext.symm

/-- The sum is computed into a temporary that has the name of a variable, and
the value of the variable is lost. -/
theorem compile_overwrites_variable :
    let source := "int t0 = 5; int y = 1 + 2; return t0;"
    (compile source).instructions =
        [.declare .int "t0", .assign (some "5") "t0", .declare .int "y",
          .binary .add "1" "2" "t0", .assign (some "t0") "y"] ∧
      ¬∀ instruction ∈ (compile source).instructions, ∀ operator,
        instruction.opcode = .binary operator →
          ∀ token ∈ tokenize source, token.kind = .identifier →
            instruction.result ≠ some token.text := by
  intro source
  have hcode : (compile source).instructions =
      [.declare .int "t0", .assign (some "5") "t0", .declare .int "y",
        .binary .add "1" "2" "t0", .assign (some "t0") "y"] := by
    decide +kernel
  have htoken : (⟨.identifier, "t0", ⟨1, 5⟩⟩ : Token) ∈ tokenize source := by
    decide +kernel
  refine ⟨hcode, fun hfresh => ?_⟩
  rw [hcode] at hfresh
  exact hfresh (.binary .add "1" "2" "t0") (by simp) .add rfl _ htoken rfl rfl

end ThreeAddress
