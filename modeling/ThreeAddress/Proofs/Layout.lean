import ThreeAddress.Compilation
import ThreeAddress.Proofs.Relabeling
import ThreeAddress.Proofs.Relocation

/-!
Layout does not matter.  Code is lowered from a tree without a look at its
places, and analysis only copies lines into what it reports; so sources with the
same words, however they are laid out and commented, are compiled to the same
code and analyzed to the same result, up to lines.
-/

namespace ThreeAddress

namespace Node

/-- A tree without its places. -/
def unplaced : Node → Node :=
  mapPositions fun _ => none

theorem unplaced_relocate (move : Position → Position) (node : Node) :
    (node.relocate move).unplaced = node.unplaced :=
  mapPositions_mapPositions (Option.map move) (fun _ => none) node

section Change

variable (change : Option Position → Option Position)

theorem mapPositionsOption_isSome (node : Option Node) :
    (mapPositionsOption change node).isSome = node.isSome := by
  cases node <;> rfl

theorem literalText?_mapPositions (node : Node) :
    (node.mapPositions change).literalText? = node.literalText? := by
  cases node <;> rfl

theorem mapPositionsOption_bind_literalText? (node : Option Node) :
    (mapPositionsOption change node).bind literalText? =
      node.bind literalText? := by
  cases node with
  | none => rfl
  | some node => exact literalText?_mapPositions change node

theorem operand_mapPositions (node : Node) :
    (node.mapPositions change).operand = node.operand := by
  cases node <;> rfl

mutual

/-- The code of a tree does not hang on its places. -/
theorem lower_mapPositions (node : Node) (next : Nat) :
    (node.mapPositions change).lower next = node.lower next := by
  cases node with
  | compound form statements position =>
      exact lowerAll_mapPositionsAll statements next
  | declaration ty name initializer position =>
      simp [mapPositions, lower, Name.mapPosition, mapPositionsOption_isSome,
        lowerOption_mapPositionsOption initializer]
  | assignment target value position =>
      simp [mapPositions, lower, Name.mapPosition,
        lowerOption_mapPositionsOption value]
  | conditional form condition body position =>
      simp [mapPositions, lower, lowerOption_mapPositionsOption condition,
        lowerOption_mapPositionsOption body]
  | result value position =>
      simp [mapPositions, lower, lowerOption_mapPositionsOption value]
  | binary operator left right position =>
      simp [mapPositions, lower, lower_mapPositions left,
        lower_mapPositions right]
  | identifier text position => rfl
  | literal text position => rfl

theorem lowerAll_mapPositionsAll (nodes : List Node) (next : Nat) :
    lowerAll (mapPositionsAll change nodes) next = lowerAll nodes next := by
  cases nodes with
  | nil => rfl
  | cons node rest =>
      simp [mapPositionsAll, lowerAll, lower_mapPositions node,
        lowerAll_mapPositionsAll rest]

theorem lowerOption_mapPositionsOption (node : Option Node) (next : Nat) :
    lowerOption (mapPositionsOption change node) next =
      lowerOption node next := by
  cases node with
  | none => rfl
  | some node => exact lower_mapPositions node next

end

end Change

end Node

def Step.unlined : Step → Step
  | declare name ty _ initialized literal =>
      declare name ty 0 initialized literal
  | assign name _ literal => assign name 0 literal
  | use name _ => use name 0
  | apply operator left right _ => apply operator left right 0
  | enter form => enter form
  | leave => leave

namespace Node

mutual

/-- The walk through a tree without places is the walk through the tree, with
all steps on line zero. -/
theorem walk_unplaced (node : Node) :
    node.unplaced.walk = node.walk.map Step.unlined := by
  cases node with
  | compound form statements position => exact walkAll_unplaced statements
  | declaration ty name initializer position =>
      simp [unplaced, mapPositions, walk, Name.mapPosition, Step.unlined, line,
        Node.position, mapPositionsOption_isSome,
        mapPositionsOption_bind_literalText?, walkOption_unplaced initializer]
  | assignment target value position =>
      simp [unplaced, mapPositions, walk, Name.mapPosition, Step.unlined, line,
        Node.position, mapPositionsOption_bind_literalText?,
        walkOption_unplaced value]
  | conditional form condition body position =>
      simp [unplaced, mapPositions, walk, Step.unlined,
        walkOption_unplaced condition, walkOption_unplaced body]
  | result value position => exact walkOption_unplaced value
  | binary operator left right position =>
      have hleft := walk_unplaced left
      have hright := walk_unplaced right
      rw [unplaced] at hleft hright
      simp [unplaced, mapPositions, walk, Step.unlined, line, Node.position,
        hleft, hright, operand_mapPositions]
  | identifier text position => rfl
  | literal text position => rfl

theorem walkAll_unplaced (nodes : List Node) :
    walkAll (mapPositionsAll (fun _ => none) nodes) =
      (walkAll nodes).map Step.unlined := by
  cases nodes with
  | nil => rfl
  | cons node rest =>
      have hnode := walk_unplaced node
      rw [unplaced] at hnode
      simp [mapPositionsAll, walkAll, hnode, walkAll_unplaced rest]

theorem walkOption_unplaced (node : Option Node) :
    walkOption (mapPositionsOption (fun _ => none) node) =
      (walkOption node).map Step.unlined := by
  cases node with
  | none => rfl
  | some node => exact walk_unplaced node

end

end Node

def Symbol.unlined (symbol : Symbol) : Symbol :=
  { symbol with line := 0 }

/-- A problem that tells line zero for any line. -/
def Problem.unlined : Problem → Problem
  | redeclared name _ => redeclared name 0
  | unused name _ => unused name 0
  | problem => problem

def Diagnostic.unlined (diagnostic : Diagnostic) : Diagnostic :=
  ⟨diagnostic.problem.unlined, 0⟩

def Analysis.unlined (analysis : Analysis) : Analysis :=
  ⟨analysis.symbols.map Symbol.unlined,
    analysis.diagnostics.map Diagnostic.unlined, analysis.scopes⟩

/-- The change that moves everything to line zero. -/
def Relabeling.unlined : Relabeling := ⟨id, fun _ => 0⟩

theorem Relabeling.unlined_step : Relabeling.unlined.step = Step.unlined := by
  funext step
  cases step with
  | apply operator left right line => cases left <;> cases right <;> rfl
  | _ => rfl

theorem Relabeling.unlined_diagnostic :
    Relabeling.unlined.diagnostic = Diagnostic.unlined := by
  funext diagnostic
  obtain ⟨problem, line⟩ := diagnostic
  cases problem <;> rfl

/-- Analysis of a tree without places is analysis of the tree, with everything
on line zero. -/
theorem analyze_unplaced (root : Node) :
    analyze root.unplaced = (analyze root).unlined := by
  have houtcome :
      (({} : Analyzer).run (root.walk.map Relabeling.unlined.step)).outcome =
        Relabeling.unlined.analysis (({} : Analyzer).run root.walk).outcome :=
    Relabeling.outcome_run (Set.injOn_id Set.univ) (by simp)
  rw [Relabeling.unlined_step, ← Node.walk_unplaced, Relabeling.analysis,
    Relabeling.unlined_diagnostic] at houtcome
  exact houtcome

/-- Trees that differ in places only have the same code. -/
theorem generate_congr {first second : Node}
    (htree : first.unplaced = second.unplaced) :
    generate first = generate second := by
  have hcode : ∀ root : Node, generate root.unplaced = generate root :=
    fun root => congrArg Lowered.code (root.lower_mapPositions _ 0)
  rw [← hcode first, htree, hcode second]

theorem map_kind_unlined (diagnostics : List Diagnostic) :
    (diagnostics.map Diagnostic.unlined).map Diagnostic.kind =
      diagnostics.map Diagnostic.kind := by
  rw [← Relabeling.unlined_diagnostic, List.map_map]
  exact List.map_congr_left fun diagnostic _ =>
    Relabeling.unlined.diagnostic_kind diagnostic

/-- The analyses of trees that differ in places only differ in lines only. -/
theorem analyze_congr {first second : Node}
    (htree : first.unplaced = second.unplaced) :
    (analyze first).scopes = (analyze second).scopes ∧
      (analyze first).symbols.map Symbol.unlined =
        (analyze second).symbols.map Symbol.unlined ∧
      (analyze first).diagnostics.map Diagnostic.kind =
        (analyze second).diagnostics.map Diagnostic.kind := by
  have hanalysis : (analyze first).unlined = (analyze second).unlined := by
    rw [← analyze_unplaced, htree, analyze_unplaced]
  simp only [Analysis.unlined, Analysis.mk.injEq] at hanalysis
  obtain ⟨hsymbols, hdiagnostics, hscopes⟩ := hanalysis
  refine ⟨hscopes, hsymbols, ?_⟩
  rw [← map_kind_unlined, hdiagnostics, map_kind_unlined]

/-- What a token is, wherever it stands. -/
def Token.word (token : Token) : Token.Kind × String :=
  (token.kind, token.text)

/-- Moved to one and the same place, tokens are told apart by their words
alone. -/
theorem map_relocate_eq {first second : List Token}
    (hwords : first.map Token.word = second.map Token.word)
    (place : Position) :
    first.map (Token.relocate fun _ => place) =
      second.map (Token.relocate fun _ => place) := by
  have hplaced : Token.relocate (fun _ => place) =
      (fun word => ⟨word.1, word.2, place⟩) ∘ Token.word := rfl
  rw [hplaced, ← List.map_map, ← List.map_map, hwords]

/-- The same words are read as the same tree, up to places. -/
theorem parse_unplaced_eq {first second : List Token}
    (hwords : (withoutComments first).map Token.word =
      (withoutComments second).map Token.word) :
    (parse first).unplaced = (parse second).unplaced := by
  -- All tokens are moved to one place, where equal words are equal tokens.
  let move : Position → Position := fun _ => ⟨0, 0⟩
  have htokens : withoutComments (first.map (Token.relocate move)) =
      withoutComments (second.map (Token.relocate move)) := by
    rw [withoutComments_map_relocate, withoutComments_map_relocate]
    exact map_relocate_eq hwords ⟨0, 0⟩
  calc (parse first).unplaced
      = (parse (first.map (Token.relocate move))).unplaced := by
        rw [parse_map_relocate, Node.unplaced_relocate]
    _ = (parse (second.map (Token.relocate move))).unplaced := by
        rw [parse, htokens, parse]
    _ = (parse second).unplaced := by
        rw [parse_map_relocate, Node.unplaced_relocate]

/-- Layout does not influence compilation.  Sources with the same words, comments
left out, have the same code, the same scopes, trees that differ in places only,
symbols that differ in lines only, and diagnostics of the same kinds one by one.
Wherever tokens are moved to, the places of the tree move along and nothing else
changes. -/
theorem compile_ignores_layout (first second : String)
    (hwords : (withoutComments (tokenize first)).map Token.word =
      (withoutComments (tokenize second)).map Token.word) :
    (compile first).instructions = (compile second).instructions ∧
      (compile first).tree.unplaced = (compile second).tree.unplaced ∧
      (compile first).analysis.scopes = (compile second).analysis.scopes ∧
      (compile first).analysis.symbols.map Symbol.unlined =
        (compile second).analysis.symbols.map Symbol.unlined ∧
      (compile first).analysis.diagnostics.map Diagnostic.kind =
        (compile second).analysis.diagnostics.map Diagnostic.kind ∧
      ∀ (move : Position → Position) (tokens : List Token),
        parse (tokens.map (Token.relocate move)) =
          (parse tokens).relocate move := by
  have htree := parse_unplaced_eq hwords
  obtain ⟨hscopes, hsymbols, hkinds⟩ := analyze_congr htree
  exact ⟨generate_congr htree, htree, hscopes, hsymbols, hkinds,
    parse_map_relocate⟩

/-- The same words, once on one line and once on several lines with comments
between them. -/
theorem compile_ignores_layout_of_comments :
    let dense := "int x = 1; if (x < y) \x7b float x; \x7d"
    let wide := "int x // one\n  = 1;\n\nif ( x<y )\n  \x7b float\tx;//x\n\x7d"
    (withoutComments (tokenize dense)).map Token.word =
        (withoutComments (tokenize wide)).map Token.word ∧
      (compile dense).tokens.length ≠ (compile wide).tokens.length ∧
      (compile dense).instructions = (compile wide).instructions ∧
      (compile dense).analysis.scopes = (compile wide).analysis.scopes ∧
      (compile wide).analysis.diagnostics.map Diagnostic.kind =
        [.undeclaredUse, .unusedVariable] := by
  intro dense wide
  have hwords : (withoutComments (tokenize dense)).map Token.word =
      (withoutComments (tokenize wide)).map Token.word := by decide +kernel
  obtain ⟨hcode, -, hscopes, -, hkinds, -⟩ :=
    compile_ignores_layout dense wide hwords
  have hdense : (compile dense).analysis.diagnostics.map Diagnostic.kind =
      [.undeclaredUse, .unusedVariable] := by decide +kernel
  exact ⟨hwords, by decide +kernel, hcode, hscopes, hkinds.symm.trans hdense⟩

end ThreeAddress
