import ThreeAddress.Compilation
import ThreeAddress.Proofs.Relocation

/-!
Parts that serve again.  A lexer, an analyzer and a generator give the same
whatever they hold when they are called, a parser reads a program from the first
token wherever it stands, and so a pipeline that compiles one source after
another compiles each as if it were the first.
-/

namespace ThreeAddress

/-- Gathered tokens come after what the buffer holds. -/
theorem Lexer.gather_buffer (lexer : Lexer) (number : Nat)
    (lines : List (List Char)) :
    (lexer.gather number lines).buffer =
      lexer.buffer ++ scanLines number lines := by
  induction lines generalizing lexer number with
  | nil => simp [gather, scanLines]
  | cons line following ih => simp [gather, scanLines, ih]

theorem Lexer.tokenize_eq (lexer : Lexer) (source : String) :
    lexer.tokenize source = (ThreeAddress.tokenize source, {}) := by
  rw [tokenize, gather_buffer]
  rfl

/-- Analysis starts from an empty table, also with an analyzer whose table has
no scope at all, and leaves a new analyzer behind. -/
theorem Analyzer.analyze_eq (analyzer : Analyzer) (root : Node) :
    analyzer.analyze root = (ThreeAddress.analyze root, {}) :=
  rfl

theorem Generator.generate_eq (generator : Generator) (root : Node) :
    generator.generate root =
      (ThreeAddress.generate root, ⟨(root.lower 0).next, []⟩) :=
  rfl

namespace Parser

/-- A program is read from the first token, from outside of all bodies and with
any budget. -/
theorem program_eq {parser : Parser} {tokens : List Token}
    (htokens : parser.tokens = withoutComments tokens) :
    parser.program.1 = parse tokens := by
  have hstatements := Reader.program_budget (withoutComments tokens)
    parser.budget maxExpressionNodes
  rw [parse, ← hstatements, ← htokens]
  rfl

/-- What a parser can be asked for. -/
inductive Request where
  | program
  | expression
  | statement
deriving DecidableEq, Repr

/-- The parser after it has read what it was asked for. -/
def serve (parser : Parser) : Request → Parser
  | .program => parser.program.2
  | .expression => parser.expression.2
  | .statement => parser.statement.2

/-- The parser after one request after another. -/
def serveAll (parser : Parser) (requests : List Request) : Parser :=
  requests.foldl serve parser

theorem serve_tokens (parser : Parser) (request : Request) :
    (parser.serve request).tokens = parser.tokens := by
  cases request <;> rfl

theorem serveAll_tokens (parser : Parser) (requests : List Request) :
    (parser.serveAll requests).tokens = parser.tokens := by
  induction requests generalizing parser with
  | nil => rfl
  | cons request rest ih =>
      exact (ih (parser.serve request)).trans (parser.serve_tokens request)

end Parser

namespace Pipeline

theorem compile_eq (pipeline : Pipeline) (source : String) :
    (pipeline.compile source).1 = ThreeAddress.compile source := by
  have htree : (Parser.ofTokens (ThreeAddress.tokenize source)).program.1 =
      parse (ThreeAddress.tokenize source) := Parser.program_eq rfl
  simp only [compile, Lexer.tokenize_eq, Analyzer.analyze_eq,
    Generator.generate_eq, htree]
  rfl

theorem compileAll_eq (pipeline : Pipeline) (sources : List String) :
    (pipeline.compileAll sources).1 = sources.map ThreeAddress.compile := by
  induction sources generalizing pipeline with
  | nil => rfl
  | cons source rest ih =>
      simp only [compileAll, List.map_cons, compile_eq, ih]

end Pipeline

/-- Nothing is carried over from one call to the next.  Whatever a lexer, an
analyzer or a generator holds, it does what a new one does; a parser over some
tokens, wherever it stands and whatever it has been asked for before, reads the
program of these tokens; and a pipeline with any parts compiles each of some
sources as if it were the only one. -/
theorem stages_carry_nothing_over :
    (∀ (lexer : Lexer) (source : String),
      lexer.tokenize source = ({} : Lexer).tokenize source ∧
        (lexer.tokenize source).1 = tokenize source) ∧
    (∀ (analyzer : Analyzer) (root : Node),
      analyzer.analyze root = ({} : Analyzer).analyze root ∧
        (analyzer.analyze root).1 = analyze root) ∧
    (∀ (generator : Generator) (root : Node),
      generator.generate root = ({} : Generator).generate root ∧
        (generator.generate root).1 = generate root) ∧
    (∀ (tokens : List Token) (position depth budget : Nat)
        (requests : List Parser.Request),
      let parser : Parser :=
        ⟨withoutComments tokens, position, depth, budget⟩
      parser.program.1 = parse tokens ∧
        (parser.serveAll requests).program.1 = parse tokens) ∧
    ∀ (pipeline : Pipeline) (sources : List String),
      (pipeline.compileAll sources).1 = sources.map compile := by
  refine ⟨?_, ?_, ?_, ?_, Pipeline.compileAll_eq⟩
  · intro lexer source
    rw [lexer.tokenize_eq, Lexer.tokenize_eq]
    exact ⟨rfl, rfl⟩
  · intro analyzer root
    rw [analyzer.analyze_eq, Analyzer.analyze_eq]
    exact ⟨rfl, rfl⟩
  · intro generator root
    rw [generator.generate_eq, Generator.generate_eq]
    exact ⟨rfl, rfl⟩
  · intro tokens position depth budget requests parser
    exact ⟨Parser.program_eq rfl,
      Parser.program_eq (parser.serveAll_tokens requests)⟩

end ThreeAddress
