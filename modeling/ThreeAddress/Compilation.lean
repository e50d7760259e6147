import ThreeAddress.Analysis
import ThreeAddress.Instruction.Lowering
import ThreeAddress.Node.Parser
import ThreeAddress.Token.Lexer

/-!
Compilation of one source text: its tokens, its tree, the analysis of the tree
and its code.  Code is generated whatever the analysis finds.  `Pipeline` is the
same work done by reusable parts, for one source after another.
-/

namespace ThreeAddress

/-- All that is known of a source text. -/
structure Compilation where
  tokens : List Token
  tree : Node
  analysis : Analysis
  instructions : List Instruction
deriving Repr

def compile (source : String) : Compilation :=
  let tokens := tokenize source
  let tree := parse tokens
  ⟨tokens, tree, analyze tree, generate tree⟩

structure Pipeline where
  lexer : Lexer := {}
  analyzer : Analyzer := {}
  generator : Generator := {}
deriving Repr

namespace Pipeline

/-- Compile a source text with parts that may have served before. -/
def compile (pipeline : Pipeline) (source : String) : Compilation × Pipeline :=
  let (tokens, lexer) := pipeline.lexer.tokenize source
  let tree := (Parser.ofTokens tokens).program.1
  let (analysis, analyzer) := pipeline.analyzer.analyze tree
  let (instructions, generator) := pipeline.generator.generate tree
  (⟨tokens, tree, analysis, instructions⟩, ⟨lexer, analyzer, generator⟩)

/-- Compile sources one after another with the same parts. -/
def compileAll (pipeline : Pipeline) :
    List String → List Compilation × Pipeline
  | [] => ([], pipeline)
  | source :: rest =>
      let (first, after) := pipeline.compile source
      let (others, last) := after.compileAll rest
      (first :: others, last)

end Pipeline

end ThreeAddress
