import ThreeAddress.Proofs.Cursor
import ThreeAddress.Proofs.Derivation

/-!
Every derivation within the limits is read back: the parser gives the node of
the derivation from its tokens.  An expression ends where none of the signs of
its levels follows; within a level the next sign belongs to no tighter level, so
that the operands end where the derivation says.
-/

namespace ThreeAddress

namespace Derivation

/-- Each sign is the symbol of its operator, and no sign belongs to two
levels. -/
structure Distinct (levels : List Signs) : Prop where
  symbol : ∀ signs ∈ levels, ∀ entry ∈ signs, entry.2.symbol = entry.1
  apart : levels.Pairwise fun looser tighter =>
    ∀ first ∈ looser, ∀ second ∈ tighter, first.1 ≠ second.1

theorem levels_distinct : Distinct levels := by
  constructor <;> decide

theorem Distinct.tail {signs : Signs} {tighter : List Signs}
    (hdistinct : Distinct (signs :: tighter)) : Distinct tighter :=
  ⟨fun other hother => hdistinct.symbol other (List.mem_cons_of_mem signs hother),
    hdistinct.apart.tail⟩

/-- A sign is seen as the operator that it stands for. -/
theorem Distinct.operator?_eq_some {signs : Signs} {tighter : List Signs}
    (hdistinct : Distinct (signs :: tighter)) {sign : String}
    {operator : Operator} (hsign : (sign, operator) ∈ signs)
    (position : Position) (rest : List Token) (budget : Nat) :
    Cursor.operator? ⟨⟨.operator, sign, position⟩ :: rest, budget⟩
      (signs.map Prod.snd) = some (operator, position) := by
  have hsymbol : operator.symbol = sign :=
    hdistinct.symbol signs List.mem_cons_self (sign, operator) hsign
  refine Cursor.operator?_eq_some_iff.mpr
    ⟨List.mem_map.mpr ⟨(sign, operator), hsign, rfl⟩, ?_⟩
  rw [hsymbol]
  rfl

/-- An expression of the given levels ends before these tokens: they do not go
on with a sign of one of the levels. -/
def Stops (levels : List Signs) (rest : List Token) : Prop :=
  ∀ signs ∈ levels, ∀ entry ∈ signs, ∀ token ∈ rest.head?,
    token.is .operator entry.1 = false

theorem Stops.tail {signs : Signs} {tighter : List Signs} {rest : List Token}
    (hstops : Stops (signs :: tighter) rest) : Stops tighter rest :=
  fun other hother => hstops other (List.mem_cons_of_mem signs hother)

theorem stops_of_delimiter (levels : List Signs) (text : String)
    (position : Position) (rest : List Token) :
    Stops levels (⟨.delimiter, text, position⟩ :: rest) := by
  intro signs _ entry _ token htoken
  simp only [List.head?_cons, Option.mem_some_iff] at htoken
  subst htoken
  rfl

theorem Stops.operator?_eq_none {signs : Signs} {tighter : List Signs}
    {rest : List Token} (hdistinct : Distinct (signs :: tighter))
    (hstops : Stops (signs :: tighter) rest) (budget : Nat) :
    Cursor.operator? ⟨rest, budget⟩ (signs.map Prod.snd) = none := by
  rw [Option.eq_none_iff_forall_ne_some]
  rintro ⟨operator, position⟩ hsome
  obtain ⟨hmem, hhead⟩ := Cursor.operator?_eq_some_iff.mp hsome
  obtain ⟨entry, hentry, rfl⟩ := List.mem_map.mp hmem
  have hnot := hstops signs List.mem_cons_self entry hentry _ hhead
  rw [hdistinct.symbol signs List.mem_cons_self entry hentry] at hnot
  simp [Token.is] at hnot

theorem Links.stops {signs : Signs} {tighter : List Signs}
    (links : Links signs tighter) {rest : List Token}
    (hdistinct : Distinct (signs :: tighter)) (hstops : Stops tighter rest) :
    Stops tighter (links.tokens ++ rest) := by
  cases links with
  | done => exact hstops
  | link sign operator hsign position right links =>
      intro other hother entry hentry token htoken
      simp only [Links.tokens, List.cons_append, List.head?_cons,
        Option.mem_some_iff] at htoken
      subst htoken
      have hne := (List.pairwise_cons.mp hdistinct.apart).1 other hother
        (sign, operator) hsign entry hentry
      simpa [Token.is] using hne

mutual

/-- Reading the tokens of an expression gives its node, takes exactly its
tokens and pays exactly its size. -/
theorem Phrase.read {levels : List Signs} : (phrase : Phrase levels) →
    Distinct levels → (depth budget : Nat) → (rest : List Token) →
    phrase.size ≤ depth → phrase.size ≤ budget → Stops levels rest →
    Reader.levels (Reader.operand depth) (levels.map (List.map Prod.snd))
        ⟨phrase.tokens ++ rest, budget⟩ =
      (some phrase.node, ⟨rest, budget - phrase.size⟩)
  | .literal text position, _, depth, _, _, _, _, _ => by
      cases depth <;> rfl
  | .identifier text position, _, depth, _, _, _, _, _ => by
      cases depth <;> rfl
  | .group opening inner closing, _, depth, budget, rest, hdepth, hbudget,
      _ => by
      simp only [Phrase.size] at hdepth hbudget
      obtain ⟨depth, rfl⟩ : ∃ left, depth = left + 1 := ⟨depth - 1, by omega⟩
      obtain ⟨budget, rfl⟩ : ∃ left, budget = left + 1 := ⟨budget - 1, by omega⟩
      have hinner := inner.read levels_distinct depth budget _
        (by omega) (by omega)
        (stops_of_delimiter Derivation.levels ")" closing rest)
      have hlevels : Derivation.levels.map (List.map Prod.snd) =
          Operator.levels := rfl
      rw [hlevels] at hinner
      simp [Reader.levels, Reader.operand, Reader.atom, Reader.parenthesized,
        Phrase.tokens, Phrase.node, Phrase.size, hinner]
  | .join first links, hdistinct, depth, budget, rest, hdepth, hbudget,
      hstops => by
      simp only [Phrase.size] at hdepth hbudget
      have hfirst := first.read hdistinct.tail depth budget _
        (by omega) (by omega) (links.stops hdistinct hstops.tail)
      have hlinks := links.read hdistinct depth
        (budget - first.size) (budget - first.size) rest
        (by omega) (by omega) (by omega) hstops first.node
      simp only [List.map_cons, Reader.levels, Reader.level, Phrase.tokens,
        Phrase.node, Phrase.size, List.append_assoc, hfirst, hlinks,
        Nat.sub_sub]

theorem Links.read {signs : Signs} {tighter : List Signs} :
    (links : Links signs tighter) → Distinct (signs :: tighter) →
    (depth budget steps : Nat) → (rest : List Token) →
    links.size ≤ depth → links.size ≤ budget → links.size ≤ steps →
    Stops (signs :: tighter) rest → (left : Node) →
    Reader.chain (Reader.levels (Reader.operand depth)
        (tighter.map (List.map Prod.snd))) (signs.map Prod.snd) steps left
        ⟨links.tokens ++ rest, budget⟩ =
      (links.node left, ⟨rest, budget - links.size⟩)
  | .done, hdistinct, _, _, steps, _, _, _, _, hstops, _ => by
      cases steps with
      | zero => rfl
      | succ steps =>
          simp [Reader.chain, Links.tokens, Links.node, Links.size,
            hstops.operator?_eq_none hdistinct]
  | .link sign operator hsign position right links, hdistinct, depth, budget,
      steps, rest, hdepth, hbudget, hsteps, hstops, left => by
      simp only [Links.size] at hdepth hbudget hsteps
      obtain ⟨steps, rfl⟩ : ∃ left, steps = left + 1 := ⟨steps - 1, by omega⟩
      obtain ⟨budget, rfl⟩ : ∃ left, budget = left + 1 := ⟨budget - 1, by omega⟩
      have hoperator := hdistinct.operator?_eq_some hsign position
        (right.tokens ++ (links.tokens ++ rest)) (budget + 1)
      have hright := right.read hdistinct.tail depth budget _
        (by omega) (by omega) (links.stops hdistinct hstops.tail)
      have hlinks := links.read hdistinct depth
        (budget - right.size) steps rest
        (by omega) (by omega) (by omega) hstops
        (.binary operator left right.node (some position))
      simp only [Links.tokens, List.cons_append, List.append_assoc,
        Reader.chain, hoperator, Cursor.spend?_succ, Cursor.advance_cons,
        hright, hlinks, Links.node, Links.size]
      congr 2
      omega

end

/-- Reading a complete expression within the limit. -/
theorem expression_read (value : Expression) (hsize : value.size ≤ 128)
    (budget : Nat) {rest : List Token} (hstops : Stops levels rest) :
    Reader.expression ⟨value.tokens ++ rest, budget⟩ =
      (some value.node, ⟨rest, 128 - value.size⟩) :=
  value.read levels_distinct 128 128 rest hsize hsize hstops

/-- A statement starts with a keyword or an identifier, so that neither a brace
nor the end of the tokens is taken for one. -/
theorem Statement.tokens_cons (statement : Statement) :
    ∃ token rest, statement.tokens = token :: rest ∧
      token.kind ≠ .delimiter := by
  cases statement <;> exact ⟨_, _, rfl, by simp⟩

theorem length_le_length_tokensAll (statements : List Statement) :
    statements.length ≤ (tokensAll statements).length := by
  induction statements with
  | nil => simp
  | cons statement others ih =>
      obtain ⟨token, rest, htokens, _⟩ := statement.tokens_cons
      simp only [tokensAll, htokens, List.length_append, List.length_cons]
      omega

theorem declaration_read (ty : Ty) (keyword : Position) (name : String)
    (place : Position) (initializer : Option (Position × Expression))
    (semicolon : Position) (rest : List Token) (budget : Nat)
    (hsize : ∀ located ∈ initializer, located.2.size ≤ 128) :
    ∃ left, Reader.declaration ty keyword
        ⟨⟨.identifier, name, place⟩ ::
          ((match initializer with
            | none => []
            | some (sign, value) => ⟨.operator, "=", sign⟩ :: value.tokens) ++
            ⟨.delimiter, ";", semicolon⟩ :: rest), budget⟩ =
      (some (.declaration ty ⟨name, some place⟩
        (initializer.map fun located => located.2.node) (some keyword)),
        ⟨rest, left⟩) := by
  cases initializer with
  | none =>
      exact ⟨budget, by simp [Reader.declaration, Token.is]⟩
  | some located =>
      obtain ⟨sign, value⟩ := located
      have hvalue := expression_read value (hsize (sign, value) rfl) budget
        (stops_of_delimiter levels ";" semicolon rest)
      exact ⟨128 - value.size, by
        simp [Reader.declaration, Token.is, hvalue]⟩

theorem assignment_read (target : Token) (sign : Position) (value : Expression)
    (semicolon : Position) (rest : List Token) (budget : Nat)
    (hsize : value.size ≤ 128) :
    Reader.assignment target
        ⟨⟨.operator, "=", sign⟩ ::
          (value.tokens ++ ⟨.delimiter, ";", semicolon⟩ :: rest), budget⟩ =
      (some (.assignment ⟨target.text, some target.position⟩ (some value.node)
        (some target.position)), ⟨rest, 128 - value.size⟩) := by
  have hvalue := expression_read value hsize budget
    (stops_of_delimiter levels ";" semicolon rest)
  simp [Reader.assignment, hvalue]

theorem Phrase.tokens_cons {levels : List Signs} (phrase : Phrase levels) :
    ∃ token rest, phrase.tokens = token :: rest ∧
      token.is .delimiter ";" = false := by
  cases phrase with
  | literal text position => exact ⟨_, _, rfl, rfl⟩
  | identifier text position => exact ⟨_, _, rfl, rfl⟩
  | group opening inner closing => exact ⟨_, _, rfl, rfl⟩
  | join first links =>
      obtain ⟨token, rest, htokens, htoken⟩ := first.tokens_cons
      exact ⟨token, rest ++ links.tokens, by rw [Phrase.tokens, htokens]; rfl,
        htoken⟩

theorem result_read (keyword : Position) (value : Option Expression)
    (semicolon : Position) (rest : List Token) (budget : Nat)
    (hsize : ∀ expression ∈ value, expression.size ≤ 128) :
    ∃ left, Reader.result keyword
        ⟨(match value with
          | none => []
          | some value => value.tokens) ++
          ⟨.delimiter, ";", semicolon⟩ :: rest, budget⟩ =
      (some (.result (value.map Phrase.node) (some keyword)),
        ⟨rest, left⟩) := by
  cases value with
  | none => exact ⟨budget, by simp [Reader.result, Token.is]⟩
  | some value =>
      have hvalue := expression_read value (hsize value rfl) budget
        (stops_of_delimiter levels ";" semicolon rest)
      obtain ⟨token, tail, htokens, htoken⟩ := value.tokens_cons
      have hsees : Cursor.sees ⟨value.tokens ++
          ⟨.delimiter, ";", semicolon⟩ :: rest, budget⟩ .delimiter ";" =
            false := by
        rw [htokens]
        exact htoken
      exact ⟨128 - value.size, by simp [Reader.result, hsees, hvalue]⟩

theorem body_of_statement (statement : Statement) (reader : Reader)
    (rest : List Token) (budget : Nat) :
    Reader.body reader ⟨statement.tokens ++ rest, budget⟩ =
      reader ⟨statement.tokens ++ rest, budget⟩ := by
  obtain ⟨token, tail, htokens, hkind⟩ := statement.tokens_cons
  have hbrace : token.is .delimiter "\x7b" = false := by
    simp [Token.is, hkind]
  simp [Reader.body, htokens, hbrace]

/-- With room for one more body, a statement has its bodies read with the room
that is left. -/
theorem statement_eq_statementWith (room : Nat) :
    ∃ body, Reader.statement room = Reader.statementWith body := by
  cases room <;> exact ⟨_, rfl⟩

mutual

theorem Statement.read (statement : Statement) (room budget : Nat)
    (rest : List Token) (hnesting : statement.nesting ≤ room)
    (hwidth : statement.width ≤ 128) :
    ∃ left, Reader.statement room ⟨statement.tokens ++ rest, budget⟩ =
      (some statement.node, ⟨rest, left⟩) := by
  cases statement with
  | declaration ty hty keyword name place initializer semicolon =>
      obtain ⟨body, hbody⟩ := statement_eq_statementWith room
      obtain ⟨left, hread⟩ := declaration_read ty keyword name place
        initializer semicolon rest budget (by
          rintro ⟨sign, value⟩ hvalue
          cases hvalue
          exact hwidth)
      refine ⟨left, ?_⟩
      simp only [hbody, Reader.statementWith, Statement.tokens,
        List.cons_append, Token.opening_declarable hty, Cursor.advance_cons,
        List.append_assoc, List.nil_append, Statement.node]
      exact hread
  | assignment target place sign value semicolon =>
      obtain ⟨body, hbody⟩ := statement_eq_statementWith room
      have hread := assignment_read ⟨.identifier, target, place⟩ sign value
        semicolon rest budget hwidth
      refine ⟨128 - value.size, ?_⟩
      simp only [hbody, Reader.statementWith, Statement.tokens,
        List.cons_append, Token.opening, Cursor.advance_cons,
        List.append_assoc, List.nil_append, Statement.node]
      exact hread
  | conditional form place opening condition closing body =>
      simp only [Statement.nesting] at hnesting
      simp only [Statement.width, Nat.max_le] at hwidth
      obtain ⟨room, rfl⟩ : ∃ left, room = left + 1 := ⟨room - 1, by omega⟩
      have hcondition := expression_read condition hwidth.1 budget
        (stops_of_delimiter levels ")" closing (body.tokens ++ rest))
      obtain ⟨left, hbody⟩ := body.read room (128 - condition.size) rest
        (by omega) hwidth.2
      refine ⟨left, ?_⟩
      simp only [Reader.statement, Reader.statementWith, Statement.tokens,
        List.cons_append, Token.opening_keyword, Cursor.advance_cons,
        Reader.conditional, Cursor.skip_cons_self, List.append_assoc,
        hcondition, hbody, Statement.node]
  | result keyword value semicolon =>
      obtain ⟨body, hbody⟩ := statement_eq_statementWith room
      obtain ⟨left, hread⟩ := result_read keyword value semicolon rest budget
        (by
          intro expression hvalue
          cases hvalue
          exact hwidth)
      refine ⟨left, ?_⟩
      simp only [hbody, Reader.statementWith, Statement.tokens,
        List.cons_append, Cursor.advance_cons,
        List.append_assoc, List.nil_append, Statement.node]
      exact hread

theorem Body.read (body : Body) (room budget : Nat) (rest : List Token)
    (hnesting : body.nesting ≤ room) (hwidth : body.width ≤ 128) :
    ∃ left, Reader.body (Reader.statement room)
        ⟨body.tokens ++ rest, budget⟩ = (some body.node, ⟨rest, left⟩) := by
  cases body with
  | single statement =>
      obtain ⟨left, hread⟩ := statement.read room budget rest hnesting hwidth
      refine ⟨left, ?_⟩
      rw [Body.tokens, body_of_statement, hread, Body.node]
  | block opening statements closing =>
      obtain ⟨left, hread⟩ := sequence_read statements
        (fun ahead => ahead.sees .delimiter "\x7d") room
        (tokensAll statements ++ ⟨.delimiter, "\x7d", closing⟩ :: rest).length
        budget (⟨.delimiter, "\x7d", closing⟩ :: rest)
        (by
          have hlength := length_le_length_tokensAll statements
          simp only [List.length_append]
          omega)
        (fun budget => by simp [Token.is])
        (fun token rest budget hkind => by simp [Token.is, hkind])
        hnesting hwidth
      refine ⟨left, ?_⟩
      have hbrace : Token.is ⟨.delimiter, "\x7b", opening⟩ .delimiter "\x7b" =
          true := rfl
      simp only [Body.tokens, Body.node, List.cons_append, List.append_assoc,
        List.nil_append, Reader.body, hbrace, if_true, Cursor.advance_cons,
        Reader.block, hread, Cursor.skip_cons_self]

/-- Reading consecutive statements, where `stop` holds after the last of them
and before none of them. -/
theorem sequence_read (statements : List Statement) (stop : Cursor → Bool)
    (room count budget : Nat) (rest : List Token)
    (hcount : statements.length ≤ count)
    (hstop : ∀ budget, (rest.isEmpty || stop ⟨rest, budget⟩) = true)
    (hgo : ∀ token rest budget, token.kind ≠ .delimiter →
      stop ⟨token :: rest, budget⟩ = false)
    (hnesting : nestingAll statements ≤ room)
    (hwidth : widthAll statements ≤ 128) :
    ∃ left, Reader.sequence (Reader.statement room) stop count
        ⟨tokensAll statements ++ rest, budget⟩ =
      (nodes statements, ⟨rest, left⟩) := by
  cases statements with
  | nil =>
      refine ⟨budget, ?_⟩
      cases count with
      | zero => rfl
      | succ count =>
          simp only [tokensAll, nodes, List.nil_append, Reader.sequence,
            hstop, if_true]
  | cons statement others =>
      simp only [nestingAll, Nat.max_le] at hnesting
      simp only [widthAll, Nat.max_le] at hwidth
      obtain ⟨count, rfl⟩ : ∃ fewer, count = fewer + 1 :=
        ⟨count - 1, by simp only [List.length_cons] at hcount; omega⟩
      obtain ⟨middle, hfirst⟩ := statement.read room budget
        (tokensAll others ++ rest) hnesting.1 hwidth.1
      obtain ⟨left, hothers⟩ := sequence_read others stop room count middle
        rest (by simpa using hcount) hstop hgo hnesting.2 hwidth.2
      obtain ⟨token, tail, htokens, hkind⟩ := statement.tokens_cons
      refine ⟨left, ?_⟩
      have hgoes : ((statement.tokens ++ (tokensAll others ++ rest)).isEmpty ||
          stop ⟨statement.tokens ++ (tokensAll others ++ rest), budget⟩) =
            false := by
        rw [htokens]
        exact hgo token _ budget hkind
      simp only [tokensAll, nodes, List.append_assoc, Reader.sequence, hgoes,
        hfirst, hothers]
      rfl

end

/-- The parser is complete for its grammar: whatever a derivation within the
limits derives is read as the node of the derivation, with comments between the
tokens or not. -/
theorem parse_tokens_of_derivation (program : List Statement)
    (hnesting : nestingAll program ≤ 128) (hwidth : widthAll program ≤ 128)
    (tokens : List Token)
    (htokens : (tokens.filter fun token => token.kind ≠ .comment) =
      tokensAll program) :
    parse tokens = .compound .program (nodes program) none := by
  have hcomments : withoutComments tokens = tokensAll program :=
    (withoutComments_eq_filter tokens).trans htokens
  obtain ⟨left, hread⟩ := sequence_read program (fun _ => false) 128
    (tokensAll program).length 128 [] (length_le_length_tokensAll program)
    (fun _ => rfl) (fun _ _ _ _ => rfl) hnesting hwidth
  rw [List.append_nil] at hread
  rw [parse, hcomments, Reader.program]
  exact congrArg
    (fun read : List Node × Cursor => Node.compound .program read.1 none) hread

/-- A primary expression with no sign beside it. -/
def Expression.ofPrimary (primary : Phrase []) : Expression :=
  .join (.join (.join (.join (.join primary .done) .done) .done) .done) .done

/-- The derivation of `while (a) if (b) x = (1 - 2 - y) * 3;`. -/
def loopDerivation : List Statement :=
  let sum : Expression := .join (.join (.join (.join
    (.join (.literal "1" ⟨2, 21⟩) .done)
    (.link "-" .sub (by decide) ⟨2, 23⟩
      (.join (.literal "2" ⟨2, 25⟩) .done)
      (.link "-" .sub (by decide) ⟨2, 27⟩
        (.join (.identifier "y" ⟨2, 29⟩) .done) .done))) .done) .done) .done
  let product : Expression := .join (.join (.join (.join
    (.join (.group ⟨2, 20⟩ sum ⟨2, 30⟩)
      (.link "*" .mul (by decide) ⟨2, 32⟩ (.literal "3" ⟨2, 34⟩) .done))
    .done) .done) .done) .done
  [.conditional .whileLoop ⟨1, 1⟩ ⟨1, 7⟩
    (Expression.ofPrimary (.identifier "a" ⟨1, 8⟩)) ⟨1, 9⟩
    (.single (.conditional .ifThen ⟨2, 1⟩ ⟨2, 4⟩
      (Expression.ofPrimary (.identifier "b" ⟨2, 5⟩)) ⟨2, 6⟩
      (.single (.assignment "x" ⟨2, 8⟩ ⟨2, 10⟩ product ⟨2, 35⟩))))]

theorem parse_loopDerivation :
    nestingAll loopDerivation = 2 ∧ widthAll loopDerivation = 4 ∧
      parse (⟨.comment, "// loop", ⟨1, 11⟩⟩ :: tokensAll loopDerivation) =
        .compound .program
          [.conditional .whileLoop (some (.identifier "a" (some ⟨1, 8⟩)))
            (some (.conditional .ifThen (some (.identifier "b" (some ⟨2, 5⟩)))
              (some (.assignment ⟨"x", some ⟨2, 8⟩⟩
                (some (.binary .mul
                  (.binary .sub
                    (.binary .sub (.literal "1" (some ⟨2, 21⟩))
                      (.literal "2" (some ⟨2, 25⟩)) (some ⟨2, 23⟩))
                    (.identifier "y" (some ⟨2, 29⟩)) (some ⟨2, 27⟩))
                  (.literal "3" (some ⟨2, 34⟩)) (some ⟨2, 32⟩)))
                (some ⟨2, 8⟩))) (some ⟨2, 1⟩)))
            (some ⟨1, 1⟩)] none :=
  ⟨rfl, rfl, parse_tokens_of_derivation loopDerivation (by decide) (by decide)
    (⟨.comment, "// loop", ⟨1, 11⟩⟩ :: tokensAll loopDerivation) rfl⟩

end Derivation

end ThreeAddress
