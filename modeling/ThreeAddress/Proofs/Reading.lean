import ThreeAddress.Proofs.Cursor

/-!
What reading can do, for any tokens.  A reading relates the place where a reader
starts, the node that it gives and the place where it ends.  The relations say
which tokens are taken for which nodes and which are passed over; they leave
open which of several readings a reader chooses.  Every reader stays within
them, so that what holds of all readings holds of the parser.
-/

namespace ThreeAddress

namespace Reading

/-- Reading an expression: nothing, a leaf, a group, or a chain that has grown
by an operator.  An operator without a right operand is passed over. -/
inductive Expression : Cursor → Option Node → Cursor → Prop where
  | absent (cursor : Cursor) : Expression cursor none cursor
  | literal (text : String) (position : Position) (rest : List Token)
      (budget : Nat) :
      Expression ⟨⟨.literal, text, position⟩ :: rest, budget⟩
        (some (.literal text (some position))) ⟨rest, budget⟩
  | identifier (text : String) (position : Position) (rest : List Token)
      (budget : Nat) :
      Expression ⟨⟨.identifier, text, position⟩ :: rest, budget⟩
        (some (.identifier text (some position))) ⟨rest, budget⟩
  | group (position : Position) {rest : List Token} {budget : Nat}
      {inner : Option Node} {after : Cursor}
      (hinner : Expression ⟨rest, budget⟩ inner after) :
      Expression ⟨⟨.delimiter, "(", position⟩ :: rest, budget + 1⟩ inner
        (after.skip .delimiter ")")
  | joined {start after : Cursor} {left right : Node} (operator : Operator)
      (position : Position) {rest : List Token} {budget : Nat}
      (hleft : Expression start (some left)
        ⟨⟨.operator, operator.symbol, position⟩ :: rest, budget + 1⟩)
      (hright : Expression ⟨rest, budget⟩ (some right) after) :
      Expression start
        (some (.binary operator left right (some position))) after
  | dangling {start after : Cursor} {left : Node} (operator : Operator)
      (position : Position) {rest : List Token} {budget : Nat}
      (hleft : Expression start (some left)
        ⟨⟨.operator, operator.symbol, position⟩ :: rest, budget + 1⟩)
      (hright : Expression ⟨rest, budget⟩ none after) :
      Expression start (some left) after

/-- A reader whose readings are readings of expressions. -/
def Expression.Covers (reader : Reader) : Prop :=
  ∀ cursor, Expression cursor (reader cursor).1 (reader cursor).2

theorem chain_covered {operand : Reader}
    (hoperand : Expression.Covers operand) (operators : List Operator)
    (steps : Nat) {start cursor : Cursor} {left : Node}
    (hleft : Expression start (some left) cursor) :
    Expression start
      (some (Reader.chain operand operators steps left cursor).1)
      (Reader.chain operand operators steps left cursor).2 := by
  induction steps generalizing left cursor with
  | zero => exact hleft
  | succ steps ih =>
      simp only [Reader.chain]
      split
      · rename_i operator position paid hoperator hpaid
        obtain ⟨_, hhead⟩ := Cursor.operator?_eq_some_iff.mp hoperator
        obtain ⟨rest, budget⟩ := cursor
        cases budget with
        | zero => simp [Cursor.spend?] at hpaid
        | succ budget =>
            simp only [Cursor.spend?_succ, Option.some.injEq] at hpaid
            subst hpaid
            obtain ⟨rest, rfl⟩ := List.head?_eq_some_iff.mp hhead
            have hright := hoperand ⟨rest, budget⟩
            split
            · rename_i right after hread
              rw [Cursor.advance_cons] at hread
              rw [hread] at hright
              exact ih (hleft.joined operator position hright)
            · rename_i after hread
              rw [Cursor.advance_cons] at hread
              rw [hread] at hright
              exact hleft.dangling operator position hright
      · exact hleft

theorem level_covered {operand : Reader}
    (hoperand : Expression.Covers operand) (operators : List Operator) :
    Expression.Covers (Reader.level operand operators) := by
  intro cursor
  have hfirst := hoperand cursor
  simp only [Reader.level]
  split
  · rename_i after hread
    rwa [hread] at hfirst
  · rename_i left after hread
    rw [hread] at hfirst
    exact chain_covered hoperand operators after.budget hfirst

theorem levels_covered {operand : Reader}
    (hoperand : Expression.Covers operand) (levels : List (List Operator)) :
    Expression.Covers (Reader.levels operand levels) := by
  induction levels with
  | nil => exact hoperand
  | cons operators tighter ih => exact level_covered ih operators

theorem parenthesized_covered {expression : Reader}
    (hexpression : Expression.Covers expression) (position : Position)
    (rest : List Token) (budget : Nat) :
    Expression ⟨⟨.delimiter, "(", position⟩ :: rest, budget⟩
      (Reader.parenthesized expression
        ⟨⟨.delimiter, "(", position⟩ :: rest, budget⟩).1
      (Reader.parenthesized expression
        ⟨⟨.delimiter, "(", position⟩ :: rest, budget⟩).2 := by
  cases budget with
  | zero => exact .absent _
  | succ budget => exact .group position (hexpression ⟨rest, budget⟩)

theorem atom_covered {group : Reader}
    (hgroup : ∀ position rest budget,
      Expression ⟨⟨.delimiter, "(", position⟩ :: rest, budget⟩
        (group ⟨⟨.delimiter, "(", position⟩ :: rest, budget⟩).1
        (group ⟨⟨.delimiter, "(", position⟩ :: rest, budget⟩).2) :
    Expression.Covers (Reader.atom group) := by
  rintro ⟨rest, budget⟩
  cases rest with
  | nil => exact .absent _
  | cons token rest =>
      obtain ⟨kind, text, position⟩ := token
      cases kind with
      | literal => exact .literal text position rest budget
      | identifier => exact .identifier text position rest budget
      | delimiter =>
          by_cases htext : text = "("
          · subst htext
            exact hgroup position rest budget
          · simp only [Reader.atom, htext, if_false]
            exact .absent _
      | keyword => exact .absent _
      | operator => exact .absent _
      | comment => exact .absent _

theorem operand_covered (depth : Nat) :
    Expression.Covers (Reader.operand depth) := by
  induction depth with
  | zero => exact atom_covered fun _ _ _ => .absent _
  | succ depth ih =>
      exact atom_covered
        (parenthesized_covered (levels_covered ih Operator.levels))

/-- A complete expression is read with the whole budget. -/
theorem expression_covered (rest : List Token) (budget : Nat) :
    Expression ⟨rest, maxExpressionNodes⟩
      (Reader.expression ⟨rest, budget⟩).1
      (Reader.expression ⟨rest, budget⟩).2 :=
  levels_covered (operand_covered maxExpressionNodes) Operator.levels
    ⟨rest, maxExpressionNodes⟩

/-- Reading a statement whose bodies are read as `Body` says.  Only one that
starts with an identifier, with the keyword of a type before an identifier, or
with `if`, `while` or `return` gives a node; else the first token is passed
over. -/
inductive Statement (Body : Cursor → Option Node → Cursor → Prop) :
    Cursor → Option Node → Cursor → Prop where
  | ended (budget : Nat) : Statement Body ⟨[], budget⟩ none ⟨[], budget⟩
  | stray (token : Token) (rest : List Token) (budget : Nat)
      (hkind : token.kind ≠ .identifier)
      (htext : token.kind = .keyword → token.text ∉ Token.leading) :
      Statement Body ⟨token :: rest, budget⟩ none ⟨rest, budget⟩
  | unnamed (ty : Ty) (position : Position) (rest : List Token) (budget : Nat)
      (hnext : ∀ token ∈ rest.head?, token.kind ≠ .identifier) :
      Statement Body ⟨⟨.keyword, ty.name, position⟩ :: rest, budget⟩ none
        ⟨rest, budget⟩
  | declaration (ty : Ty) (hty : ty ∈ Ty.declarable) (position : Position)
      (name : String) (place : Position) (rest : List Token) (budget : Nat) :
      Statement Body
        ⟨⟨.keyword, ty.name, position⟩ :: ⟨.identifier, name, place⟩ :: rest,
          budget⟩
        (some (.declaration ty ⟨name, some place⟩ none (some position)))
        (Cursor.skip ⟨rest, budget⟩ .delimiter ";")
  | initialized (ty : Ty) (hty : ty ∈ Ty.declarable) (position : Position)
      (name : String) (place sign : Position) {rest : List Token}
      (budget : Nat) {value : Option Node} {after : Cursor}
      (hvalue : Expression ⟨rest, maxExpressionNodes⟩ value after) :
      Statement Body
        ⟨⟨.keyword, ty.name, position⟩ :: ⟨.identifier, name, place⟩ ::
          ⟨.operator, "=", sign⟩ :: rest, budget⟩
        (some (.declaration ty ⟨name, some place⟩ value (some position)))
        (after.skip .delimiter ";")
  | assignment (target : String) (position : Position) (rest : List Token)
      (budget : Nat) {value : Option Node} {after : Cursor}
      (hvalue : Expression
        ⟨(Cursor.skip ⟨rest, budget⟩ .operator "=").rest, maxExpressionNodes⟩
        value after) :
      Statement Body ⟨⟨.identifier, target, position⟩ :: rest, budget⟩
        (some (.assignment ⟨target, some position⟩ value (some position)))
        (after.skip .delimiter ";")
  | conditional (form : Conditional) (position : Position) (rest : List Token)
      (budget : Nat) {condition content : Option Node} {after last : Cursor}
      (hcondition : Expression
        ⟨(Cursor.skip ⟨rest, budget⟩ .delimiter "(").rest, maxExpressionNodes⟩
        condition after)
      (hbody : Body (after.skip .delimiter ")") content last) :
      Statement Body ⟨⟨.keyword, form.keyword, position⟩ :: rest, budget⟩
        (some (.conditional form condition content (some position))) last
  | bare (position : Position) (rest : List Token) (budget : Nat) :
      Statement Body ⟨⟨.keyword, "return", position⟩ :: rest, budget⟩
        (some (.result none (some position)))
        (Cursor.skip ⟨rest, budget⟩ .delimiter ";")
  | result (position : Position) {rest : List Token} (budget : Nat)
      {value : Option Node} {after : Cursor}
      (hvalue : Expression ⟨rest, maxExpressionNodes⟩ value after) :
      Statement Body ⟨⟨.keyword, "return", position⟩ :: rest, budget⟩
        (some (.result value (some position))) (after.skip .delimiter ";")

/-- Reading statements one after another, each of them as `Step` says. -/
inductive Sequence (Step : Cursor → Option Node → Cursor → Prop) :
    Cursor → List Node → Cursor → Prop where
  | done (cursor : Cursor) : Sequence Step cursor [] cursor
  | next {cursor after last : Cursor} {first : Option Node}
      {others : List Node} (hfirst : Step cursor first after)
      (hothers : Sequence Step after others last) :
      Sequence Step cursor (first.toList ++ others) last

/-- What holds of each statement that is read holds of all. -/
theorem Sequence.forall_mem {Step : Cursor → Option Node → Cursor → Prop}
    {motive : Node → Prop}
    (hsteps : ∀ cursor node after, Step cursor node after →
      ∀ statement ∈ node, motive statement)
    {cursor last : Cursor} {statements : List Node}
    (hread : Sequence Step cursor statements last) :
    ∀ statement ∈ statements, motive statement := by
  induction hread with
  | done cursor => exact List.forall_mem_nil _
  | next hfirst hothers ih =>
      refine List.forall_mem_append.mpr ⟨?_, ih⟩
      simpa using hsteps _ _ _ hfirst

/-- Reading a body: a single statement or a block. -/
inductive Body (Step : Cursor → Option Node → Cursor → Prop) :
    Cursor → Option Node → Cursor → Prop where
  | single {cursor last : Cursor} {content : Option Node}
      (hstatement : Step cursor content last) : Body Step cursor content last
  | block (position : Position) {rest : List Token} {budget : Nat}
      {statements : List Node} {after : Cursor}
      (hstatements : Sequence Step ⟨rest, budget⟩ statements after) :
      Body Step ⟨⟨.delimiter, "\x7b", position⟩ :: rest, budget⟩
        (some (.compound .block statements (some position)))
        (after.skip .delimiter "\x7d")

/-- Reading a statement with room for so many bodies inside each other. -/
def Within : (room : Nat) → Cursor → Option Node → Cursor → Prop
  | 0 => Statement fun cursor content last => content = none ∧ last = cursor
  | room + 1 => Statement (Body (Within room))

theorem declaration_covered (Body : Cursor → Option Node → Cursor → Prop)
    {ty : Ty} (hty : ty ∈ Ty.declarable) (position : Position)
    (rest : List Token) (budget : Nat) :
    Statement Body ⟨⟨.keyword, ty.name, position⟩ :: rest, budget⟩
      (Reader.declaration ty position ⟨rest, budget⟩).1
      (Reader.declaration ty position ⟨rest, budget⟩).2 := by
  cases rest with
  | nil => exact .unnamed ty position [] budget (by simp)
  | cons token rest =>
      obtain ⟨kind, name, place⟩ := token
      by_cases hkind : kind = .identifier
      · subst hkind
        by_cases hsign : Cursor.sees ⟨rest, budget⟩ .operator "=" = true
        · cases rest with
          | nil => simp [Cursor.sees] at hsign
          | cons sign rest =>
              obtain ⟨kind, text, place'⟩ := sign
              simp only [Cursor.sees_cons, Token.is, Bool.and_eq_true,
                beq_iff_eq] at hsign
              obtain ⟨rfl, rfl⟩ := hsign
              exact .initialized ty hty position name place place' budget
                (expression_covered rest budget)
        · simp only [Reader.declaration, Cursor.advance_cons, hsign,
            if_true]
          exact .declaration ty hty position name place rest budget
      · simp only [Reader.declaration, hkind, if_false]
        exact .unnamed ty position _ budget (by simpa using hkind)

theorem result_covered (Body : Cursor → Option Node → Cursor → Prop)
    (position : Position) (rest : List Token) (budget : Nat) :
    Statement Body ⟨⟨.keyword, "return", position⟩ :: rest, budget⟩
      (Reader.result position ⟨rest, budget⟩).1
      (Reader.result position ⟨rest, budget⟩).2 := by
  simp only [Reader.result]
  by_cases hend : Cursor.sees ⟨rest, budget⟩ .delimiter ";" = true
  · simp only [hend, if_true]
    exact .bare position rest budget
  · simp only [hend]
    exact .result position budget (expression_covered rest budget)

theorem statementWith_covered {body : Reader}
    {Body : Cursor → Option Node → Cursor → Prop}
    (hbody : ∀ cursor, Body cursor (body cursor).1 (body cursor).2)
    (cursor : Cursor) :
    Statement Body cursor (Reader.statementWith body cursor).1
      (Reader.statementWith body cursor).2 := by
  obtain ⟨rest, budget⟩ := cursor
  cases rest with
  | nil => exact .ended budget
  | cons token rest =>
      rcases token.opening_cases with ⟨ty, hty, hopening, htoken⟩ |
        ⟨form, hopening, htoken⟩ | ⟨hopening, htoken⟩ | ⟨hopening, hkind⟩ |
        ⟨hopening, hkind, htext⟩
      · simp only [Reader.statementWith, hopening, Cursor.advance_cons]
        rw [htoken]
        exact declaration_covered Body hty token.position rest budget
      · simp only [Reader.statementWith, hopening, Cursor.advance_cons]
        rw [htoken]
        exact .conditional form token.position rest budget
          (expression_covered _ _) (hbody _)
      · simp only [Reader.statementWith, hopening, Cursor.advance_cons]
        rw [htoken]
        exact result_covered Body token.position rest budget
      · simp only [Reader.statementWith, hopening, Cursor.advance_cons]
        obtain ⟨kind, text, position⟩ := token
        cases hkind
        exact .assignment text position rest budget (expression_covered _ _)
      · simp only [Reader.statementWith, hopening, Cursor.advance_cons]
        exact .stray token rest budget hkind htext

theorem sequence_covered {statement : Reader}
    {Step : Cursor → Option Node → Cursor → Prop}
    (hstatement : ∀ cursor,
      Step cursor (statement cursor).1 (statement cursor).2)
    (stop : Cursor → Bool) (count : Nat) (cursor : Cursor) :
    Sequence Step cursor (Reader.sequence statement stop count cursor).1
      (Reader.sequence statement stop count cursor).2 := by
  induction count generalizing cursor with
  | zero => exact .done cursor
  | succ count ih =>
      simp only [Reader.sequence]
      split
      · exact .done cursor
      · exact .next (hstatement cursor) (ih (statement cursor).2)

theorem body_covered {statement : Reader}
    {Step : Cursor → Option Node → Cursor → Prop}
    (hstatement : ∀ cursor,
      Step cursor (statement cursor).1 (statement cursor).2)
    (cursor : Cursor) :
    Body Step cursor (Reader.body statement cursor).1
      (Reader.body statement cursor).2 := by
  obtain ⟨rest, budget⟩ := cursor
  cases rest with
  | nil => exact .single (hstatement _)
  | cons token rest =>
      obtain ⟨kind, text, position⟩ := token
      by_cases hbrace : Token.is ⟨kind, text, position⟩ .delimiter "\x7b"
      · simp only [Reader.body, hbrace, if_true, Cursor.advance_cons]
        simp only [Token.is, Bool.and_eq_true, beq_iff_eq] at hbrace
        obtain ⟨rfl, rfl⟩ := hbrace
        exact .block position (sequence_covered hstatement _ _ _)
      · simp only [Reader.body, hbrace]
        exact .single (hstatement _)

/-- Every statement that the parser reads is read as the relations say. -/
theorem statement_covered (room : Nat) (cursor : Cursor) :
    Within room cursor (Reader.statement room cursor).1
      (Reader.statement room cursor).2 := by
  induction room generalizing cursor with
  | zero => exact statementWith_covered (fun _ => ⟨rfl, rfl⟩) cursor
  | succ room ih => exact statementWith_covered (body_covered ih) cursor

theorem program_covered (cursor : Cursor) :
    Sequence (Within maxNestingDepth) cursor (Reader.program cursor).1
      (Reader.program cursor).2 :=
  sequence_covered (statement_covered maxNestingDepth) _ _ cursor

theorem skip_suffix (cursor : Cursor) (kind : Token.Kind) (text : String) :
    (cursor.skip kind text).rest <:+ cursor.rest := by
  rw [Cursor.skip]
  split
  · exact List.tail_suffix cursor.rest
  · exact List.suffix_rfl

theorem Expression.suffix {cursor after : Cursor} {node : Option Node}
    (hread : Expression cursor node after) : after.rest <:+ cursor.rest := by
  induction hread with
  | absent cursor => exact List.suffix_rfl
  | literal text position rest budget => exact List.suffix_cons _ rest
  | identifier text position rest budget => exact List.suffix_cons _ rest
  | group position hinner ih =>
      exact (skip_suffix _ _ _).trans (ih.trans (List.suffix_cons _ _))
  | joined operator position hleft hright ihleft ihright =>
      exact ihright.trans ((List.suffix_cons _ _).trans ihleft)
  | dangling operator position hleft hright ihleft ihright =>
      exact ihright.trans ((List.suffix_cons _ _).trans ihleft)

/-- A statement passes its first token, and goes on from there. -/
theorem Statement.suffix {Body : Cursor → Option Node → Cursor → Prop}
    (hsuffix : ∀ cursor content last, Body cursor content last →
      last.rest <:+ cursor.rest)
    {cursor after : Cursor} {node : Option Node}
    (hread : Statement Body cursor node after) :
    after.rest <:+ cursor.rest.tail := by
  cases hread with
  | ended budget => exact List.suffix_rfl
  | stray token rest budget hkind htext => exact List.suffix_rfl
  | unnamed ty position rest budget hnext => exact List.suffix_rfl
  | declaration ty hty position name place rest budget =>
      exact (skip_suffix _ _ _).trans (List.suffix_cons _ rest)
  | initialized ty hty position name place sign budget hvalue =>
      exact (skip_suffix _ _ _).trans (hvalue.suffix.trans
        ((List.suffix_cons _ _).trans (List.suffix_cons _ _)))
  | assignment target position rest budget hvalue =>
      exact (skip_suffix _ _ _).trans
        (hvalue.suffix.trans (skip_suffix _ _ _))
  | conditional form position rest budget hcondition hbody =>
      exact (hsuffix _ _ _ hbody).trans ((skip_suffix _ _ _).trans
        (hcondition.suffix.trans (skip_suffix _ _ _)))
  | bare position rest budget => exact skip_suffix _ _ _
  | result position budget hvalue =>
      exact (skip_suffix _ _ _).trans hvalue.suffix

theorem Sequence.suffix {Step : Cursor → Option Node → Cursor → Prop}
    (hsuffix : ∀ cursor node after, Step cursor node after →
      after.rest <:+ cursor.rest)
    {cursor last : Cursor} {statements : List Node}
    (hread : Sequence Step cursor statements last) :
    last.rest <:+ cursor.rest := by
  induction hread with
  | done cursor => exact List.suffix_rfl
  | next hfirst hothers ih => exact ih.trans (hsuffix _ _ _ hfirst)

theorem Body.suffix {Step : Cursor → Option Node → Cursor → Prop}
    (hsuffix : ∀ cursor node after, Step cursor node after →
      after.rest <:+ cursor.rest)
    {cursor last : Cursor} {content : Option Node}
    (hread : Body Step cursor content last) : last.rest <:+ cursor.rest := by
  cases hread with
  | single hstatement => exact hsuffix _ _ _ hstatement
  | block position hstatements =>
      exact (skip_suffix _ _ _).trans
        ((hstatements.suffix hsuffix).trans (List.suffix_cons _ _))

theorem Within.suffix_tail {room : Nat} {cursor after : Cursor}
    {node : Option Node} (hread : Within room cursor node after) :
    after.rest <:+ cursor.rest.tail := by
  induction room generalizing cursor node after with
  | zero =>
      apply Statement.suffix _ hread
      rintro cursor content last ⟨_, rfl⟩
      exact List.suffix_rfl
  | succ room ih =>
      apply Statement.suffix _ hread
      intro cursor content last hbody
      apply hbody.suffix
      intro cursor node after hstatement
      exact (ih hstatement).trans (List.tail_suffix cursor.rest)

/-- A sequence without a stop takes all tokens, when it may take as many
statements as there are tokens. -/
theorem sequence_rest_eq_nil (room count : Nat) (cursor : Cursor)
    (hcount : cursor.rest.length ≤ count) :
    (Reader.sequence (Reader.statement room) (fun _ => false) count
      cursor).2.rest = [] := by
  induction count generalizing cursor with
  | zero => exact List.eq_nil_of_length_eq_zero (Nat.le_zero.mp hcount)
  | succ count ih =>
      simp only [Reader.sequence, Bool.or_false]
      split
      · rename_i hempty
        exact List.isEmpty_iff.mp hempty
      · apply ih
        have htail := (statement_covered room cursor).suffix_tail.length_le
        rw [List.length_tail] at htail
        omega

theorem program_rest_eq_nil (cursor : Cursor) :
    (Reader.program cursor).2.rest = [] :=
  sequence_rest_eq_nil maxNestingDepth cursor.rest.length cursor (Nat.le_refl _)

end Reading

end ThreeAddress
