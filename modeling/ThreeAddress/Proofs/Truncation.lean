import ThreeAddress.Proofs.Completeness
import ThreeAddress.Proofs.Reading

/-!
Expressions beyond the limit.  Every operator and every opening parenthesis is
paid for, in the order of the tokens; the first one that cannot be paid for ends
all that is open, and reading goes on with it as if a statement followed.  There
nothing but an identifier starts a statement, and each of them starts one.
-/

namespace ThreeAddress

/-- A token that is paid for where an expression is read. -/
def Token.isPaid (token : Token) : Bool :=
  token.kind == .operator || token.is .delimiter "("

/-- What is left of the tokens of an expression when `limit` of them can be paid
for: all from the first one on that cannot. -/
def unpaid : (limit : Nat) → List Token → List Token
  | _, [] => []
  | limit, token :: rest =>
      if token.isPaid then
        match limit with
        | 0 => token :: rest
        | limit + 1 => unpaid limit rest
      else unpaid limit rest

@[simp] theorem unpaid_nil (limit : Nat) : unpaid limit [] = [] := by
  simp [unpaid]

theorem unpaid_zero_cons {token : Token} (hpaid : token.isPaid = true)
    (rest : List Token) : unpaid 0 (token :: rest) = token :: rest := by
  simp [unpaid, hpaid]

theorem unpaid_succ_cons {token : Token} (hpaid : token.isPaid = true)
    (limit : Nat) (rest : List Token) :
    unpaid (limit + 1) (token :: rest) = unpaid limit rest := by
  simp [unpaid, hpaid]

theorem unpaid_cons_of_not {token : Token} (hpaid : token.isPaid = false)
    (limit : Nat) (rest : List Token) :
    unpaid limit (token :: rest) = unpaid limit rest := by
  simp [unpaid, hpaid]

theorem unpaid_suffix (limit : Nat) (tokens : List Token) :
    unpaid limit tokens <:+ tokens := by
  fun_induction unpaid limit tokens with
  | case1 limit => exact List.suffix_refl []
  | case2 token rest hpaid => exact List.suffix_refl _
  | case3 token rest hpaid limit ih => exact ih.trans (List.suffix_cons _ _)
  | case4 limit token rest hpaid ih => exact ih.trans (List.suffix_cons _ _)

/-- If not all can be paid for, what is left starts with one to be paid for. -/
theorem exists_unpaid_eq_cons {limit : Nat} {tokens : List Token}
    (hlimit : limit < tokens.countP Token.isPaid) :
    ∃ token rest, token.isPaid = true ∧ unpaid limit tokens = token :: rest := by
  fun_induction unpaid limit tokens with
  | case1 limit => simp at hlimit
  | case2 token rest hpaid => exact ⟨token, rest, hpaid, rfl⟩
  | case3 token rest hpaid limit ih =>
      rw [List.countP_cons_of_pos hpaid] at hlimit
      exact ih (by omega)
  | case4 limit token rest hpaid ih =>
      rw [List.countP_cons_of_neg hpaid] at hlimit
      exact ih hlimit

/-- Tokens that can be paid for are passed. -/
theorem unpaid_append_of_le {limit : Nat} {first : List Token}
    (hlimit : first.countP Token.isPaid ≤ limit) (second : List Token) :
    unpaid limit (first ++ second) =
      unpaid (limit - first.countP Token.isPaid) second := by
  induction first generalizing limit with
  | nil => rfl
  | cons token rest ih =>
      by_cases hpaid : token.isPaid = true
      · rw [List.countP_cons_of_pos hpaid] at hlimit ⊢
        obtain ⟨limit, rfl⟩ : ∃ fewer, limit = fewer + 1 := ⟨limit - 1, by omega⟩
        rw [List.cons_append, unpaid_succ_cons hpaid, ih (by omega)]
        congr 1
        omega
      · rw [List.countP_cons_of_neg hpaid] at hlimit ⊢
        rw [List.cons_append, unpaid_cons_of_not (by simpa using hpaid),
          ih hlimit]

theorem unpaid_eq_nil_iff {limit : Nat} {tokens : List Token} :
    unpaid limit tokens = [] ↔ tokens.countP Token.isPaid ≤ limit := by
  constructor
  · intro hnil
    refine Nat.le_of_not_lt fun hlimit => ?_
    obtain ⟨token, rest, -, hcons⟩ := exists_unpaid_eq_cons hlimit
    simp [hnil] at hcons
  · intro hlimit
    have hpassed := unpaid_append_of_le hlimit []
    rwa [List.append_nil, unpaid_nil] at hpassed

/-- What follows tokens that cannot all be paid for is left with them. -/
theorem unpaid_append_of_lt {limit : Nat} {first : List Token}
    (hlimit : limit < first.countP Token.isPaid) (second : List Token) :
    unpaid limit (first ++ second) = unpaid limit first ++ second := by
  induction first generalizing limit with
  | nil => simp at hlimit
  | cons token rest ih =>
      by_cases hpaid : token.isPaid = true
      · rw [List.countP_cons_of_pos hpaid] at hlimit
        cases limit with
        | zero => rw [List.cons_append, unpaid_zero_cons hpaid,
            unpaid_zero_cons hpaid, List.cons_append]
        | succ limit =>
            rw [List.cons_append, unpaid_succ_cons hpaid,
              unpaid_succ_cons hpaid, ih (by omega)]
      · rw [List.countP_cons_of_neg hpaid] at hlimit
        have hnot : token.isPaid = false := by simpa using hpaid
        rw [List.cons_append, unpaid_cons_of_not hnot, unpaid_cons_of_not hnot,
          ih hlimit]

namespace Derivation

mutual

/-- The size of an expression is the number of tokens that are paid for. -/
theorem Phrase.countP_tokens {levels : List Signs} :
    (phrase : Phrase levels) →
    phrase.tokens.countP Token.isPaid = phrase.size
  | .literal _ _ => rfl
  | .identifier _ _ => rfl
  | .group _ inner _ => by
      rw [Phrase.tokens, List.countP_cons_of_pos rfl, List.countP_append,
        inner.countP_tokens]
      rfl
  | .join first links => by
      rw [Phrase.tokens, List.countP_append, first.countP_tokens,
        links.countP_tokens, Phrase.size]

theorem Links.countP_tokens {signs : Signs} {tighter : List Signs} :
    (links : Links signs tighter) →
    links.tokens.countP Token.isPaid = links.size
  | .done => rfl
  | .link _ _ _ _ right rest => by
      rw [Links.tokens, List.countP_cons_of_pos rfl, List.countP_append,
        right.countP_tokens, rest.countP_tokens, Links.size]

end

/-- Without budget a chain goes nowhere. -/
theorem chain_of_budget_zero (operand : Reader) (operators : List Operator)
    (steps : Nat) (left : Node) (rest : List Token) :
    Reader.chain operand operators steps left ⟨rest, 0⟩ = (left, ⟨rest, 0⟩) := by
  cases steps with
  | zero => rfl
  | succ steps => simp [Reader.chain, Cursor.spend?]

/-- No closing sign is passed where a token is left that could not be paid
for. -/
theorem skip_unpaid {limit : Nat} {tokens : List Token}
    (hlimit : limit < tokens.countP Token.isPaid) (rest : List Token)
    (budget : Nat) :
    Cursor.skip ⟨unpaid limit tokens ++ rest, budget⟩ .delimiter ")" =
      ⟨unpaid limit tokens ++ rest, budget⟩ := by
  obtain ⟨token, others, hpaid, hunpaid⟩ := exists_unpaid_eq_cons hlimit
  have hclosing : token.is .delimiter ")" = false := by
    rw [Bool.eq_false_iff]
    intro hclosing
    simp [Token.isPaid, Token.is, Token.is_iff.mp hclosing] at hpaid
  simp [Cursor.skip, hunpaid, hclosing]

mutual

/-- Reading the tokens of an expression that is larger than the budget takes
those that can be paid for and ends before the first one that cannot. -/
theorem Phrase.overrun {levels : List Signs} : (phrase : Phrase levels) →
    Distinct levels → (depth budget : Nat) → (rest : List Token) →
    budget ≤ depth → budget < phrase.size → Stops levels rest →
    ∃ node, Reader.levels (Reader.operand depth)
        (levels.map (List.map Prod.snd)) ⟨phrase.tokens ++ rest, budget⟩ =
      (node, ⟨unpaid budget phrase.tokens ++ rest, 0⟩)
  | .literal text position, _, _, _, _, _, hsize, _ => by
      simp [Phrase.size] at hsize
  | .identifier text position, _, _, _, _, _, hsize, _ => by
      simp [Phrase.size] at hsize
  | .group opening inner closing, _, depth, 0, rest, _, _, _ => by
      refine ⟨none, ?_⟩
      rw [Phrase.tokens, unpaid_zero_cons rfl]
      cases depth <;> rfl
  | .group opening inner closing, _, depth, budget + 1, rest, hdepth, hsize,
      _ => by
      simp only [Phrase.size] at hsize
      obtain ⟨depth, rfl⟩ : ∃ left, depth = left + 1 := ⟨depth - 1, by omega⟩
      obtain ⟨node, hinner⟩ := inner.overrun levels_distinct depth budget
        (⟨.delimiter, ")", closing⟩ :: rest) (by omega) (by omega)
        (stops_of_delimiter Derivation.levels ")" closing rest)
      have hlevels : Derivation.levels.map (List.map Prod.snd) =
          Operator.levels := rfl
      have hcount : budget < inner.tokens.countP Token.isPaid := by
        rw [inner.countP_tokens]
        omega
      refine ⟨node, ?_⟩
      rw [hlevels] at hinner
      rw [Phrase.tokens, unpaid_succ_cons rfl, unpaid_append_of_lt hcount]
      simp [Reader.levels, Reader.operand, Reader.atom, Reader.parenthesized,
        hinner, skip_unpaid hcount]
  | .join first links, hdistinct, depth, budget, rest, hdepth, hsize,
      hstops => by
      simp only [Phrase.size] at hsize
      by_cases hfirst : budget < first.size
      · obtain ⟨node, hread⟩ := first.overrun hdistinct.tail depth budget
          (links.tokens ++ rest) hdepth hfirst
          (links.stops hdistinct hstops.tail)
        rw [Phrase.tokens, unpaid_append_of_lt (first.countP_tokens.symm ▸ hfirst)]
        simp only [List.map_cons, Reader.levels, Reader.level,
          List.append_assoc, hread]
        cases node with
        | none => exact ⟨none, rfl⟩
        | some left => exact ⟨some left, rfl⟩
      · have hread := first.read hdistinct.tail depth budget
          (links.tokens ++ rest) (by omega) (by omega)
          (links.stops hdistinct hstops.tail)
        obtain ⟨node, hlinks⟩ := links.overrun hdistinct depth
          (budget - first.size) (budget - first.size) rest
          (by omega) (by omega) (by omega) hstops first.node
        have hcount : first.tokens.countP Token.isPaid ≤ budget := by
          rw [first.countP_tokens]
          omega
        refine ⟨some node, ?_⟩
        rw [Phrase.tokens, unpaid_append_of_le hcount, first.countP_tokens]
        simp only [List.map_cons, Reader.levels, Reader.level,
          List.append_assoc, hread, hlinks]

theorem Links.overrun {signs : Signs} {tighter : List Signs} :
    (links : Links signs tighter) → Distinct (signs :: tighter) →
    (depth budget steps : Nat) → (rest : List Token) →
    budget ≤ depth → budget ≤ steps → budget < links.size →
    Stops (signs :: tighter) rest → (left : Node) →
    ∃ node, Reader.chain (Reader.levels (Reader.operand depth)
        (tighter.map (List.map Prod.snd))) (signs.map Prod.snd) steps left
        ⟨links.tokens ++ rest, budget⟩ =
      (node, ⟨unpaid budget links.tokens ++ rest, 0⟩)
  | .done, _, _, _, _, _, _, _, hsize, _, _ => by
      simp [Links.size] at hsize
  | .link sign operator hsign position right links, hdistinct, depth, 0,
      steps, rest, _, _, _, _, left => by
      rw [Links.tokens, unpaid_zero_cons rfl]
      exact ⟨left, chain_of_budget_zero _ _ steps left _⟩
  | .link sign operator hsign position right links, hdistinct, depth,
      budget + 1, steps, rest, hdepth, hsteps, hsize, hstops, left => by
      simp only [Links.size] at hsize
      obtain ⟨steps, rfl⟩ : ∃ left, steps = left + 1 := ⟨steps - 1, by omega⟩
      have hoperator := hdistinct.operator?_eq_some hsign position
        (right.tokens ++ (links.tokens ++ rest)) (budget + 1)
      rw [Links.tokens, unpaid_succ_cons rfl]
      simp only [List.cons_append, List.append_assoc, Reader.chain, hoperator,
        Cursor.spend?_succ, Cursor.advance_cons]
      by_cases hright : budget < right.size
      · obtain ⟨node, hread⟩ := right.overrun hdistinct.tail depth budget
          (links.tokens ++ rest) (by omega) hright
          (links.stops hdistinct hstops.tail)
        rw [unpaid_append_of_lt (right.countP_tokens.symm ▸ hright), hread,
          List.append_assoc]
        cases node with
        | none => exact ⟨left, rfl⟩
        | some node => exact ⟨_, chain_of_budget_zero _ _ steps _ _⟩
      · have hread := right.read hdistinct.tail depth budget
          (links.tokens ++ rest) (by omega) (by omega)
          (links.stops hdistinct hstops.tail)
        have hcount : right.tokens.countP Token.isPaid ≤ budget := by
          rw [right.countP_tokens]
          omega
        rw [unpaid_append_of_le hcount, right.countP_tokens, hread]
        exact links.overrun hdistinct depth (budget - right.size) steps rest
          (by omega) (by omega) (by omega) hstops _

end

/-- Reading a complete expression of any size ends before the first token that
the budget does not pay for, or else after the expression. -/
theorem expression_unpaid (value : Expression) (budget : Nat)
    {rest : List Token} (hstops : Stops levels rest) :
    ∃ node left, Reader.expression ⟨value.tokens ++ rest, budget⟩ =
      (node, ⟨unpaid 128 value.tokens ++ rest, left⟩) := by
  by_cases hsize : 128 < value.size
  · obtain ⟨node, hread⟩ := value.overrun levels_distinct 128 128 rest
      (Nat.le_refl 128) hsize hstops
    exact ⟨node, 0, hread⟩
  · have hread := expression_read value (by omega) budget hstops
    have hunpaid : unpaid 128 value.tokens = [] := by
      rw [unpaid_eq_nil_iff, value.countP_tokens]
      omega
    rw [hunpaid]
    exact ⟨some value.node, 128 - value.size, hread⟩

end Derivation

/-- A token that can stand right after an operand of an expression, at its end
included. -/
def Token.endsOperand (token : Token) : Bool :=
  match token.kind with
  | .operator => token.text != "="
  | .delimiter => token.text != "("
  | _ => false

/-- Tokens among which no keyword and no comment stands, and each identifier is
followed by something that ends an operand. -/
def Loose : List Token → Prop
  | [] => True
  | token :: rest =>
      token.kind ∉ [.keyword, .comment] ∧
        (token.kind = .identifier →
          ∀ next ∈ rest.head?, next.endsOperand = true) ∧ Loose rest

theorem Loose.suffix {tokens rest : List Token} (hloose : Loose tokens)
    (hsuffix : rest <:+ tokens) : Loose rest := by
  induction tokens with
  | nil =>
      rw [List.suffix_nil] at hsuffix
      rwa [hsuffix]
  | cons token others ih =>
      rcases List.suffix_cons_iff.mp hsuffix with rfl | hsuffix
      · exact hloose
      · exact ih hloose.2.2 hsuffix

namespace Derivation

theorem endsOperand_of_sign {levels : List Signs} (hdistinct : Distinct levels)
    {signs : Signs} (hsigns : signs ∈ levels) {entry : String × Operator}
    (hentry : entry ∈ signs) (position : Position) :
    Token.endsOperand ⟨.operator, entry.1, position⟩ = true := by
  have hsymbol := hdistinct.symbol signs hsigns entry hentry
  rw [← hsymbol]
  cases entry.2 <;> rfl

/-- What follows the first operand of a level ends it. -/
theorem Links.head?_endsOperand {signs : Signs} {tighter : List Signs}
    (links : Links signs tighter) (hdistinct : Distinct (signs :: tighter))
    {rest : List Token}
    (hrest : ∀ next ∈ rest.head?, next.endsOperand = true) :
    ∀ next ∈ (links.tokens ++ rest).head?, next.endsOperand = true := by
  cases links with
  | done => exact hrest
  | link sign operator hsign position right others =>
      intro next hnext
      simp only [Links.tokens, List.cons_append, List.head?_cons,
        Option.mem_some_iff] at hnext
      subst hnext
      exact endsOperand_of_sign hdistinct List.mem_cons_self hsign position

mutual

theorem Phrase.loose {levels : List Signs} : (phrase : Phrase levels) →
    Distinct levels → {rest : List Token} → Loose rest →
    (∀ next ∈ rest.head?, next.endsOperand = true) →
    Loose (phrase.tokens ++ rest)
  | .literal _ _, _, _, hloose, _ => ⟨by simp, by simp, hloose⟩
  | .identifier _ _, _, _, hloose, hrest => ⟨by simp, fun _ => hrest, hloose⟩
  | .group _ inner closing, _, rest, hloose, _ => by
      have hclosing : Loose (⟨.delimiter, ")", closing⟩ :: rest) :=
        ⟨by simp, by simp, hloose⟩
      have hinner := inner.loose levels_distinct hclosing
        (by simp [Token.endsOperand])
      simpa [Phrase.tokens, Loose] using hinner
  | .join first links, hdistinct, rest, hloose, hrest => by
      have hfirst := first.loose hdistinct.tail
        (links.loose hdistinct hloose hrest)
        (links.head?_endsOperand hdistinct hrest)
      rwa [Phrase.tokens, List.append_assoc]

theorem Links.loose {signs : Signs} {tighter : List Signs} :
    (links : Links signs tighter) → Distinct (signs :: tighter) →
    {rest : List Token} → Loose rest →
    (∀ next ∈ rest.head?, next.endsOperand = true) →
    Loose (links.tokens ++ rest)
  | .done, _, _, hloose, _ => hloose
  | .link _ _ _ _ right links, hdistinct, rest, hloose, hrest => by
      have hright := right.loose hdistinct.tail
        (links.loose hdistinct hloose hrest)
        (links.head?_endsOperand hdistinct hrest)
      simpa [Links.tokens, Loose] using hright

end

end Derivation

/-- No operand is found where one ends. -/
theorem levels_absent {operand : Reader} {cursor : Cursor}
    (habsent : operand cursor = (none, cursor))
    (levels : List (List Operator)) :
    Reader.levels operand levels cursor = (none, cursor) := by
  induction levels with
  | nil => exact habsent
  | cons operators tighter ih =>
      simp only [Reader.levels, Reader.level, ih]

theorem expression_absent {rest : List Token}
    (hrest : ∀ next ∈ rest.head?, next.endsOperand = true) (budget : Nat) :
    Reader.expression ⟨rest, budget⟩ = (none, ⟨rest, 128⟩) := by
  apply levels_absent
  cases rest with
  | nil => rfl
  | cons token rest =>
      obtain ⟨kind, text, position⟩ := token
      have hends := hrest _ rfl
      cases kind with
      | delimiter =>
          have htext : text ≠ "(" := by simpa [Token.endsOperand] using hends
          simp [Reader.operand, maxExpressionNodes, Reader.atom, htext]
      | operator => rfl
      | keyword => simp [Token.endsOperand] at hends
      | identifier => simp [Token.endsOperand] at hends
      | literal => simp [Token.endsOperand] at hends
      | comment => simp [Token.endsOperand] at hends

/-- The assignment to an identifier that has no value. -/
def Token.bareAssignment (token : Token) : Node :=
  .assignment ⟨token.text, some token.position⟩ none (some token.position)

def identifiers (tokens : List Token) : List Token :=
  tokens.filter fun token => token.kind = .identifier

theorem identifiers_skip (cursor : Cursor) (text : String) :
    identifiers (cursor.skip .delimiter text).rest =
      identifiers cursor.rest := by
  obtain ⟨tokens, budget⟩ := cursor
  cases tokens with
  | nil => rfl
  | cons token rest =>
      by_cases htoken : token.is .delimiter text = true
      · have hkind := (Token.is_iff.mp htoken).1
        simp [Cursor.skip, htoken, identifiers, hkind]
      · simp [Cursor.skip, htoken]

theorem Loose.withoutComments_eq {tokens : List Token}
    (hloose : Loose tokens) : withoutComments tokens = tokens := by
  rw [withoutComments_eq_filter, List.filter_eq_self]
  induction tokens with
  | nil => simp
  | cons token rest ih =>
      obtain ⟨hkind, -, hrest⟩ := hloose
      simp only [List.mem_cons, List.not_mem_nil, or_false, not_or] at hkind
      simpa [hkind.2] using ih hrest

theorem statement_of_stray {token : Token} (hkeyword : token.kind ≠ .keyword)
    (hidentifier : token.kind ≠ .identifier) (room : Nat) (rest : List Token)
    (budget : Nat) :
    Reader.statement room ⟨token :: rest, budget⟩ = (none, ⟨rest, budget⟩) := by
  obtain ⟨body, hbody⟩ := Derivation.statement_eq_statementWith room
  have hstray : token.opening = .stray := by
    unfold Token.opening
    split <;> simp_all
  simp [hbody, Reader.statementWith, hstray]

/-- An identifier with no sign after it is assigned to, and has no value. -/
theorem statement_of_identifier {token : Token}
    (hidentifier : token.kind = .identifier) {rest : List Token}
    (hrest : ∀ next ∈ rest.head?, next.endsOperand = true)
    (room budget : Nat) :
    Reader.statement room ⟨token :: rest, budget⟩ =
      (some token.bareAssignment, Cursor.skip ⟨rest, 128⟩ .delimiter ";") := by
  obtain ⟨body, hbody⟩ := Derivation.statement_eq_statementWith room
  have hopening : token.opening = .assignment := by
    simp [Token.opening, hidentifier]
  have hsign : Cursor.skip ⟨rest, budget⟩ .operator "=" = ⟨rest, budget⟩ := by
    cases rest with
    | nil => rfl
    | cons next others =>
        have hends := hrest next rfl
        have hother : next.is .operator "=" = false := by
          rw [Bool.eq_false_iff]
          intro hequals
          simp [Token.endsOperand, Token.is_iff.mp hequals] at hends
        simp [Cursor.skip, hother]
  simp [hbody, Reader.statementWith, hopening, Reader.assignment, hsign,
    expression_absent hrest, Token.bareAssignment]

/-- Loose tokens are read as assignments without values, one for each
identifier. -/
theorem sequence_of_loose (room : Nat) {count : Nat} {tokens : List Token}
    (hcount : tokens.length ≤ count) (hloose : Loose tokens) (budget : Nat) :
    (Reader.sequence (Reader.statement room) (fun _ => false) count
        ⟨tokens, budget⟩).1 =
      (identifiers tokens).map Token.bareAssignment := by
  induction count generalizing tokens budget with
  | zero =>
      rw [List.eq_nil_of_length_eq_zero (Nat.le_zero.mp hcount)]
      rfl
  | succ count ih =>
      cases tokens with
      | nil => rfl
      | cons token rest =>
          obtain ⟨hkind, hnext, hrest⟩ := hloose
          have hshorter : rest.length ≤ count := by simpa using hcount
          by_cases hidentifier : token.kind = .identifier
          · have hread := statement_of_identifier hidentifier
              (hnext hidentifier) room budget
            have hsuffix := Reading.skip_suffix ⟨rest, 128⟩ .delimiter ";"
            have hothers := ih (Nat.le_trans hsuffix.length_le hshorter)
              (hrest.suffix hsuffix)
              (Cursor.skip ⟨rest, 128⟩ .delimiter ";").budget
            rw [identifiers_skip] at hothers
            simp only [Reader.sequence, hread, hothers]
            simp [identifiers, hidentifier]
          · have hkeyword : token.kind ≠ .keyword := by
              intro hkeyword
              simp [hkeyword] at hkind
            have hread := statement_of_stray hkeyword hidentifier room rest
              budget
            simp only [Reader.sequence, hread, ih hshorter hrest]
            simp [identifiers, hidentifier]

namespace Derivation

/-- Reading an assignment goes on to where its value is cut off, and passes a
semicolon there. -/
theorem statement_of_assignment (target : String) (place sign : Position)
    (value : Expression) (semicolon : Position) (room budget : Nat) :
    ∃ content left, Reader.statement room
        ⟨(Statement.assignment target place sign value semicolon).tokens,
          budget⟩ =
      (some (.assignment ⟨target, some place⟩ content (some place)),
        Cursor.skip
          ⟨unpaid 128 value.tokens ++ [⟨.delimiter, ";", semicolon⟩], left⟩
          .delimiter ";") := by
  obtain ⟨body, hbody⟩ := statement_eq_statementWith room
  obtain ⟨content, left, hread⟩ := expression_unpaid value budget
    (stops_of_delimiter levels ";" semicolon [])
  refine ⟨content, left, ?_⟩
  simp [hbody, Reader.statementWith, Statement.tokens, Token.opening,
    Reader.assignment, hread]

/-- What an assignment is read as, however large its value is: the assignment
itself, and then one without a value for each identifier that stands where its
value is cut off or after that. -/
theorem parse_assignment (target : String) (place sign : Position)
    (value : Expression) (semicolon : Position) :
    ∃ content,
      parse (Statement.assignment target place sign value semicolon).tokens =
        .compound .program
          (.assignment ⟨target, some place⟩ content (some place) ::
            (identifiers (unpaid 128 value.tokens)).map Token.bareAssignment)
          none := by
  have hsemicolon : Loose [⟨.delimiter, ";", semicolon⟩] :=
    ⟨by simp, by simp, trivial⟩
  have hloose := Phrase.loose value levels_distinct hsemicolon
    (by simp [Token.endsOperand])
  obtain ⟨content, left, hread⟩ :=
    statement_of_assignment target place sign value semicolon 128 128
  -- The tokens ahead when the assignment has been read.
  obtain ⟨after, hafter⟩ : ∃ after, after = Cursor.skip
      ⟨unpaid 128 value.tokens ++ [⟨.delimiter, ";", semicolon⟩], left⟩
      .delimiter ";" := ⟨_, rfl⟩
  have hsuffix : after.rest <:+
      value.tokens ++ [⟨.delimiter, ";", semicolon⟩] := by
    obtain ⟨paid, hpaid⟩ := unpaid_suffix 128 value.tokens
    rw [hafter]
    refine (Reading.skip_suffix _ _ _).trans ⟨paid, ?_⟩
    rw [← List.append_assoc, hpaid]
  have hidentifiers : identifiers after.rest =
      identifiers (unpaid 128 value.tokens) := by
    rw [hafter, identifiers_skip]
    simp [identifiers]
  have hothers := sequence_of_loose 128 (Nat.le_succ_of_le hsuffix.length_le)
    (hloose.suffix hsuffix) after.budget
  rw [hidentifiers] at hothers
  have hcomments : withoutComments
      (Statement.assignment target place sign value semicolon).tokens =
        (Statement.assignment target place sign value semicolon).tokens := by
    simpa [Statement.tokens, withoutComments] using hloose.withoutComments_eq
  refine ⟨content, ?_⟩
  rw [← hafter] at hread
  rw [parse, hcomments, Reader.program]
  congr 1
  change (Reader.sequence _ _ (_ + 1 + 1) _).1 = _
  rw [Reader.sequence]
  simp only [maxNestingDepth, maxExpressionNodes, hread]
  simpa [Statement.tokens] using hothers

/-- A value within the limit leaves nothing over, and an assignment is read as
the one statement that it is exactly if no identifier is left over from its
value: each of those is assigned to as well. -/
theorem parse_assignment_eq_single_iff (target : String)
    (place sign : Position) (value : Expression) (semicolon : Position) :
    (∃ content,
      parse (Statement.assignment target place sign value semicolon).tokens =
        .compound .program
          (.assignment ⟨target, some place⟩ content (some place) ::
            (identifiers (unpaid 128 value.tokens)).map Token.bareAssignment)
          none) ∧
    ((∃ content,
      parse (Statement.assignment target place sign value semicolon).tokens =
        .compound .program
          [.assignment ⟨target, some place⟩ content (some place)] none) ↔
      ∀ token ∈ unpaid 128 value.tokens, token.kind ≠ .identifier) ∧
    (unpaid 128 value.tokens = [] ↔ value.size ≤ 128) := by
  obtain ⟨content, hparse⟩ := parse_assignment target place sign value semicolon
  refine ⟨⟨content, hparse⟩, ?_, ?_⟩
  · rw [hparse]
    simp [identifiers]
  · rw [unpaid_eq_nil_iff, value.countP_tokens]

/-- An identifier inside of parentheses, from the given column on. -/
def nested (column : Nat) : Nat → Expression
  | 0 => .ofPrimary (.identifier "y" ⟨1, column⟩)
  | depth + 1 => .ofPrimary (.group ⟨1, column⟩ (nested (column + 1) depth)
      ⟨1, column + 2 * depth + 2⟩)

/-- With one parenthesis beyond the limit, the identifier is left over. -/
theorem identifiers_unpaid_nested (column limit : Nat) (rest : List Token) :
    identifiers (unpaid limit ((nested column (limit + 1)).tokens ++ rest)) =
      ⟨.identifier, "y", ⟨1, column + limit + 1⟩⟩ :: identifiers rest := by
  induction limit generalizing column rest with
  | zero => rfl
  | succ limit ih =>
      have hinner := ih (column + 1)
        (⟨.delimiter, ")", ⟨1, column + 2 * (limit + 1) + 2⟩⟩ :: rest)
      have htokens : (nested column (limit + 1 + 1)).tokens ++ rest =
          ⟨.delimiter, "(", ⟨1, column⟩⟩ ::
            ((nested (column + 1) (limit + 1)).tokens ++
              ⟨.delimiter, ")", ⟨1, column + 2 * (limit + 1) + 2⟩⟩ :: rest) := by
        simp [nested, Expression.ofPrimary, Phrase.tokens, Links.tokens]
      rw [htokens, unpaid_succ_cons rfl, hinner]
      simp [identifiers, Nat.add_assoc, Nat.add_comm 1 limit]

/-- With one parenthesis beyond the limit, what stands in them is assigned to. -/
theorem parse_nested_two_assignments :
    (∃ content,
      parse (Statement.assignment "x" ⟨1, 1⟩ ⟨1, 3⟩ (nested 5 129)
          ⟨1, 264⟩).tokens =
        .compound .program
          [.assignment ⟨"x", some ⟨1, 1⟩⟩ content (some ⟨1, 1⟩),
            .assignment ⟨"y", some ⟨1, 134⟩⟩ none (some ⟨1, 134⟩)] none) ∧
    ¬∃ content,
      parse (Statement.assignment "x" ⟨1, 1⟩ ⟨1, 3⟩ (nested 5 129)
          ⟨1, 264⟩).tokens =
        .compound .program
          [.assignment ⟨"x", some ⟨1, 1⟩⟩ content (some ⟨1, 1⟩)] none := by
  obtain ⟨content, hparse⟩ := parse_assignment "x" ⟨1, 1⟩ ⟨1, 3⟩ (nested 5 129)
    ⟨1, 264⟩
  have hleft : identifiers (unpaid 128 (nested 5 129).tokens) =
      [⟨.identifier, "y", ⟨1, 134⟩⟩] := by
    simpa [identifiers] using identifiers_unpaid_nested 5 128 []
  rw [hleft] at hparse
  refine ⟨⟨content, hparse⟩, ?_⟩
  rintro ⟨other, hsingle⟩
  rw [hparse] at hsingle
  simp at hsingle

end Derivation

end ThreeAddress
