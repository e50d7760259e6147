import ThreeAddress.Proofs.Reading

/-!
No token that means something is lost.  A tree stands for a list of tokens, in
source order; reading any tokens whatever gives a tree that stands for some of
them, in their order, and the others are such that a tree has no place for
them.
-/

namespace ThreeAddress

/-- What a tree tells of a token that it stands for. -/
structure Mark where
  kind : Token.Kind
  text : String
  position : Option Position
deriving DecidableEq, Repr

/-- A token as a tree tells of it. -/
def Token.mark (token : Token) : Mark :=
  ⟨token.kind, token.text, some token.position⟩

namespace Node

mutual

/-- The tokens that a tree stands for, in source order.  Signs of assignment,
parentheses, semicolons and closing braces have no place in a tree. -/
def marks : Node → List Mark
  | compound .program statements _ => marksAll statements
  | compound .block statements position =>
      ⟨.delimiter, "\x7b", position⟩ :: marksAll statements
  | declaration ty name initializer position =>
      ⟨.keyword, ty.name, position⟩ ::
        ⟨.identifier, name.text, name.position⟩ :: marksOption initializer
  | assignment target value _ =>
      ⟨.identifier, target.text, target.position⟩ :: marksOption value
  | conditional form condition body position =>
      ⟨.keyword, form.keyword, position⟩ ::
        (marksOption condition ++ marksOption body)
  | result value position =>
      ⟨.keyword, "return", position⟩ :: marksOption value
  | binary operator left right position =>
      left.marks ++ ⟨.operator, operator.symbol, position⟩ :: right.marks
  | identifier text position => [⟨.identifier, text, position⟩]
  | literal text position => [⟨.literal, text, position⟩]

def marksAll : List Node → List Mark
  | [] => []
  | node :: rest => node.marks ++ marksAll rest

def marksOption : Option Node → List Mark
  | none => []
  | some node => node.marks

end

theorem marksAll_toList_append (first : Option Node) (others : List Node) :
    marksAll (first.toList ++ others) = marksOption first ++ marksAll others := by
  cases first <;> rfl

end Node

/-- A token that may be left out where `rest` follows: none that is an
identifier, and no keyword that starts a conditional or a return statement or
that names the type of an identifier after it. -/
def Token.Omissible (token : Token) (rest : List Token) : Prop :=
  token.kind ≠ .identifier ∧
    (token.kind = .keyword →
      token.text ∉ ["if", "while", "return"] ∧
        (token.text ∈ ["int", "float", "double", "char"] →
          ∀ next ∈ rest.head?, next.kind ≠ .identifier))

/-- The marks are those of the tokens from `first` up to `last`, except that
omissible tokens may be left out. -/
inductive Accounts : (first : List Token) → List Mark → (last : List Token) →
    Prop where
  | refl (tokens : List Token) : Accounts tokens [] tokens
  | kept (token : Token) {rest last : List Token} {marks : List Mark}
      (hrest : Accounts rest marks last) :
      Accounts (token :: rest) (token.mark :: marks) last
  | omitted (token : Token) {rest last : List Token} {marks : List Mark}
      (homissible : token.Omissible rest) (hrest : Accounts rest marks last) :
      Accounts (token :: rest) marks last

namespace Accounts

theorem trans {first middle last : List Token} {marks others : List Mark}
    (hmarks : Accounts first marks middle)
    (hothers : Accounts middle others last) :
    Accounts first (marks ++ others) last := by
  induction hmarks with
  | refl tokens => exact hothers
  | kept token hrest ih => exact .kept token (ih hothers)
  | omitted token homissible hrest ih => exact .omitted token homissible (ih hothers)

theorem sublist {first last : List Token} {marks : List Mark}
    (hmarks : Accounts first marks last) :
    (marks ++ last.map Token.mark).Sublist (first.map Token.mark) := by
  induction hmarks with
  | refl tokens => exact List.Sublist.refl _
  | kept token hrest ih => exact ih.cons_cons token.mark
  | omitted token homissible hrest ih => exact ih.cons token.mark

/-- Identifiers are never left out. -/
theorem identifiers {first last : List Token} {marks : List Mark}
    (hmarks : Accounts first marks last) :
    (first.filter fun token => token.kind = .identifier).map Token.mark =
      (marks.filter fun mark => mark.kind = .identifier) ++
        (last.filter fun token => token.kind = .identifier).map
          Token.mark := by
  induction hmarks with
  | refl tokens => rfl
  | kept token hrest ih =>
      by_cases hkind : token.kind = .identifier
      · simp [hkind, Token.mark] at ih ⊢
        exact ih
      · simp [hkind, Token.mark] at ih ⊢
        exact ih
  | omitted token homissible hrest ih =>
      simpa [homissible.1] using ih

theorem skip (cursor : Cursor) (kind : Token.Kind) (text : String)
    (hkind : kind ≠ .identifier) (hkind' : kind ≠ .keyword) :
    Accounts cursor.rest [] (cursor.skip kind text).rest := by
  obtain ⟨rest, budget⟩ := cursor
  cases rest with
  | nil => exact .refl []
  | cons token rest =>
      by_cases hsees : token.is kind text = true
      · have htoken : token.kind = kind := by
          simp only [Token.is, Bool.and_eq_true, beq_iff_eq] at hsees
          exact hsees.1
        simp only [Cursor.skip, Cursor.sees_cons, hsees, if_true]
        subst htoken
        exact .omitted token ⟨hkind, fun hkeyword => absurd hkeyword hkind'⟩
          (.refl rest)
      · simp only [Cursor.skip, Cursor.sees_cons, hsees]
        exact .refl _

end Accounts

namespace Reading

theorem Expression.accounts {cursor after : Cursor} {node : Option Node}
    (hread : Expression cursor node after) :
    Accounts cursor.rest (Node.marksOption node) after.rest := by
  induction hread with
  | absent cursor => exact .refl cursor.rest
  | literal text position rest budget => exact .kept _ (.refl rest)
  | identifier text position rest budget => exact .kept _ (.refl rest)
  | group position hinner ih =>
      have hclosing := ih.trans (.skip _ .delimiter ")" (by simp) (by simp))
      rw [List.append_nil] at hclosing
      exact .omitted _ ⟨by simp, by simp⟩ hclosing
  | joined operator position hleft hright ihleft ihright =>
      exact ihleft.trans (.kept _ ihright)
  | dangling operator position hleft hright ihleft ihright =>
      have hdropped := ihleft.trans (.omitted _ ⟨by simp, by simp⟩ ihright)
      simpa [Node.marksOption] using hdropped

/-- What stands after an expression and its closing sign is accounted for, if
the expression is. -/
theorem Expression.accounts_skip {cursor after : Cursor} {node : Option Node}
    (hread : Expression cursor node after) (text : String) :
    Accounts cursor.rest (Node.marksOption node)
      (after.skip .delimiter text).rest := by
  have hclosed := hread.accounts.trans
    (.skip after .delimiter text (by simp) (by simp))
  rwa [List.append_nil] at hclosed

theorem omissible_unnamed (ty : Ty) (position : Position) {rest : List Token}
    (hnext : ∀ token ∈ rest.head?, token.kind ≠ .identifier) :
    Token.Omissible ⟨.keyword, ty.name, position⟩ rest := by
  refine ⟨by simp, fun _ => ⟨?_, fun _ => hnext⟩⟩
  change ty.name ∉ _
  cases ty <;> decide

theorem Statement.accounts {Body : Cursor → Option Node → Cursor → Prop}
    (hbodies : ∀ cursor content last, Body cursor content last →
      Accounts cursor.rest (Node.marksOption content) last.rest)
    {cursor after : Cursor} {node : Option Node}
    (hread : Statement Body cursor node after) :
    Accounts cursor.rest (Node.marksOption node) after.rest := by
  cases hread with
  | ended budget => exact .refl []
  | stray token rest budget hkind htext =>
      refine .omitted token ⟨hkind, fun hkeyword => ?_⟩ (.refl rest)
      have hleading := htext hkeyword
      rw [Token.leading, List.mem_append, not_or] at hleading
      exact ⟨hleading.2, fun htype => absurd htype hleading.1⟩
  | unnamed ty position rest budget hnext =>
      exact .omitted _ (omissible_unnamed ty position hnext) (.refl rest)
  | declaration ty hty position name place rest budget =>
      exact .kept _ (.kept _
        (.skip ⟨rest, budget⟩ .delimiter ";" (by simp) (by simp)))
  | initialized ty hty position name place sign budget hvalue =>
      exact .kept _ (.kept _ (.omitted _ ⟨by simp, by simp⟩
        (hvalue.accounts_skip ";")))
  | assignment target position rest budget hvalue =>
      have hsign := Accounts.skip ⟨rest, budget⟩ .operator "="
        (by simp) (by simp)
      exact .kept _ (hsign.trans (hvalue.accounts_skip ";"))
  | conditional form position rest budget hcondition hbody =>
      have hopening := Accounts.skip ⟨rest, budget⟩ .delimiter "("
        (by simp) (by simp)
      have hparts := (hcondition.accounts_skip ")").trans
        (hbodies _ _ _ hbody)
      exact .kept _ (hopening.trans hparts)
  | bare position rest budget =>
      exact .kept _ (.skip ⟨rest, budget⟩ .delimiter ";" (by simp) (by simp))
  | result position budget hvalue =>
      exact .kept _ (hvalue.accounts_skip ";")

theorem Sequence.accounts {Step : Cursor → Option Node → Cursor → Prop}
    (hsteps : ∀ cursor node after, Step cursor node after →
      Accounts cursor.rest (Node.marksOption node) after.rest)
    {cursor last : Cursor} {statements : List Node}
    (hread : Sequence Step cursor statements last) :
    Accounts cursor.rest (Node.marksAll statements) last.rest := by
  induction hread with
  | done cursor => exact .refl cursor.rest
  | next hfirst hothers ih =>
      rw [Node.marksAll_toList_append]
      exact (hsteps _ _ _ hfirst).trans ih

theorem Body.accounts {Step : Cursor → Option Node → Cursor → Prop}
    (hsteps : ∀ cursor node after, Step cursor node after →
      Accounts cursor.rest (Node.marksOption node) after.rest)
    {cursor last : Cursor} {content : Option Node}
    (hread : Body Step cursor content last) :
    Accounts cursor.rest (Node.marksOption content) last.rest := by
  cases hread with
  | single hstatement => exact hsteps _ _ _ hstatement
  | block position hstatements =>
      have hclosed := (hstatements.accounts hsteps).trans
        (.skip _ .delimiter "\x7d" (by simp) (by simp))
      rw [List.append_nil] at hclosed
      exact .kept _ hclosed

theorem Within.accounts {room : Nat} {cursor after : Cursor}
    {node : Option Node} (hread : Within room cursor node after) :
    Accounts cursor.rest (Node.marksOption node) after.rest := by
  induction room generalizing cursor node after with
  | zero =>
      apply Statement.accounts _ hread
      rintro cursor content last ⟨rfl, rfl⟩
      exact .refl last.rest
  | succ room ih =>
      apply Statement.accounts _ hread
      intro cursor content last hbody
      exact hbody.accounts fun cursor node after => ih

end Reading

/-- The tree accounts for all tokens that are no comments. -/
theorem parse_accounts (tokens : List Token) :
    Accounts (withoutComments tokens) (parse tokens).marks [] := by
  have hread := (Reading.program_covered
    ⟨withoutComments tokens, maxExpressionNodes⟩).accounts
      fun cursor node after => Reading.Within.accounts
  rwa [Reading.program_rest_eq_nil] at hread

/-- Parsing invents, repeats, reorders and loses no token that means something:
for any tokens, the tree stands for a part of those that are no comments, in
their order, only omissible ones are left out, and among the identifiers none
is. -/
theorem parse_conserves_tokens (tokens : List Token) :
    (parse tokens).marks.Sublist
        ((tokens.filter fun token => token.kind ≠ .comment).map Token.mark) ∧
      Accounts (tokens.filter fun token => token.kind ≠ .comment)
        (parse tokens).marks [] ∧
      ((parse tokens).marks.filter fun mark => mark.kind = .identifier) =
        (tokens.filter fun token => token.kind = .identifier).map
          Token.mark := by
  have haccounts := parse_accounts tokens
  rw [← withoutComments_eq_filter]
  refine ⟨?_, haccounts, ?_⟩
  · simpa using haccounts.sublist
  · have hidentifiers := haccounts.identifiers
    rw [List.filter_nil, List.map_nil, List.append_nil] at hidentifiers
    rw [← hidentifiers, withoutComments, List.filter_filter]
    congr 1
    apply List.filter_congr
    intro token _
    cases hkind : token.kind <;> simp

end ThreeAddress
