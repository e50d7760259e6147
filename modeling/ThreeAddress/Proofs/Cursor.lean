import ThreeAddress.Node.Parser

/-!
The tokens that start a statement or join two operands, and how a cursor sees
and passes them.
-/

namespace ThreeAddress

theorem Operator.ofSymbol?_symbol (operator : Operator) :
    Operator.ofSymbol? operator.symbol = some operator := by
  cases operator <;> rfl

theorem Operator.symbol_of_ofSymbol? {text : String} {operator : Operator}
    (hfound : Operator.ofSymbol? text = some operator) :
    operator.symbol = text := by
  have hsymbol := List.find?_some hfound
  simpa using hsymbol

theorem Token.is_iff {token : Token} {kind : Token.Kind} {text : String} :
    token.is kind text = true ↔ token.kind = kind ∧ token.text = text := by
  simp [Token.is]

namespace Cursor

@[simp] theorem advance_cons (token : Token) (rest : List Token)
    (budget : Nat) : advance ⟨token :: rest, budget⟩ = ⟨rest, budget⟩ :=
  rfl

@[simp] theorem sees_cons (token : Token) (rest : List Token) (budget : Nat)
    (kind : Token.Kind) (text : String) :
    sees ⟨token :: rest, budget⟩ kind text = token.is kind text :=
  rfl

@[simp] theorem skip_cons_self (kind : Token.Kind) (text : String)
    (position : Position) (rest : List Token) (budget : Nat) :
    skip ⟨⟨kind, text, position⟩ :: rest, budget⟩ kind text =
      ⟨rest, budget⟩ := by
  simp [skip, Token.is]

@[simp] theorem spend?_succ (rest : List Token) (budget : Nat) :
    spend? ⟨rest, budget + 1⟩ = some ⟨rest, budget⟩ :=
  rfl

theorem operator?_eq_some_iff {cursor : Cursor} {operators : List Operator}
    {operator : Operator} {position : Position} :
    cursor.operator? operators = some (operator, position) ↔
      operator ∈ operators ∧ cursor.rest.head? =
        some ⟨.operator, operator.symbol, position⟩ := by
  obtain ⟨rest, budget⟩ := cursor
  cases rest with
  | nil => simp [operator?]
  | cons token rest =>
      obtain ⟨kind, text, place⟩ := token
      simp only [operator?, List.head?_cons, Option.some.injEq,
        Token.mk.injEq]
      constructor
      · intro hsome
        split at hsome
        · rename_i hkind
          split at hsome
          · rename_i found hfound
            split at hsome
            · rename_i hmem
              simp only [Option.some.injEq, Prod.mk.injEq] at hsome
              obtain ⟨rfl, rfl⟩ := hsome
              exact ⟨hmem, hkind, (Operator.symbol_of_ofSymbol? hfound).symm,
                rfl⟩
            · contradiction
          · contradiction
        · contradiction
      · rintro ⟨hmem, rfl, rfl, rfl⟩
        simp [Operator.ofSymbol?_symbol, hmem]

end Cursor

def Ty.declarable : List Ty := [.int, .float, .double, .char]

def Conditional.keyword : Conditional → String
  | .ifThen => "if"
  | .whileLoop => "while"

theorem Ty.ofKeyword?_eq_some_iff {text : String} {ty : Ty} :
    Ty.ofKeyword? text = some ty ↔ ty ∈ Ty.declarable ∧ text = ty.name := by
  constructor
  · intro hsome
    unfold Ty.ofKeyword? at hsome
    split at hsome <;> cases hsome <;> decide
  · rintro ⟨hty, rfl⟩
    simp only [Ty.declarable, List.mem_cons, List.not_mem_nil,
      or_false] at hty
    rcases hty with rfl | rfl | rfl | rfl <;> rfl

namespace Token

theorem opening_declarable {ty : Ty} (hty : ty ∈ Ty.declarable)
    (position : Position) :
    opening ⟨.keyword, ty.name, position⟩ = .declaration ty := by
  have hkeyword := Ty.ofKeyword?_eq_some_iff.mpr ⟨hty, rfl⟩
  simp [opening, hkeyword]

theorem opening_keyword (form : Conditional) (position : Position) :
    opening ⟨.keyword, form.keyword, position⟩ = .conditional form := by
  cases form <;> rfl

/-- The words that start a statement of their own. -/
def leading : List String :=
  Ty.declarable.map Ty.name ++ ["if", "while", "return"]

/-- What each kind of token starts. -/
theorem opening_cases (token : Token) :
    (∃ ty ∈ Ty.declarable, token.opening = .declaration ty ∧
      token = ⟨.keyword, ty.name, token.position⟩) ∨
    (∃ form, token.opening = .conditional form ∧
      token = ⟨.keyword, form.keyword, token.position⟩) ∨
    (token.opening = .result ∧
      token = ⟨.keyword, "return", token.position⟩) ∨
    (token.opening = .assignment ∧ token.kind = .identifier) ∨
    (token.opening = .stray ∧ token.kind ≠ .identifier ∧
      (token.kind = .keyword → token.text ∉ leading)) := by
  obtain ⟨kind, text, position⟩ := token
  cases kind with
  | keyword =>
      cases hty : Ty.ofKeyword? text with
      | some ty =>
          obtain ⟨hmem, rfl⟩ := Ty.ofKeyword?_eq_some_iff.mp hty
          exact Or.inl ⟨ty, hmem, by simp [opening, hty], rfl⟩
      | none =>
          have hty' : ∀ ty ∈ Ty.declarable, ty.name ≠ text := by
            rintro ty hmem rfl
            have hsome := Ty.ofKeyword?_eq_some_iff.mpr ⟨hmem, rfl⟩
            simp [hsome] at hty
          by_cases hif : text = "if"
          · subst hif
            exact Or.inr (Or.inl ⟨.ifThen, rfl, rfl⟩)
          by_cases hwhile : text = "while"
          · subst hwhile
            exact Or.inr (Or.inl ⟨.whileLoop, rfl, rfl⟩)
          by_cases hreturn : text = "return"
          · subst hreturn
            exact Or.inr (Or.inr (Or.inl ⟨rfl, rfl⟩))
          · refine Or.inr (Or.inr (Or.inr (Or.inr ⟨?_, by simp, ?_⟩)))
            · simp [opening, hty, hif, hwhile, hreturn]
            · intro _
              simpa [leading, hif, hwhile, hreturn] using hty'
  | identifier => exact Or.inr (Or.inr (Or.inr (Or.inl ⟨rfl, rfl⟩)))
  | operator => exact Or.inr (Or.inr (Or.inr (Or.inr ⟨rfl, by simp, by simp⟩)))
  | literal => exact Or.inr (Or.inr (Or.inr (Or.inr ⟨rfl, by simp, by simp⟩)))
  | delimiter => exact Or.inr (Or.inr (Or.inr (Or.inr ⟨rfl, by simp, by simp⟩)))
  | comment => exact Or.inr (Or.inr (Or.inr (Or.inr ⟨rfl, by simp, by simp⟩)))

end Token

theorem withoutComments_eq_filter (tokens : List Token) :
    withoutComments tokens =
      tokens.filter fun token => token.kind ≠ .comment := by
  apply List.filter_congr
  intro token _
  by_cases hkind : token.kind = .comment <;> simp [hkind]

end ThreeAddress
