import ThreeAddress.Proofs.LongestMatch

/-!
The type of a literal in single quotes.  The scanner reads the literal from the
left and takes every backslash along with what it escapes, and so knows where
the literal is closed; the type is told from the first and the last character
alone.  The two agree on all literals that are closed, and on those that only
the end of the line ends unless an escaped quote is the last that they hold.
-/

namespace ThreeAddress

/-- A text in single quotes: the body between them closes nothing. -/
def Encloses (text body : List Char) : Prop :=
  QuotedBody '\'' body ∧ text = '\'' :: (body ++ ['\''])

/-- A text that a single quote opens, and that ends with a backslash and the
quote that it escapes. -/
def EndsEscaped (text : List Char) : Prop :=
  ∃ body, QuotedBody '\'' body ∧ text = '\'' :: (body ++ ['\\', '\''])

/-- Where the quote is the last character of a body, a backslash escapes it. -/
theorem QuotedBody.exists_of_getLast? {quote : Char} {body : List Char}
    (hbody : QuotedBody quote body) (hlast : body.getLast? = some quote) :
    ∃ inner, QuotedBody quote inner ∧ body = inner ++ ['\\', quote] := by
  induction hbody with
  | nil => contradiction
  | @escaped character rest hrest ih =>
      rcases rest with _ | ⟨next, others⟩
      · obtain rfl : character = quote := by simpa using hlast
        exact ⟨[], .nil, rfl⟩
      · obtain ⟨inner, hinner, heq⟩ := ih (by simpa using hlast)
        exact ⟨'\\' :: character :: inner, .escaped character hinner,
          by simp [heq]⟩
  | @plain character hescape hquote rest hrest ih =>
      rcases rest with _ | ⟨next, others⟩
      · exact absurd (by simpa using hlast) hquote
      · obtain ⟨inner, hinner, heq⟩ := ih (by simpa using hlast)
        exact ⟨character :: inner, .plain hescape hquote hinner, by simp [heq]⟩

/-- A text that ends with an escaped quote is not closed: with two more quotes
after it, the first of them would be a character of the literal. -/
theorem EndsEscaped.not_encloses {text : List Char} (hends : EndsEscaped text)
    (body : List Char) : ¬Encloses text body := by
  rintro ⟨hbody, rfl⟩
  obtain ⟨inner, hinner, heq⟩ := hends
  have hsplit : body ++ ['\''] = (inner ++ ['\\']) ++ ['\''] := by
    simpa using heq
  obtain rfl := (List.append_left_inj _).mp hsplit
  have hshort := hbody.quotedLength_append ['\'', '\'']
  have hlong := hinner.quotedLength_append ['\\', '\'', '\'']
  rw [List.append_assoc, List.singleton_append, hlong] at hshort
  simp [quotedLength] at hshort

/-- From a single quote on, the last character decides the type. -/
theorem Ty.ofLiteral_of_quote {literal : String} {rest : List Char}
    (htext : literal.toList = '\'' :: rest) :
    Ty.ofLiteral literal =
      if 2 ≤ rest.length ∧ rest.getLast? = some '\'' then .char
      else .unknown := by
  have hbool : ¬(literal = "true" ∨ literal = "false") := by
    rintro (rfl | rfl) <;> simp at htext
  have hdigits : Ty.isDigits ('\'' :: rest) = false := by
    simp [Ty.isDigits]
  have hdecimal : Ty.isDecimal ('\'' :: rest) = false := by
    simp only [Ty.isDecimal]
    split
    · rfl
    · simp [Ty.isDigits]
  simp only [Ty.ofLiteral, htext, if_neg hbool, hdigits, hdecimal]
  rcases rest with _ | ⟨next, others⟩
  · simp
  · simp

/-- A literal in single quotes is of type `char`, unless nothing stands between
the quotes. -/
theorem Encloses.ofLiteral_eq {literal : String} {body : List Char}
    (hencloses : Encloses literal.toList body) :
    Ty.ofLiteral literal = if body = [] then .unknown else .char := by
  rw [Ty.ofLiteral_of_quote hencloses.2]
  rcases body with _ | ⟨first, others⟩
  · rfl
  · rw [if_pos ⟨by simp, List.getLast?_concat⟩, if_neg (List.cons_ne_nil _ _)]

/-- A single quote opens a text that is closed, or that takes all that follows on
the line, perhaps with a last backslash that has nothing to escape. -/
theorem encloses_or_take_eq (rest : List Char) :
    (∃ body, Encloses ('\'' :: rest.take (quotedLength '\'' rest)) body) ∨
      rest.take (quotedLength '\'' rest) = rest ∧
        ∃ body, QuotedBody '\'' body ∧ (rest = body ∨ rest = body ++ ['\\']) := by
  obtain ⟨body, tail, hbody, rfl, htail⟩ := quotedBody_split '\'' rest
  rw [hbody.quotedLength_append, List.take_length_add_append]
  rcases htail with rfl | rfl | ⟨following, rfl⟩
  · exact Or.inr ⟨by simp, body, hbody, Or.inl (List.append_nil body)⟩
  · exact Or.inr ⟨by simp [quotedLength], body, hbody, Or.inr rfl⟩
  · exact Or.inl ⟨body, hbody, by simp [quotedLength]⟩

theorem EndsEscaped.ofLiteral_eq {literal : String}
    (hends : EndsEscaped literal.toList) : Ty.ofLiteral literal = .char := by
  obtain ⟨body, -, htext⟩ := hends
  simp [Ty.ofLiteral_of_quote htext]

/-- A text that nothing closes is of type `char` only if an escaped quote ends
it. -/
theorem endsEscaped_of_ofLiteral_eq {literal : String} {rest body : List Char}
    (htext : literal.toList = '\'' :: rest) (hbody : QuotedBody '\'' body)
    (hrest : rest = body ∨ rest = body ++ ['\\'])
    (hchar : Ty.ofLiteral literal = .char) : EndsEscaped literal.toList := by
  have hlast : rest.getLast? = some '\'' := by
    rw [Ty.ofLiteral_of_quote htext] at hchar
    simp only [ite_eq_left_iff, reduceCtorEq, imp_false, Classical.not_not]
      at hchar
    exact hchar.2
  rcases hrest with rfl | rfl
  · obtain ⟨inner, hinner, rfl⟩ := hbody.exists_of_getLast? hlast
    exact ⟨inner, hinner, htext⟩
  · simp at hlast

/-- The type of a literal that a single quote opens is `char` exactly if the
literal is closed with something between its quotes, or is not closed and ends
with an escaped quote; otherwise it is unknown.  What is not closed ends with its
line. -/
theorem tokenize_single_quoted_type (source : String) (token : Token)
    (hmem : token ∈ tokenize source)
    (hquote : token.text.toList.head? = some '\'') :
    (Ty.ofLiteral token.text = .char ↔
      (∃ body, body ≠ [] ∧ Encloses token.text.toList body) ∨
        EndsEscaped token.text.toList) ∧
    (Ty.ofLiteral token.text ≠ .char → Ty.ofLiteral token.text = .unknown) ∧
    (EndsEscaped token.text.toList → ∀ body, ¬Encloses token.text.toList body) ∧
    ((∀ body, ¬Encloses token.text.toList body) →
      ∃ row index characters, token.position = ⟨row + 1, index + 1⟩ ∧
        (lines source.toList)[row]? = some characters ∧
        characters.drop index = token.text.toList) := by
  obtain ⟨row, characters, hrow, hmem⟩ := mem_scanLines_iff.mp hmem
  obtain ⟨index, first, rest, extra, hposition, hdrop, hlexeme, htoken⟩ :=
    exists_lexeme_of_mem_scanLine hmem
  obtain rfl : first = '\'' := by simpa [htoken] using hquote
  have hscan : lexeme? '\'' rest = some ⟨.literal, quotedLength '\'' rest⟩ :=
    Lexes.lexeme?_eq (.quoted rfl)
  obtain ⟨-, rfl⟩ : token.kind = .literal ∧ extra = quotedLength '\'' rest := by
    simpa using hlexeme.symm.trans hscan
  have htext : token.text.toList =
      '\'' :: rest.take (quotedLength '\'' rest) := by
    rw [htoken, String.toList_ofList]
  have hread := encloses_or_take_eq rest
  rw [← htext] at hread
  constructor
  · constructor
    · intro hchar
      rcases hread with ⟨body, hencloses⟩ | ⟨htake, body, hbody, hrest⟩
      · rw [hencloses.ofLiteral_eq] at hchar
        exact Or.inl ⟨body, by rintro rfl; contradiction, hencloses⟩
      · rw [htake] at htext
        exact Or.inr (endsEscaped_of_ofLiteral_eq htext hbody hrest hchar)
    · rintro (⟨body, hne, hencloses⟩ | hends)
      · rw [hencloses.ofLiteral_eq, if_neg hne]
      · exact hends.ofLiteral_eq
  constructor
  · rw [Ty.ofLiteral_of_quote htext]
    intro hother
    rw [if_neg]
    exact fun hends => hother (if_pos hends)
  constructor
  · exact EndsEscaped.not_encloses
  · intro hopen
    rcases hread with ⟨body, hencloses⟩ | ⟨htake, -⟩
    · exact absurd hencloses (hopen body)
    · rw [htake] at htext
      rw [Nat.add_comm 1, Nat.add_comm 1] at hposition
      exact ⟨row, index, characters, hposition, hrow, hdrop.trans htext.symm⟩

/-- Of two backslashes the first escapes the second, and the quote after them
closes the literal. -/
theorem tokenize_single_quoted_type_of_backslash :
    let source := "x='\\\\'+'\\'"
    let token : Token := ⟨.literal, "'\\\\'", ⟨1, 3⟩⟩
    token ∈ tokenize source ∧ token.text.toList.head? = some '\'' ∧
      Ty.ofLiteral token.text = .char := by
  intro source token
  have hmem : token ∈ tokenize source := by decide +kernel
  have hquote : token.text.toList.head? = some '\'' := by decide
  have hencloses : Encloses token.text.toList ['\\', '\\'] :=
    ⟨.escaped '\\' .nil, by decide⟩
  have hchar := (tokenize_single_quoted_type source token hmem hquote).1
  exact ⟨hmem, hquote, hchar.mpr (Or.inl ⟨_, List.cons_ne_nil _ _, hencloses⟩)⟩

/-- A literal that nothing closes may be of type `char` all the same. -/
theorem ofLiteral_char_of_unclosed :
    let token : Token := ⟨.literal, "'a\\'", ⟨1, 1⟩⟩
    tokenize "'a\\'" = [token] ∧ (∀ body, ¬Encloses token.text.toList body) ∧
      Ty.ofLiteral token.text = .char := by
  intro token
  have hends : EndsEscaped token.text.toList :=
    ⟨['a'], .plain (by decide) (by decide) .nil, by decide⟩
  exact ⟨by decide +kernel, hends.not_encloses, hends.ofLiteral_eq⟩

end ThreeAddress
