import ThreeAddress.Token.Lexer

/-!
The rules for the head of a line, one by one.  `lexeme?` tries them in order;
here each stands with what decides that it is the one, so that what holds of
lexemes is told rule by rule.
-/

namespace ThreeAddress

/-- A character that means something to the language: a letter, a digit, an
underscore, a quote, or the sign of an operator or a delimiter. -/
def isSignificant (character : Char) : Bool :=
  character.isAlpha || character.isDigit || character == '_' ||
    isQuote character || operatorSigns.contains character ||
    delimiterSigns.contains character

/-- What stands at the head of a line that starts with `first` and goes on with
`rest`.  Of the rules for tokens only that of single signs needs to know that
the others do not apply. -/
inductive Lexes (first : Char) (rest : List Char) : Option Lexeme → Prop where
  | blank (hblank : isBlank first = true) : Lexes first rest none
  | comment (hfirst : first = '/') (hnext : rest.head? = some '/') :
      Lexes first rest (some ⟨.comment, rest.length⟩)
  | pair (second : Char) (hnext : rest.head? = some second)
      (hpair : (first, second) ∈ operatorPairs) :
      Lexes first rest (some ⟨.operator, 1⟩)
  | quoted (hquote : isQuote first = true) :
      Lexes first rest (some ⟨.literal, quotedLength first rest⟩)
  | number (hdigit : first.isDigit = true) :
      Lexes first rest
        (some ⟨.literal, (rest.takeWhile isNumberPart).length⟩)
  | word (hstart : isWordStart first = true) :
      Lexes first rest
        (some ⟨wordKind (String.ofList (first :: rest.takeWhile isWordPart)),
          (rest.takeWhile isWordPart).length⟩)
  | sign (hsign : first ∈ operatorSigns)
      (hcomment : ¬(first = '/' ∧ rest.head? = some '/'))
      (hpair : ∀ second ∈ rest.head?, (first, second) ∉ operatorPairs) :
      Lexes first rest (some ⟨.operator, 0⟩)
  | delimiter (hdelimiter : first ∈ delimiterSigns) :
      Lexes first rest (some ⟨.delimiter, 0⟩)
  | unknown (hunknown : isSignificant first = false) : Lexes first rest none

/-- One of the rules applies. -/
theorem lexeme?_lexes (first : Char) (rest : List Char) :
    Lexes first rest (lexeme? first rest) := by
  unfold lexeme?
  split
  · exact .blank ‹_›
  split
  · rename_i hslashes
    exact .comment hslashes.1 hslashes.2
  split
  · rename_i hpair
    obtain ⟨second, hnext, hmem⟩ := (Option.any_eq_true _ _).mp hpair
    exact .pair second hnext (of_decide_eq_true hmem)
  split
  · exact .quoted ‹_›
  split
  · exact .number ‹_›
  split
  · exact .word ‹_›
  split
  · rename_i hcomment hpair _ _ _ hsign
    refine .sign hsign hcomment fun second hnext hmem => hpair ?_
    exact (Option.any_eq_true _ _).mpr ⟨second, hnext, decide_eq_true hmem⟩
  split
  · exact .delimiter ‹_›
  · rename_i hquote hdigit hstart hsign hdelimiter
    simp only [isWordStart, Bool.or_eq_true, not_or] at hstart
    apply Lexes.unknown
    simp [isSignificant, hquote, hdigit, hstart, hsign, hdelimiter]

theorem lexes_of_eq {first : Char} {rest : List Char} {found : Option Lexeme}
    (hfound : lexeme? first rest = found) : Lexes first rest found :=
  hfound ▸ lexeme?_lexes first rest

theorem quotedLength_le_length (quote : Char) (rest : List Char) :
    quotedLength quote rest ≤ rest.length := by
  fun_induction quotedLength quote rest with
  | case1 => exact Nat.le_refl 0
  | case2 => exact Nat.le_refl 1
  | case3 escaped rest ih => simpa using ih
  | case4 rest => simp
  | case5 character rest _ _ hne ih => simpa using ih

/-- A lexeme ends within its line. -/
theorem Lexes.extra_le {first : Char} {rest : List Char} {kind : Token.Kind}
    {extra : Nat} (hlexes : Lexes first rest (some ⟨kind, extra⟩)) :
    extra ≤ rest.length := by
  cases hlexes with
  | comment hfirst hnext => exact Nat.le_refl rest.length
  | pair second hnext hpair =>
      obtain ⟨tail, rfl⟩ := List.head?_eq_some_iff.mp hnext
      simp
  | quoted hquote => exact quotedLength_le_length first rest
  | number hdigit => exact (List.takeWhile_prefix isNumberPart).length_le
  | word hstart => exact (List.takeWhile_prefix isWordPart).length_le
  | sign hsign hcomment hpair => exact Nat.zero_le rest.length
  | delimiter hdelimiter => exact Nat.zero_le rest.length

end ThreeAddress
