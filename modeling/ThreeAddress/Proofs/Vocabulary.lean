import ThreeAddress.Instruction.Lowering
import ThreeAddress.Proofs.Lexeme

/-!
The texts of tokens and of operands.  The class of a token can be told from its
text as far as names go: identifiers have the syntax of words, and a literal has
it only when it is one of the two words that are literals.  Temporaries are
names too, each with a number of its own.
-/

namespace ThreeAddress

/-- Whether a text has the syntax of an identifier. -/
def isWord (text : String) : Bool :=
  match text.toList with
  | [] => false
  | first :: rest => isWordStart first && rest.all isWordPart

theorem isWord_ofList_cons (first : Char) (rest : List Char) :
    isWord (String.ofList (first :: rest)) =
      (isWordStart first && rest.all isWordPart) := by
  simp [isWord]

theorem isWordStart_of_isDigit {character : Char}
    (hdigit : character.isDigit = true) : isWordStart character = false := by
  have hcodes : ∀ code < 58, 48 ≤ code →
      isWordStart (Char.ofNat code) = false := by decide
  simp only [Char.isDigit, Bool.and_eq_true, decide_eq_true_eq, ge_iff_le,
    UInt32.le_iff_toNat_le] at hdigit
  change 48 ≤ character.toNat ∧ character.toNat ≤ 57 at hdigit
  rw [← Char.ofNat_toNat character]
  exact hcodes character.toNat (by omega) hdigit.1

theorem isWordStart_of_isQuote {character : Char}
    (hquote : isQuote character = true) : isWordStart character = false := by
  simp only [isQuote, Bool.or_eq_true, beq_iff_eq] at hquote
  rcases hquote with rfl | rfl <;> decide

/-- Every token of a line is the lexeme at its place. -/
theorem exists_lexeme_of_mem_scanLine {line column : Nat}
    {characters : List Char} {token : Token}
    (hmem : token ∈ scanLine line column characters) :
    ∃ offset first rest extra, token.position = ⟨line, column + offset⟩ ∧
      characters.drop offset = first :: rest ∧
      lexeme? first rest = some ⟨token.kind, extra⟩ ∧
      token.text = String.ofList (first :: rest.take extra) := by
  fun_induction scanLine line column characters with
  | case1 => simp at hmem
  | case2 column first rest hlexeme ih =>
      obtain ⟨offset, other, others, extra, hposition, hrest⟩ := ih hmem
      refine ⟨offset + 1, other, others, extra, ?_, hrest⟩
      rw [hposition, Nat.add_assoc, Nat.add_comm 1]
  | case3 column first rest kind extra hlexeme ih =>
      rcases List.mem_cons.mp hmem with rfl | hmem
      · exact ⟨0, first, rest, extra, rfl, rfl, hlexeme, rfl⟩
      · obtain ⟨offset, other, others, more, hposition, hdrop, hrest⟩ := ih hmem
        refine ⟨offset + extra + 1, other, others, more, ?_, ?_, hrest⟩
        · rw [hposition, Position.mk.injEq]
          omega
        · rw [List.drop_succ_cons, ← hdrop, List.drop_drop, Nat.add_comm]

theorem exists_lexeme_of_mem_tokenize {source : String} {token : Token}
    (hmem : token ∈ tokenize source) :
    ∃ first rest extra, lexeme? first rest = some ⟨token.kind, extra⟩ ∧
      token.text = String.ofList (first :: rest.take extra) := by
  rw [tokenize] at hmem
  generalize lines source.toList = lines at hmem
  generalize 1 = number at hmem
  induction lines generalizing number with
  | nil => simp [scanLines] at hmem
  | cons line following ih =>
      rcases List.mem_append.mp hmem with hline | hfollowing
      · obtain ⟨_, first, rest, extra, _, _, hlexeme⟩ :=
          exists_lexeme_of_mem_scanLine hline
        exact ⟨first, rest, extra, hlexeme⟩
      · exact ih (number + 1) hfollowing

theorem wordKind_eq_identifier_iff {word : String} :
    wordKind word = .identifier ↔ word ∉ keywords ∧ word ∉ booleanWords := by
  simp only [wordKind]
  split
  · simp_all
  · split <;> simp_all

theorem mem_booleanWords_of_wordKind {word : String}
    (hkind : wordKind word = .literal) : word ∈ booleanWords := by
  simp only [wordKind] at hkind
  split at hkind
  · contradiction
  · split at hkind
    · assumption
    · contradiction

theorem take_length_takeWhile {α : Type} (keep : α → Bool) (items : List α) :
    items.take (items.takeWhile keep).length = items.takeWhile keep :=
  (List.prefix_iff_eq_take.mp (List.takeWhile_prefix keep)).symm

/-- A lexeme that names or states a value: an identifier is a word that is
neither reserved nor a literal, and a literal is no word unless it is one of the
words that are literals. -/
theorem lexeme?_word {first : Char} {rest : List Char} {kind : Token.Kind}
    {extra : Nat} (hlexeme : lexeme? first rest = some ⟨kind, extra⟩) :
    let text := String.ofList (first :: rest.take extra)
    (kind = .identifier →
      isWord text = true ∧ text ∉ keywords ∧ text ∉ booleanWords) ∧
      (kind = .literal → isWord text = true → text ∈ booleanWords) := by
  intro text
  cases lexes_of_eq hlexeme with
  | comment hfirst hnext => exact ⟨by simp, by simp⟩
  | pair second hnext hpair => exact ⟨by simp, by simp⟩
  | quoted hquote =>
      refine ⟨by simp, fun _ hword => ?_⟩
      rw [isWord_ofList_cons, isWordStart_of_isQuote hquote] at hword
      contradiction
  | number hdigit =>
      refine ⟨by simp, fun _ hword => ?_⟩
      rw [isWord_ofList_cons, isWordStart_of_isDigit hdigit] at hword
      contradiction
  | word hstart =>
      simp only [text, take_length_takeWhile]
      constructor
      · intro hkind
        refine ⟨?_, wordKind_eq_identifier_iff.mp hkind⟩
        rw [isWord_ofList_cons, hstart, List.all_takeWhile, Bool.and_true]
      · intro hkind _
        exact mem_booleanWords_of_wordKind hkind
  | sign hsign hcomment hpair => exact ⟨by simp, by simp⟩
  | delimiter hdelimiter => exact ⟨by simp, by simp⟩

/-- Whether an operand is the name of a variable or of a temporary, and not a
literal. -/
def isName (text : String) : Bool :=
  isWord text && !booleanWords.contains text

theorem isName_of_identifier {source : String} {token : Token}
    (hmem : token ∈ tokenize source) (hkind : token.kind = .identifier) :
    isName token.text = true := by
  obtain ⟨first, rest, extra, hlexeme, htext⟩ :=
    exists_lexeme_of_mem_tokenize hmem
  obtain ⟨hword, _, hboolean⟩ := (lexeme?_word hlexeme).1 hkind
  rw [← htext] at hword hboolean
  simp [isName, hword, hboolean]

theorem isName_of_literal {source : String} {token : Token}
    (hmem : token ∈ tokenize source) (hkind : token.kind = .literal) :
    isName token.text = false := by
  obtain ⟨first, rest, extra, hlexeme, htext⟩ :=
    exists_lexeme_of_mem_tokenize hmem
  have hboolean := (lexeme?_word hlexeme).2 hkind
  rw [← htext] at hboolean
  cases hword : isWord token.text with
  | false => simp [isName, hword]
  | true => simp [isName, hboolean hword]

/-- Whether a text is a `t` with one or more digits after it. -/
def isTemporary (text : String) : Bool :=
  match text.toList with
  | 't' :: digits => Ty.isDigits digits
  | _ => false

theorem toList_temporary (number : Nat) :
    (temporary number).toList = 't' :: Nat.toDigits 10 number := by
  rw [temporary, String.toList_append, Nat.toList_repr]
  rfl

theorem isDigit_of_mem_toDigits {number : Nat} {character : Char}
    (hmem : character ∈ Nat.toDigits 10 number) : character.isDigit = true :=
  Nat.isDigit_of_mem_toDigits (by decide) (by decide) hmem

theorem isTemporary_temporary (number : Nat) :
    isTemporary (temporary number) = true := by
  have hdigits : ∀ character ∈ Nat.toDigits 10 number,
      character.isDigit = true := fun _ => isDigit_of_mem_toDigits
  simpa [isTemporary, toList_temporary, Ty.isDigits, Nat.toDigits_ne_nil]
    using hdigits

theorem repr_injective {first second : Nat} (heq : first.repr = second.repr) :
    first = second := by
  have hdigits : Nat.toDigits 10 first = Nat.toDigits 10 second := by
    rw [← Nat.toList_repr, heq, Nat.toList_repr]
  calc first = Nat.ofDigitChars 10 (Nat.toDigits 10 first) 0 :=
        Nat.ofDigitChars_ten_toDigits.symm
    _ = Nat.ofDigitChars 10 (Nat.toDigits 10 second) 0 := by rw [hdigits]
    _ = second := Nat.ofDigitChars_ten_toDigits

theorem temporary_injective {first second : Nat}
    (heq : temporary first = temporary second) : first = second :=
  repr_injective ((String.append_right_inj "t").mp heq)

theorem isName_temporary (number : Nat) :
    isName (temporary number) = true := by
  have hword : isWord (temporary number) = true := by
    simp only [isWord, toList_temporary, Bool.and_eq_true, List.all_eq_true]
    exact ⟨rfl, fun character hmem => by
      simp [isWordPart, isDigit_of_mem_toDigits hmem]⟩
  have hboolean : temporary number ∉ booleanWords := by
    intro hmem
    have htemporary := isTemporary_temporary number
    simp only [booleanWords, List.mem_cons, List.not_mem_nil,
      or_false] at hmem
    rcases hmem with htrue | hfalse
    · rw [htrue] at htemporary
      contradiction
    · rw [hfalse] at htemporary
      contradiction
  simp [isName, hword, hboolean]

end ThreeAddress
