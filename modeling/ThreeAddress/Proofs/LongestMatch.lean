import ThreeAddress.Proofs.Tiling
import ThreeAddress.Proofs.Vocabulary

/-!
Every token is the longest match.  The lexical classes are described by the
texts that belong to them, without the scanner; a comment and a literal that is
not closed belong to theirs only where they reach the end of the line.  The
scanner tries its rules in a fixed order and looks one character ahead, and yet
no class has a longer text where a token starts.
-/

namespace ThreeAddress

inductive LexicalClass where
  | comment
  | operatorPair
  | operatorSign
  | delimiterSign
  | closedQuote
  | openQuote
  | number
  | word
deriving DecidableEq, Repr

/-- The kind of the tokens of a class.  Only words are told apart by their
texts. -/
def LexicalClass.kind : LexicalClass → String → Token.Kind
  | .comment, _ => .comment
  | .operatorPair, _ => .operator
  | .operatorSign, _ => .operator
  | .delimiterSign, _ => .delimiter
  | .closedQuote, _ => .literal
  | .openQuote, _ => .literal
  | .number, _ => .literal
  | .word, text => wordKind text

/-- What may stand after an opening quote without closing the literal:
backslashes, each with the character that it escapes, and characters that are
neither a backslash nor the quote. -/
inductive QuotedBody (quote : Char) : List Char → Prop where
  | nil : QuotedBody quote []
  | escaped (character : Char) {rest : List Char}
      (hrest : QuotedBody quote rest) :
      QuotedBody quote ('\\' :: character :: rest)
  | plain {character : Char} (hescape : character ≠ '\\')
      (hquote : character ≠ quote) {rest : List Char}
      (hrest : QuotedBody quote rest) : QuotedBody quote (character :: rest)

/-- A text belongs to a class when the given characters follow it on its
line. -/
inductive Belongs : LexicalClass → (text following : List Char) → Prop where
  | comment (body : List Char) : Belongs .comment ('/' :: '/' :: body) []
  | operatorPair {first second : Char}
      (hpair : (first, second) ∈ operatorPairs) (following : List Char) :
      Belongs .operatorPair [first, second] following
  | operatorSign {sign : Char} (hsign : sign ∈ operatorSigns)
      (following : List Char) : Belongs .operatorSign [sign] following
  | delimiterSign {sign : Char} (hsign : sign ∈ delimiterSigns)
      (following : List Char) : Belongs .delimiterSign [sign] following
  | closedQuote {quote : Char} (hquote : isQuote quote = true)
      {body : List Char} (hbody : QuotedBody quote body)
      (following : List Char) :
      Belongs .closedQuote (quote :: (body ++ [quote])) following
  | openQuote {quote : Char} (hquote : isQuote quote = true)
      {body : List Char} (hbody : QuotedBody quote body) :
      Belongs .openQuote (quote :: body) []
  | openEscape {quote : Char} (hquote : isQuote quote = true)
      {body : List Char} (hbody : QuotedBody quote body) :
      Belongs .openQuote (quote :: (body ++ ['\\'])) []
  | number {first : Char} (hdigit : first.isDigit = true) {rest : List Char}
      (hrest : ∀ character ∈ rest, isNumberPart character = true)
      (following : List Char) : Belongs .number (first :: rest) following
  | word {first : Char} (hstart : isWordStart first = true)
      {rest : List Char}
      (hrest : ∀ character ∈ rest, isWordPart character = true)
      (following : List Char) : Belongs .word (first :: rest) following

/-! The first character decides between the rules, but for those that start
with the sign of an operator. -/

theorem isBlank_of_code {character : Char} (hlow : 33 ≤ character.toNat)
    (hhigh : character.toNat ≤ 126) : isBlank character = false := by
  simp only [isBlank, Bool.or_eq_false_iff, Bool.and_eq_false_iff,
    decide_eq_false_iff_not, beq_eq_false_iff_ne]
  omega

theorem isBlank_of_isDigit {character : Char}
    (hdigit : character.isDigit = true) : isBlank character = false := by
  simp only [Char.isDigit, Bool.and_eq_true, decide_eq_true_eq, ge_iff_le,
    UInt32.le_iff_toNat_le] at hdigit
  change 48 ≤ character.toNat ∧ character.toNat ≤ 57 at hdigit
  exact isBlank_of_code (by omega) (by omega)

theorem isBlank_of_isWordStart {character : Char}
    (hstart : isWordStart character = true) : isBlank character = false := by
  change ((decide (character.val ≥ 65 ∧ character.val ≤ 90) ||
    decide (character.val ≥ 97) && decide (character.val ≤ 122)) ||
      character == '_') = true at hstart
  simp only [Bool.or_eq_true, Bool.and_eq_true, decide_eq_true_eq, ge_iff_le,
    UInt32.le_iff_toNat_le, beq_iff_eq] at hstart
  change ((65 ≤ character.toNat ∧ character.toNat ≤ 90) ∨
    (97 ≤ character.toNat ∧ character.toNat ≤ 122)) ∨ character = '_' at hstart
  rcases hstart with hletter | rfl
  · exact isBlank_of_code (by omega) (by omega)
  · decide

theorem quote_apart {quote : Char} (hquote : isQuote quote = true) :
    isBlank quote = false ∧ quote ∉ operatorSigns ∧ quote.isDigit = false ∧
      quote ≠ '\\' := by
  simp only [isQuote, Bool.or_eq_true, beq_iff_eq] at hquote
  rcases hquote with rfl | rfl <;> decide

theorem operatorSigns_apart {sign : Char} (hsign : sign ∈ operatorSigns) :
    isBlank sign = false ∧ isQuote sign = false ∧ sign.isDigit = false ∧
      isWordStart sign = false := by
  have hall : ∀ sign ∈ operatorSigns, (!isBlank sign && !isQuote sign &&
      !sign.isDigit && !isWordStart sign) = true :=
    List.all_eq_true.mp (by decide)
  simpa [and_assoc] using hall sign hsign

theorem delimiterSigns_apart {sign : Char} (hsign : sign ∈ delimiterSigns) :
    isBlank sign = false ∧ sign ∉ operatorSigns ∧ isQuote sign = false ∧
      sign.isDigit = false ∧ isWordStart sign = false := by
  have hall : ∀ sign ∈ delimiterSigns, (!isBlank sign &&
      !operatorSigns.contains sign && !isQuote sign && !sign.isDigit &&
      !isWordStart sign) = true :=
    List.all_eq_true.mp (by decide)
  simpa [and_assoc] using hall sign hsign

theorem mem_operatorSigns_of_pair {first second : Char}
    (hpair : (first, second) ∈ operatorPairs) : first ∈ operatorSigns := by
  have hall : ∀ pair ∈ operatorPairs, pair.1 ∈ operatorSigns := by decide
  exact hall _ hpair

/-- Without the sign of an operator in front, the rules for comments and
operators do not apply. -/
theorem lexeme?_of_not_mem_operatorSigns {first : Char} (rest : List Char)
    (hblank : isBlank first = false) (hsign : first ∉ operatorSigns) :
    lexeme? first rest =
      if isQuote first then some ⟨.literal, quotedLength first rest⟩
      else if first.isDigit then
        some ⟨.literal, (rest.takeWhile isNumberPart).length⟩
      else if isWordStart first then
        some ⟨wordKind (String.ofList (first :: rest.takeWhile isWordPart)),
          (rest.takeWhile isWordPart).length⟩
      else if first ∈ delimiterSigns then some ⟨.delimiter, 0⟩
      else none := by
  have hslash : first ≠ '/' := fun heq => hsign (heq ▸ by decide)
  have hpair : ∀ second, (first, second) ∉ operatorPairs :=
    fun second hmem => hsign (mem_operatorSigns_of_pair hmem)
  have hnone : (rest.head?.any fun second =>
      (first, second) ∈ operatorPairs) = false := by
    cases rest <;> simp [hpair]
  simp [lexeme?, hblank, hslash, hnone, hsign]

/-- The rules exclude each other: where one of them gives a lexeme, it is the
lexeme at the head of the line. -/
theorem Lexes.lexeme?_eq {first : Char} {rest : List Char} {found : Lexeme}
    (hlexes : Lexes first rest (some found)) :
    lexeme? first rest = some found := by
  cases hlexes with
  | comment hfirst hnext =>
      subst hfirst
      have hblank : isBlank '/' = false := by decide
      simp [lexeme?, hblank, hnext]
  | pair second hnext hpair =>
      have hblank := (operatorSigns_apart (mem_operatorSigns_of_pair hpair)).1
      have hcomment : first = '/' → second ≠ '/' := by
        rintro rfl rfl
        exact absurd hpair (by decide)
      simpa [lexeme?, hblank, hnext, hpair] using hcomment
  | quoted hquote =>
      obtain ⟨hblank, hsign, -⟩ := quote_apart hquote
      rw [lexeme?_of_not_mem_operatorSigns rest hblank hsign, if_pos hquote]
  | number hdigit =>
      have hsign : first ∉ operatorSigns := fun hmem => by
        simp [(operatorSigns_apart hmem).2.2.1] at hdigit
      have hquote : isQuote first = false := Bool.eq_false_iff.mpr fun htrue => by
        simp [(quote_apart htrue).2.2.1] at hdigit
      rw [lexeme?_of_not_mem_operatorSigns rest (isBlank_of_isDigit hdigit) hsign]
      simp [hquote, hdigit]
  | word hstart =>
      have hsign : first ∉ operatorSigns := fun hmem => by
        simp [(operatorSigns_apart hmem).2.2.2] at hstart
      have hquote : isQuote first = false := Bool.eq_false_iff.mpr fun htrue => by
        simp [isWordStart_of_isQuote htrue] at hstart
      have hdigit : first.isDigit = false := Bool.eq_false_iff.mpr fun htrue => by
        simp [isWordStart_of_isDigit htrue] at hstart
      rw [lexeme?_of_not_mem_operatorSigns rest (isBlank_of_isWordStart hstart)
        hsign]
      simp [hquote, hdigit, hstart]
  | sign hsign hcomment hpair =>
      obtain ⟨hblank, hquote, hdigit, hstart⟩ := operatorSigns_apart hsign
      have hnone : (rest.head?.any fun second =>
          (first, second) ∈ operatorPairs) = false := by
        refine Bool.eq_false_iff.mpr fun hany => ?_
        obtain ⟨second, hnext, hmem⟩ := (Option.any_eq_true _ _).mp hany
        exact hpair second hnext (of_decide_eq_true hmem)
      rw [lexeme?, if_neg (by simp [hblank]), if_neg hcomment]
      simp [hnone, hquote, hdigit, hstart, hsign]
  | delimiter hdelimiter =>
      obtain ⟨hblank, hsign, hquote, hdigit, hstart⟩ :=
        delimiterSigns_apart hdelimiter
      rw [lexeme?_of_not_mem_operatorSigns rest hblank hsign]
      simp [hquote, hdigit, hstart, hdelimiter]

/-! Quoted literals. -/

theorem quotedLength_cons {quote character : Char} (rest : List Char)
    (hescape : character ≠ '\\') : quotedLength quote (character :: rest) =
      if character = quote then 1 else quotedLength quote rest + 1 := by
  rw [quotedLength] <;> simp [hescape]

/-- Scanning goes on after a body as if the literal had started there. -/
theorem QuotedBody.quotedLength_append {quote : Char} {body : List Char}
    (hbody : QuotedBody quote body) (rest : List Char) :
    quotedLength quote (body ++ rest) =
      body.length + quotedLength quote rest := by
  induction hbody with
  | nil => simp
  | escaped character hrest ih =>
      simp only [List.cons_append, quotedLength, ih, List.length_cons]
      omega
  | plain hescape hquote hrest ih =>
      rw [List.cons_append, quotedLength_cons _ hescape, if_neg hquote, ih,
        List.length_cons]
      omega

/-- What follows an opening quote is a body that the quote closes, or one that
the line ends, perhaps after a last backslash. -/
theorem quotedBody_split (quote : Char) (rest : List Char) :
    ∃ body tail, QuotedBody quote body ∧ rest = body ++ tail ∧
      (tail = [] ∨ tail = ['\\'] ∨ ∃ following, tail = quote :: following) := by
  fun_induction quotedLength quote rest with
  | case1 => exact ⟨[], [], .nil, rfl, Or.inl rfl⟩
  | case2 => exact ⟨[], ['\\'], .nil, rfl, Or.inr (Or.inl rfl)⟩
  | case3 escaped rest ih =>
      obtain ⟨body, tail, hbody, rfl, htail⟩ := ih
      exact ⟨'\\' :: escaped :: body, tail, .escaped escaped hbody, rfl, htail⟩
  | case4 rest =>
      exact ⟨[], quote :: rest, .nil, rfl, Or.inr (Or.inr ⟨rest, rfl⟩)⟩
  | case5 character rest hlast hescape hne ih =>
      obtain ⟨body, tail, hbody, rfl, htail⟩ := ih
      have hplain : character ≠ '\\' := by
        rintro rfl
        cases hrest : body ++ tail with
        | nil => exact hlast rfl hrest
        | cons escaped others => exact hescape escaped others rfl hrest
      exact ⟨character :: body, tail, .plain hplain hne hbody, rfl, htail⟩

/-- A quoted literal belongs to the class that tells whether it is closed. -/
theorem belongs_of_isQuote {quote : Char} (hquote : isQuote quote = true)
    (rest : List Char) :
    ∃ found, Belongs found (quote :: rest.take (quotedLength quote rest))
        (rest.drop (quotedLength quote rest)) ∧
      ∀ text, found.kind text = .literal := by
  have hescape := (quote_apart hquote).2.2.2
  obtain ⟨body, tail, hbody, rfl, htail⟩ := quotedBody_split quote rest
  rw [hbody.quotedLength_append, List.take_length_add_append,
    List.drop_length_add_append]
  rcases htail with rfl | rfl | ⟨following, rfl⟩
  · refine ⟨.openQuote, ?_, fun _ => rfl⟩
    simpa [quotedLength] using Belongs.openQuote hquote hbody
  · refine ⟨.openQuote, ?_, fun _ => rfl⟩
    simpa [quotedLength] using Belongs.openEscape hquote hbody
  · refine ⟨.closedQuote, ?_, fun _ => rfl⟩
    rw [quotedLength_cons following hescape, if_pos rfl]
    exact .closedQuote hquote hbody following

/-- The lexeme at the head of a line belongs to a class of its kind. -/
theorem Lexes.belongs {first : Char} {rest : List Char} {kind : Token.Kind}
    {extra : Nat} (hlexes : Lexes first rest (some ⟨kind, extra⟩)) :
    ∃ found, Belongs found (first :: rest.take extra) (rest.drop extra) ∧
      found.kind (String.ofList (first :: rest.take extra)) = kind := by
  cases hlexes with
  | comment hfirst hnext =>
      obtain ⟨body, rfl⟩ := List.head?_eq_some_iff.mp hnext
      subst hfirst
      refine ⟨.comment, ?_, rfl⟩
      simpa using Belongs.comment body
  | pair second hnext hpair =>
      obtain ⟨following, rfl⟩ := List.head?_eq_some_iff.mp hnext
      exact ⟨.operatorPair, .operatorPair hpair following, rfl⟩
  | quoted hquote =>
      obtain ⟨found, hbelongs, hkind⟩ := belongs_of_isQuote hquote rest
      exact ⟨found, hbelongs, hkind _⟩
  | number hdigit =>
      refine ⟨.number, ?_, rfl⟩
      rw [take_length_takeWhile]
      exact .number hdigit (List.all_eq_true.mp List.all_takeWhile) _
  | word hstart =>
      rw [take_length_takeWhile]
      exact ⟨.word, .word hstart (List.all_eq_true.mp List.all_takeWhile) _, rfl⟩
  | sign hsign hcomment hpair =>
      exact ⟨.operatorSign, .operatorSign hsign rest, rfl⟩
  | delimiter hdelimiter =>
      exact ⟨.delimiterSign, .delimiterSign hdelimiter rest, rfl⟩

/-- A text of a class is no longer than the lexeme where it stands, and if it is
as long, the lexeme has the kind of the class. -/
theorem Belongs.lexeme?_eq {found : LexicalClass} {text following : List Char}
    (hbelongs : Belongs found text following) :
    ∃ first tail kind extra, text = first :: tail ∧
      lexeme? first (tail ++ following) = some ⟨kind, extra⟩ ∧
      tail.length ≤ extra ∧
      (extra = tail.length → found.kind (String.ofList text) = kind) := by
  cases hbelongs with
  | comment body =>
      exact ⟨'/', '/' :: body, .comment, _, rfl, Lexes.lexeme?_eq (.comment rfl rfl),
        by simp, fun _ => rfl⟩
  | @operatorPair first second hpair following =>
      exact ⟨first, [second], .operator, 1, rfl,
        Lexes.lexeme?_eq (.pair second rfl hpair), Nat.le_refl 1, fun _ => rfl⟩
  | @operatorSign sign hsign following =>
      by_cases hcomment : sign = '/' ∧ following.head? = some '/'
      · obtain ⟨rfl, hnext⟩ := hcomment
        obtain ⟨body, rfl⟩ := List.head?_eq_some_iff.mp hnext
        exact ⟨'/', [], .comment, _, rfl, Lexes.lexeme?_eq (.comment rfl hnext),
          Nat.zero_le _, by simp⟩
      · by_cases hpair : ∃ second ∈ following.head?,
            (sign, second) ∈ operatorPairs
        · obtain ⟨second, hnext, hpair⟩ := hpair
          exact ⟨sign, [], .operator, 1, rfl,
            Lexes.lexeme?_eq (.pair second hnext hpair), Nat.zero_le 1,
            fun _ => rfl⟩
        · have hsingle : ∀ second ∈ following.head?,
              (sign, second) ∉ operatorPairs :=
            fun second hnext hmem => hpair ⟨second, hnext, hmem⟩
          exact ⟨sign, [], .operator, 0, rfl,
            Lexes.lexeme?_eq (.sign hsign hcomment hsingle), Nat.le_refl 0,
            fun _ => rfl⟩
  | @delimiterSign sign hsign following =>
      exact ⟨sign, [], .delimiter, 0, rfl,
        Lexes.lexeme?_eq (.delimiter hsign), Nat.le_refl 0, fun _ => rfl⟩
  | @closedQuote quote hquote body hbody following =>
      refine ⟨quote, body ++ [quote], .literal, _, rfl,
        Lexes.lexeme?_eq (.quoted hquote), ?_, fun _ => rfl⟩
      rw [List.append_assoc, hbody.quotedLength_append, List.singleton_append,
        quotedLength_cons following (quote_apart hquote).2.2.2, if_pos rfl]
      simp
  | @openQuote quote hquote body hbody =>
      refine ⟨quote, body, .literal, _, rfl,
        Lexes.lexeme?_eq (.quoted hquote), ?_, fun _ => rfl⟩
      rw [hbody.quotedLength_append]
      exact Nat.le_add_right _ _
  | @openEscape quote hquote body hbody =>
      refine ⟨quote, body ++ ['\\'], .literal, _, rfl,
        Lexes.lexeme?_eq (.quoted hquote), ?_, fun _ => rfl⟩
      rw [List.append_assoc, hbody.quotedLength_append]
      simp [quotedLength]
  | @number first hdigit rest hrest following =>
      refine ⟨first, rest, .literal, _, rfl,
        Lexes.lexeme?_eq (.number hdigit), ?_, fun _ => rfl⟩
      rw [List.takeWhile_append_of_pos hrest, List.length_append]
      exact Nat.le_add_right _ _
  | @word first hstart rest hrest following =>
      have htake : (rest ++ following).takeWhile isWordPart =
          rest ++ following.takeWhile isWordPart :=
        List.takeWhile_append_of_pos hrest
      refine ⟨first, rest, _, _, rfl, Lexes.lexeme?_eq (.word hstart), ?_, ?_⟩
      · rw [htake, List.length_append]
        exact Nat.le_add_right _ _
      · rw [htake, List.length_append]
        intro hlength
        have hnone : following.takeWhile isWordPart = [] :=
          List.length_eq_zero_iff.mp (by omega)
        rw [hnone, List.append_nil]
        rfl

theorem wordKind_eq_keyword_iff {word : String} :
    wordKind word = .keyword ↔ word ∈ keywords := by
  simp only [wordKind]
  split
  · simp_all
  · split <;> simp_all

theorem wordKind_eq_literal_iff {word : String} :
    wordKind word = .literal ↔ word ∈ booleanWords := by
  refine ⟨mem_booleanWords_of_wordKind, fun hmem => ?_⟩
  have hall : ∀ word ∈ booleanWords, wordKind word = .literal := by decide
  exact hall word hmem

/-- A character that may be dropped starts no lexeme. -/
theorem lexeme?_eq_none_of_droppable {first : Char} (rest : List Char)
    (hfirst : isBlank first = true ∨ isSignificant first = false) :
    lexeme? first rest = none := by
  by_cases hblank : isBlank first = true
  · simp [lexeme?, hblank]
  · have hunknown := hfirst.resolve_left hblank
    simp only [isSignificant, Bool.or_eq_false_iff, List.contains_eq_mem,
      decide_eq_false_iff_not] at hunknown
    obtain ⟨⟨⟨⟨⟨halpha, hdigit⟩, hunderscore⟩, hquote⟩, hsign⟩, hdelimiter⟩ :=
      hunknown
    have hstart : isWordStart first = false := by
      rw [isWordStart, halpha, hunderscore, Bool.or_self]
    rw [lexeme?_of_not_mem_operatorSigns rest (by simpa using hblank) hsign]
    simp [hquote, hdigit, hstart, hdelimiter]

/-- Tokens are longest matches.  The text of a token is the start of what is
left of its line from its column on, and belongs there to a class that gives
the token its kind; any other start of it that belongs to a class is at most as
long, and gives the same kind if it is as long.  A token with the syntax of a
word is a keyword exactly if it is one of the reserved words, a literal exactly
if it is `true` or `false`, and else an identifier.  And where no token stands,
nothing that belongs to a class starts. -/
theorem tokenize_longest_match (source : String) :
    (∀ token ∈ tokenize source, ∃ row index characters following,
      token.position = ⟨row + 1, index + 1⟩ ∧
      (lines source.toList)[row]? = some characters ∧
      characters.drop index = token.text.toList ++ following ∧
      (∃ found, Belongs found token.text.toList following ∧
        token.kind = found.kind token.text) ∧
      (∀ other text others, Belongs other text others →
        characters.drop index = text ++ others →
        text.length ≤ token.text.length ∧
          (text.length = token.text.length →
            other.kind token.text = token.kind)) ∧
      (isWord token.text = true →
        (token.kind = .keyword ↔ token.text ∈ keywords) ∧
        (token.kind = .literal ↔ token.text ∈ ["true", "false"]) ∧
        (token.kind = .identifier ↔
          token.text ∉ keywords ∧ token.text ∉ ["true", "false"]))) ∧
    ∀ row index characters,
      (lines source.toList)[row]? = some characters →
      (∀ token ∈ tokenize source, ¬token.Covers ⟨row + 1, index + 1⟩) →
      ∀ other text others, Belongs other text others →
        characters.drop index ≠ text ++ others := by
  constructor
  · intro token hmem
    obtain ⟨row, characters, hrow, hmem⟩ := mem_scanLines_iff.mp hmem
    obtain ⟨index, first, rest, extra, hposition, hdrop, hlexeme, htext⟩ :=
      exists_lexeme_of_mem_scanLine hmem
    have hlexes := lexes_of_eq hlexeme
    have hlist : token.text.toList = first :: rest.take extra := by
      rw [htext, String.toList_ofList]
    have hlength : token.text.length = extra + 1 := by
      rw [← String.length_toList, hlist, List.length_cons,
        List.length_take_of_le hlexes.extra_le]
    obtain ⟨found, hbelongs, hkind⟩ := hlexes.belongs
    refine ⟨row, index, characters, rest.drop extra, ?_, hrow, ?_, ?_, ?_, ?_⟩
    · rw [hposition, Nat.add_comm 1, Nat.add_comm 1]
    · rw [hdrop, hlist, List.cons_append, List.take_append_drop]
    · exact ⟨found, hlist ▸ hbelongs, htext ▸ hkind.symm⟩
    · intro other text others hother hsplit
      obtain ⟨start, tail, kind, more, rfl, hmore, hle, heq⟩ := hother.lexeme?_eq
      obtain ⟨rfl, rfl⟩ : first = start ∧ rest = tail ++ others := by
        simpa using hdrop.symm.trans hsplit
      obtain ⟨rfl, rfl⟩ : token.kind = kind ∧ extra = more := by
        simpa using hlexeme.symm.trans hmore
      refine ⟨by simpa [hlength] using hle, fun hsame => ?_⟩
      obtain rfl : extra = tail.length := by simpa [hlength] using hsame.symm
      rw [← heq rfl, htext, List.take_left]
    · intro hword
      rw [htext, isWord_ofList_cons, Bool.and_eq_true] at hword
      have hkind : token.kind = wordKind token.text := by
        have hsame := hlexeme.symm.trans (Lexes.word hword.1).lexeme?_eq
        simp only [Option.some.injEq, Lexeme.mk.injEq] at hsame
        rw [hsame.1, htext, hsame.2, take_length_takeWhile]
      rw [hkind]
      exact ⟨wordKind_eq_keyword_iff, wordKind_eq_literal_iff,
        wordKind_eq_identifier_iff⟩
  · intro row index characters hrow hcovered other text others hother hsplit
    obtain ⟨first, tail, kind, extra, rfl, hlexeme, -⟩ := hother.lexeme?_eq
    have hfirst : characters[index]? = some first := by
      rw [← List.head?_drop, hsplit, List.cons_append, List.head?_cons]
    have hdroppable := (scanLine_tiled (1 + row) 1
      characters).droppable_of_not_covered hfirst fun token hmem => by
        rw [Nat.add_comm 1, Nat.add_comm 1]
        exact hcovered token
          (mem_scanLines_iff.mpr ⟨row, characters, hrow, hmem⟩)
    rw [lexeme?_eq_none_of_droppable _ hdroppable] at hlexeme
    contradiction

/-- The quote after a backslash does not end a literal, and the comment that
could start inside it does not either. -/
theorem tokenize_longest_match_of_literal :
    let source := "x<<='\\'//'y"
    let token : Token := ⟨.literal, "'\\'//'", ⟨1, 5⟩⟩
    token ∈ tokenize source ∧
      ∀ other text others, Belongs other text others →
        "'\\'//'y".toList = text ++ others →
          text.length ≤ token.text.length := by
  intro source token
  have hmem : token ∈ tokenize source := by decide +kernel
  obtain ⟨row, index, characters, following, hposition, hrow, -, -, hlongest, -⟩ :=
    (tokenize_longest_match source).1 token hmem
  obtain ⟨rfl, rfl⟩ : row = 0 ∧ index = 4 := by simpa [token] using hposition
  obtain rfl : source.toList = characters := by
    simpa [source, lines] using hrow
  have hrest : source.toList.drop 4 = "'\\'//'y".toList := by decide
  refine ⟨hmem, fun other text others hother hsplit => ?_⟩
  exact (hlongest other text others hother (hrest.trans hsplit)).1

end ThreeAddress
