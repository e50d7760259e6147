import ThreeAddress.Proofs.Lexeme

/-!
Tokens tile the lines that they are cut from.  A line falls into the texts of
its tokens and into single characters that are dropped, each piece right after
the one before; where tokens stand and what is lost between them is read off
that.
-/

namespace ThreeAddress

namespace Token

/-- The column right after the last character of a token. -/
def stop (token : Token) : Nat :=
  token.position.column + token.text.length

/-- One of the characters of a token stands at the position. -/
def Covers (token : Token) (position : Position) : Prop :=
  token.position.line = position.line ∧
    token.position.column ≤ position.column ∧ position.column < token.stop

end Token

/-- Characters that start at a column of a line, cut into droppable ones and
the texts of tokens. -/
inductive Tiled (line : Nat) : (column : Nat) → List Char → List Token →
    Prop where
  | done (column : Nat) : Tiled line column [] []
  | dropped {column : Nat} (character : Char)
      (hcharacter : isBlank character = true ∨ isSignificant character = false)
      {rest : List Char} {tokens : List Token}
      (hrest : Tiled line (column + 1) rest tokens) :
      Tiled line column (character :: rest) tokens
  | kept {column : Nat} (kind : Token.Kind) (text : List Char)
      (htext : text ≠ []) {rest : List Char} {tokens : List Token}
      (hrest : Tiled line (column + text.length) rest tokens) :
      Tiled line column (text ++ rest)
        (⟨kind, String.ofList text, ⟨line, column⟩⟩ :: tokens)

/-- Where no token starts, the character may be dropped. -/
theorem Lexes.droppable {first : Char} {rest : List Char}
    (hlexes : Lexes first rest none) :
    isBlank first = true ∨ isSignificant first = false := by
  cases hlexes with
  | blank hblank => exact Or.inl hblank
  | unknown hunknown => exact Or.inr hunknown

theorem scanLine_tiled (line column : Nat) (characters : List Char) :
    Tiled line column characters (scanLine line column characters) := by
  fun_induction scanLine line column characters with
  | case1 column => exact .done column
  | case2 column first rest hlexeme ih =>
      exact .dropped first (lexes_of_eq hlexeme).droppable ih
  | case3 column first rest kind extra hlexeme ih =>
      have hextra := (lexes_of_eq hlexeme).extra_le
      have hlength : column + (first :: rest.take extra).length =
          column + 1 + extra := by
        simp only [List.length_cons, List.length_take]
        omega
      have hsplit : first :: rest = (first :: rest.take extra) ++
          rest.drop extra := by
        rw [List.cons_append, List.take_append_drop]
      rw [hsplit]
      exact .kept kind (first :: rest.take extra) (List.cons_ne_nil _ _)
        (hlength ▸ ih)

namespace Tiled

variable {line column : Nat} {characters : List Char} {tokens : List Token}

/-- A token is not empty, and its text is what stands from its column on. -/
theorem slice (htiled : Tiled line column characters tokens) {token : Token}
    (hmem : token ∈ tokens) :
    ∃ offset, token.position = ⟨line, column + offset⟩ ∧
      0 < token.text.length ∧ token.text.toList =
        (characters.drop offset).take token.text.length := by
  induction htiled with
  | done column => simp at hmem
  | dropped character hcharacter hrest ih =>
      obtain ⟨offset, hposition, hlength, htext⟩ := ih hmem
      refine ⟨offset + 1, ?_, hlength, htext⟩
      rw [hposition, Nat.add_assoc, Nat.add_comm 1]
  | kept kind text hne hrest ih =>
      rcases List.mem_cons.mp hmem with rfl | hmem
      · refine ⟨0, rfl, ?_, by simp⟩
        simpa using List.length_pos_iff.mpr hne
      · obtain ⟨offset, hposition, hlength, htext⟩ := ih hmem
        refine ⟨text.length + offset, ?_, hlength, ?_⟩
        · rw [hposition, Nat.add_assoc]
        · rw [List.drop_length_add_append]
          exact htext

/-- Each token ends before the later ones start. -/
theorem pairwise_stop_le (htiled : Tiled line column characters tokens) :
    tokens.Pairwise fun first second =>
      first.stop ≤ second.position.column := by
  induction htiled with
  | done column => exact .nil
  | dropped character hcharacter hrest ih => exact ih
  | kept kind text hne hrest ih =>
      refine .cons ?_ ih
      intro token hmem
      obtain ⟨offset, hposition, _, _⟩ := hrest.slice hmem
      rw [hposition]
      simp [Token.stop]

/-- A character that no token covers may be dropped. -/
theorem droppable_of_not_covered (htiled : Tiled line column characters tokens)
    {index : Nat} {character : Char}
    (hcharacter : characters[index]? = some character)
    (hcovered : ∀ token ∈ tokens, ¬token.Covers ⟨line, column + index⟩) :
    isBlank character = true ∨ isSignificant character = false := by
  induction htiled generalizing index with
  | done column => simp at hcharacter
  | @dropped column other hother rest tokens hrest ih =>
      cases index with
      | zero =>
          obtain rfl : other = character := by simpa using hcharacter
          exact hother
      | succ index =>
          apply ih (by simpa using hcharacter)
          rwa [Nat.add_assoc, Nat.add_comm 1]
  | @kept column kind text hne rest tokens hrest ih =>
      by_cases hinside : index < text.length
      · refine absurd ⟨rfl, ?_, ?_⟩ (hcovered _ List.mem_cons_self)
        · exact Nat.le_add_right column index
        · simpa [Token.stop] using hinside
      · obtain ⟨offset, rfl⟩ := Nat.exists_eq_add_of_le (Nat.le_of_not_lt hinside)
        rw [List.getElem?_append_right (Nat.le_add_right _ _),
          Nat.add_sub_cancel_left] at hcharacter
        apply ih hcharacter
        intro token hmem
        rw [Nat.add_assoc]
        exact hcovered token (List.mem_cons_of_mem _ hmem)

end Tiled

/-- The tokens of consecutive lines are those of each line. -/
theorem mem_scanLines_iff {number : Nat} {rows : List (List Char)}
    {token : Token} :
    token ∈ scanLines number rows ↔ ∃ row characters,
      rows[row]? = some characters ∧
        token ∈ scanLine (number + row) 1 characters := by
  induction rows generalizing number with
  | nil => simp [scanLines]
  | cons first following ih =>
      rw [scanLines, List.mem_append, ih]
      constructor
      · rintro (hmem | ⟨row, characters, hrow, hmem⟩)
        · exact ⟨0, first, rfl, hmem⟩
        · refine ⟨row + 1, characters, hrow, ?_⟩
          rwa [Nat.add_comm row, ← Nat.add_assoc]
      · rintro ⟨row, characters, hrow, hmem⟩
        cases row with
        | zero =>
            obtain rfl : first = characters := by simpa using hrow
            exact Or.inl hmem
        | succ row =>
            refine Or.inr ⟨row, characters, hrow, ?_⟩
            rwa [Nat.add_assoc, Nat.add_comm 1]

/-- A token comes before another one in source order and ends before it
starts. -/
def Token.Precedes (first second : Token) : Prop :=
  first.position.order second.position = .lt ∧
    (first.position.line = second.position.line →
      first.stop ≤ second.position.column)

theorem Token.precedes_of_line_lt {first second : Token}
    (hline : first.position.line < second.position.line) :
    first.Precedes second := by
  refine ⟨?_, fun heq => absurd heq (Nat.ne_of_lt hline)⟩
  rw [Position.order, Nat.compare_eq_lt.mpr hline]
  rfl

theorem Token.precedes_of_stop_le {first second : Token}
    (hline : first.position.line = second.position.line)
    (hlength : 0 < first.text.length)
    (hstop : first.stop ≤ second.position.column) :
    first.Precedes second := by
  have hcolumn : first.position.column < second.position.column := by
    rw [Token.stop] at hstop
    omega
  refine ⟨?_, fun _ => hstop⟩
  rw [Position.order, Nat.compare_eq_eq.mpr hline,
    Nat.compare_eq_lt.mpr hcolumn]
  rfl

theorem scanLine_pairwise (line column : Nat) (characters : List Char) :
    (scanLine line column characters).Pairwise Token.Precedes := by
  have htiled := scanLine_tiled line column characters
  refine htiled.pairwise_stop_le.imp_of_mem ?_
  intro first second hfirst hsecond hstop
  obtain ⟨_, hposition, hlength, _⟩ := htiled.slice hfirst
  obtain ⟨_, hposition', _, _⟩ := htiled.slice hsecond
  exact Token.precedes_of_stop_le (by rw [hposition, hposition']) hlength hstop

theorem scanLines_pairwise (number : Nat) (rows : List (List Char)) :
    (scanLines number rows).Pairwise Token.Precedes := by
  induction rows generalizing number with
  | nil => exact .nil
  | cons first following ih =>
      refine List.pairwise_append.mpr
        ⟨scanLine_pairwise number 1 first, ih (number + 1), ?_⟩
      intro token hmem other hother
      obtain ⟨_, hposition, _, _⟩ := (scanLine_tiled number 1 first).slice hmem
      obtain ⟨row, characters, _, hother⟩ := mem_scanLines_iff.mp hother
      obtain ⟨_, hposition', _, _⟩ :=
        (scanLine_tiled (number + 1 + row) 1 characters).slice hother
      apply Token.precedes_of_line_lt
      rw [hposition, hposition']
      simp only
      omega

/-- The lexer loses nothing but blanks and characters that mean nothing.  Every
token is a slice of its line, from its column on; the tokens come in source
order and do not overlap; and a character of a line that no token covers is
blank or no character of the language. -/
theorem tokenize_tiles_lines (source : String) :
    (∀ token ∈ tokenize source, ∃ row index characters,
      token.position = ⟨row + 1, index + 1⟩ ∧
        (lines source.toList)[row]? = some characters ∧
        0 < token.text.length ∧ token.text.toList =
          (characters.drop index).take token.text.length) ∧
      (tokenize source).Pairwise Token.Precedes ∧
      ∀ row index characters character,
        (lines source.toList)[row]? = some characters →
        characters[index]? = some character →
        (∀ token ∈ tokenize source, ¬token.Covers ⟨row + 1, index + 1⟩) →
        isBlank character = true ∨ isSignificant character = false := by
  refine ⟨?_, scanLines_pairwise 1 (lines source.toList), ?_⟩
  · intro token hmem
    obtain ⟨row, characters, hrow, hmem⟩ := mem_scanLines_iff.mp hmem
    obtain ⟨index, hposition, hlength, htext⟩ :=
      (scanLine_tiled (1 + row) 1 characters).slice hmem
    refine ⟨row, index, characters, ?_, hrow, hlength, htext⟩
    rw [hposition, Nat.add_comm 1, Nat.add_comm 1]
  · intro row index characters character hrow hcharacter hcovered
    apply (scanLine_tiled (1 + row) 1 characters).droppable_of_not_covered
      hcharacter
    intro token hmem
    rw [Nat.add_comm 1, Nat.add_comm 1]
    exact hcovered token (mem_scanLines_iff.mpr ⟨row, characters, hrow, hmem⟩)

end ThreeAddress
