import ThreeAddress.Compilation
import ThreeAddress.Proofs.Relocation
import ThreeAddress.Proofs.Reprinting

/-!
What happens at the end of a line stays there.  A text is cut at its line feeds,
and each line is scanned on its own: a literal, an escape or a comment that
reaches the end of a line ends with it.  So the tokens of a text are those of
its parts, and a comment that is added to the end of a line changes nothing but
the comments.
-/

namespace ThreeAddress

/-- A line without the carriage return that stands before its line feed. -/
def withoutReturn (line : List Char) : List Char :=
  if line.getLast? = some '\r' then line.dropLast else line

theorem withoutReturn_of_ne {line : List Char}
    (hreturn : line.getLast? ≠ some '\r') : withoutReturn line = line :=
  if_neg hreturn

theorem withoutReturn_append_return (line : List Char) :
    withoutReturn (line ++ ['\r']) = line := by
  simp [withoutReturn]

theorem withoutReturn_append (first : List Char) {second : List Char}
    (hsecond : second ≠ []) :
    withoutReturn (first ++ second) = first ++ withoutReturn second := by
  simp only [withoutReturn, List.getLast?_append_of_ne_nil _ hsecond,
    List.dropLast_append_of_ne_nil hsecond]
  split <;> rfl

theorem withoutReturn_cons {character : Char} (hcharacter : character ≠ '\r')
    (rest : List Char) :
    withoutReturn (character :: rest) = character :: withoutReturn rest := by
  rcases rest with _ | ⟨next, rest⟩
  · simp [withoutReturn, hcharacter]
  · exact withoutReturn_append [character] (List.cons_ne_nil next rest)

theorem withoutReturn_subset (line : List Char) : withoutReturn line ⊆ line := by
  rw [withoutReturn]
  split
  · exact List.dropLast_subset line
  · exact List.Subset.refl line

/-- A text is one line, or a line, a line feed and a text. -/
theorem feed_induction {motive : List Char → Prop}
    (last : ∀ line, '\n' ∉ line → motive line)
    (feed : ∀ line rest, '\n' ∉ line → motive rest →
      motive (line ++ '\n' :: rest)) (text : List Char) : motive text := by
  induction hfeeds : text.count '\n' generalizing text with
  | zero => exact last text (List.count_eq_zero.mp hfeeds)
  | succ feeds ih =>
      have hmem : '\n' ∈ text := List.count_pos_iff.mp (by omega)
      obtain ⟨line, rest, rfl, hline⟩ := List.eq_append_cons_of_mem hmem
      refine feed line rest hline (ih rest ?_)
      simpa [List.count_eq_zero.mpr hline] using hfeeds

/-- A character that does not take part in ending a line belongs to the first
line. -/
theorem lines_cons {character : Char} {rest : List Char}
    (hfeed : '\n' ≠ character)
    (hreturn : character = '\r' → rest.head? ≠ some '\n') :
    lines (character :: rest) =
      (character :: (lines rest).headD []) :: (lines rest).tail := by
  rw [lines]
  · cases lines rest <;> rfl
  · exact hfeed.symm
  · rintro others heq rfl
    exact hreturn heq rfl

theorem lines_of_not_mem {line : List Char} (hline : '\n' ∉ line)
    (hne : line ≠ []) : lines line = [line] := by
  induction line with
  | nil => exact absurd rfl hne
  | cons character line ih =>
      obtain ⟨hfirst, hline⟩ := List.ne_and_not_mem_of_not_mem_cons hline
      rw [lines_cons hfirst fun _ heq => hline (List.mem_of_mem_head? heq)]
      rcases line with _ | ⟨next, line⟩
      · rfl
      · rw [ih hline (List.cons_ne_nil next line)]
        rfl

theorem lines_append_feed {line : List Char} (hline : '\n' ∉ line)
    (rest : List Char) :
    lines (line ++ '\n' :: rest) = withoutReturn line :: lines rest := by
  induction line with
  | nil => simp [lines, withoutReturn]
  | cons character line ih =>
      obtain ⟨hfirst, hline⟩ := List.ne_and_not_mem_of_not_mem_cons hline
      rcases line with _ | ⟨next, line⟩
      · -- a carriage return right before the line feed is dropped with it
        by_cases hreturn : character = '\r'
        · subst hreturn
          simp [lines, withoutReturn]
        · rw [withoutReturn_cons hreturn, List.cons_append,
            lines_cons hfirst (absurd · hreturn), ih hline]
          rfl
      · have hnext : next ≠ '\n' := fun heq => hline (heq ▸ List.mem_cons_self)
        have hreturn : withoutReturn (character :: next :: line) =
            character :: withoutReturn (next :: line) :=
          withoutReturn_append [character] (List.cons_ne_nil next line)
        rw [hreturn, List.cons_append,
          lines_cons hfirst fun _ => by simpa using hnext, ih hline]
        rfl

def Position.lower (count : Nat) (position : Position) : Position :=
  { position with line := position.line + count }

theorem scanLine_add (line count column : Nat) (characters : List Char) :
    scanLine (line + count) column characters =
      (scanLine line column characters).map
        (Token.relocate (Position.lower count)) := by
  fun_induction scanLine line column characters with
  | case1 column => rw [scanLine_nil, List.map_nil]
  | case2 column first rest hlexeme ih =>
      rw [scanLine_of_eq_none hlexeme, ih]
  | case3 column first rest kind extra hlexeme ih =>
      rw [scanLine_of_eq_some hlexeme, ih]
      rfl

/-- Lines that stand further down have the same tokens further down. -/
theorem scanLines_add (number count : Nat) (rows : List (List Char)) :
    scanLines (number + count) rows =
      (scanLines number rows).map (Token.relocate (Position.lower count)) := by
  induction rows generalizing number with
  | nil => rfl
  | cons row rows ih =>
      rw [scanLines, scanLines, List.map_append, scanLine_add,
        Nat.add_right_comm, ih]

theorem scanLines_of_not_mem {line : List Char} (hline : '\n' ∉ line)
    (number : Nat) : scanLines number (lines line) = scanLine number 1 line := by
  rcases line with _ | ⟨character, line⟩
  · rw [scanLine_nil]
    rfl
  · rw [lines_of_not_mem hline (List.cons_ne_nil character line), scanLines,
      scanLines, List.append_nil]

/-- A line feed parts the tokens of a text. -/
theorem scanLines_append_feed (number : Nat) (first rest : List Char) :
    scanLines number (lines (first ++ '\n' :: rest)) =
      scanLines number (lines (withoutReturn first)) ++
        scanLines (number + (1 + first.count '\n')) (lines rest) := by
  induction first using feed_induction generalizing number with
  | last line hline =>
      have hreturn : '\n' ∉ withoutReturn line :=
        fun hmem => hline (withoutReturn_subset line hmem)
      rw [lines_append_feed hline, scanLines, scanLines_of_not_mem hreturn,
        List.count_eq_zero.mpr hline]
  | feed line text hline ih =>
      rw [withoutReturn_append line (List.cons_ne_nil '\n' text),
        withoutReturn_cons (by decide), List.append_assoc, List.cons_append,
        lines_append_feed hline, lines_append_feed hline, scanLines, scanLines,
        ih, List.append_assoc, List.count_append, List.count_cons_self,
        List.count_eq_zero.mpr hline]
      congr 3
      omega

/-- Lexing goes line by line.  The tokens of two texts with a line feed between
them are those of the first text and those of the second, which stand as many
lines further down as the first text and the line feed take; nothing that the
first text leaves open reaches into the second.  Only a carriage return at the
end of the first text becomes a part of the line end. -/
theorem tokenize_append_feed (first second : String)
    (hreturn : first.toList.getLast? ≠ some '\r') :
    tokenize (first ++ "\n" ++ second) =
      tokenize first ++ (tokenize second).map
        (Token.relocate (Position.lower (1 + first.toList.count '\n'))) := by
  have hlist : (first ++ "\n" ++ second).toList =
      first.toList ++ '\n' :: second.toList := by simp
  rw [tokenize, hlist, scanLines_append_feed, withoutReturn_of_ne hreturn,
    scanLines_add]
  rfl

/-- A literal that is left open after a backslash, and a line after it that
would close the literal. -/
theorem tokenize_append_feed_of_open_literal :
    let first := "int x;\r\nx = \"a\\"
    let second := "\" // \"\ny"
    first.toList.getLast? ≠ some '\r' ∧
      tokenize (first ++ "\n" ++ second) =
        tokenize first ++ [⟨.literal, "\" // \"", ⟨3, 1⟩⟩,
          ⟨.identifier, "y", ⟨4, 1⟩⟩] := by
  intro first second
  have hreturn : first.toList.getLast? ≠ some '\r' := by decide
  have hsecond : (tokenize second).map
      (Token.relocate (Position.lower (1 + first.toList.count '\n'))) =
        [⟨.literal, "\" // \"", ⟨3, 1⟩⟩, ⟨.identifier, "y", ⟨4, 1⟩⟩] := by
    decide +kernel
  refine ⟨hreturn, ?_⟩
  rw [tokenize_append_feed first second hreturn, hsecond]

example : tokenize ("// x\r" ++ "\n") ≠ tokenize "// x\r" := by decide +kernel

/-! Comments at the ends of lines. -/

/-- A quoted literal that its line leaves open. -/
def Token.IsUnclosed (token : Token) : Prop :=
  Belongs .openQuote token.text.toList []

/-- A literal is left open if it would take along what came after it. -/
theorem belongs_openQuote_iff {quote : Char} {rest : List Char} :
    Belongs .openQuote (quote :: rest) [] ↔
      isQuote quote = true ∧
        rest.length < quotedLength quote (rest ++ [' ']) := by
  have hspace : quotedLength quote [' '] = 1 := by
    rw [quotedLength_cons _ (by decide)]
    split <;> rfl
  constructor
  · intro hbelongs
    cases hbelongs with
    | openQuote hquote hbody =>
        rw [hbody.quotedLength_append, hspace]
        exact ⟨hquote, Nat.lt_succ_self _⟩
    | openEscape hquote hbody =>
        rw [List.append_assoc, hbody.quotedLength_append]
        exact ⟨hquote, by simp [quotedLength]⟩
  · rintro ⟨hquote, hlength⟩
    obtain ⟨body, tail, hbody, rfl, htail⟩ := quotedBody_split quote rest
    rcases htail with rfl | rfl | ⟨following, rfl⟩
    · rw [List.append_nil]
      exact .openQuote hquote hbody
    · exact .openEscape hquote hbody
    · rw [List.append_assoc, hbody.quotedLength_append, List.cons_append,
        quotedLength_cons _ (quote_apart hquote).2.2.2, if_pos rfl] at hlength
      simp at hlength

instance (token : Token) : Decidable token.IsUnclosed :=
  match htext : token.text.toList with
  | [] => isFalse fun hunclosed => by
      rw [Token.IsUnclosed, htext] at hunclosed
      cases hunclosed
  | quote :: rest =>
      decidable_of_iff
        (isQuote quote = true ∧
          rest.length < quotedLength quote (rest ++ [' ']))
        (by rw [Token.IsUnclosed, htext, belongs_openQuote_iff])

/-- A literal that is closed ends there, whatever follows on the line. -/
theorem quotedLength_append {quote : Char} (hquote : isQuote quote = true)
    {rest : List Char}
    (hclosed : ¬Belongs .openQuote
      (quote :: rest.take (quotedLength quote rest)) [])
    (following : List Char) :
    quotedLength quote (rest ++ following) = quotedLength quote rest := by
  have hescape := (quote_apart hquote).2.2.2
  obtain ⟨body, tail, hbody, rfl, htail⟩ := quotedBody_split quote rest
  rw [hbody.quotedLength_append, List.take_length_add_append] at hclosed
  rcases htail with rfl | rfl | ⟨others, rfl⟩
  · refine absurd ?_ hclosed
    simpa [quotedLength] using Belongs.openQuote hquote hbody
  · refine absurd ?_ hclosed
    simpa [quotedLength] using Belongs.openEscape hquote hbody
  · rw [List.append_assoc, hbody.quotedLength_append, hbody.quotedLength_append,
      List.cons_append, quotedLength_cons _ hescape, quotedLength_cons _ hescape,
      if_pos rfl, if_pos rfl]

theorem Apart.takeWhile_append {following : List Char}
    (hapart : Apart following) {keep : Char → Bool}
    (hspace : keep ' ' = false) (rest : List Char) :
    (rest ++ following).takeWhile keep = rest.takeWhile keep := by
  rw [List.takeWhile_append, hapart.takeWhile_eq_nil hspace, List.append_nil]
  split
  · rename_i hlength
    exact ((List.takeWhile_prefix keep).eq_of_length hlength).symm
  · rfl

/-- A lexeme that is neither a comment nor left open is found again when the
line goes on after a space. -/
theorem lexeme?_append {first : Char} {rest following : List Char}
    {kind : Token.Kind} {extra : Nat}
    (hlexeme : lexeme? first rest = some ⟨kind, extra⟩)
    (hslashes : ¬(first = '/' ∧ rest.head? = some '/'))
    (hclosed : ¬Belongs .openQuote (first :: rest.take extra) [])
    (hapart : Apart following) :
    lexeme? first (rest ++ following) = some ⟨kind, extra⟩ := by
  cases lexes_of_eq hlexeme with
  | comment hfirst hnext => exact absurd ⟨hfirst, hnext⟩ hslashes
  | pair second hnext hpair =>
      obtain ⟨others, rfl⟩ := List.head?_eq_some_iff.mp hnext
      exact Lexes.lexeme?_eq (.pair second rfl hpair)
  | quoted hquote =>
      rw [Lexes.lexeme?_eq (.quoted hquote), quotedLength_append hquote hclosed]
  | number hdigit =>
      rw [Lexes.lexeme?_eq (.number hdigit), hapart.takeWhile_append (by decide)]
  | word hstart =>
      rw [Lexes.lexeme?_eq (.word hstart), hapart.takeWhile_append (by decide)]
  | sign hsign hcomment hpair =>
      have hspaces : ∀ pair ∈ operatorPairs, pair.2 ≠ ' ' := by decide
      rcases rest with _ | ⟨next, rest⟩
      · refine Lexes.lexeme?_eq (.sign hsign ?_ ?_)
        · rintro ⟨-, hslash⟩
          exact absurd (hapart _ hslash) (by decide)
        · intro second hnext hmem
          exact hspaces _ hmem (hapart second hnext)
      · exact Lexes.lexeme?_eq (.sign hsign hcomment hpair)
  | delimiter hdelimiter => exact Lexes.lexeme?_eq (.delimiter hdelimiter)

theorem withoutComments_scanLine_slashes (line column : Nat)
    (body : List Char) :
    withoutComments (scanLine line column ('/' :: '/' :: body)) = [] := by
  rw [scanLine_of_eq_some (Lexes.lexeme?_eq (.comment rfl rfl)),
    List.drop_length, scanLine_nil]
  rfl

/-- On a line that leaves no literal open a comment may be added. -/
theorem scanLine_append_comment (line column : Nat) (characters text : List Char)
    (hclosed : ∀ token ∈ scanLine line column characters,
      ¬token.IsUnclosed) :
    withoutComments
        (scanLine line column (characters ++ ' ' :: '/' :: '/' :: text)) =
      withoutComments (scanLine line column characters) := by
  fun_induction scanLine line column characters with
  | case1 column =>
      have hspace : lexeme? ' ' ('/' :: '/' :: text) = none :=
        lexeme?_eq_none_of_droppable _ (Or.inl (by decide))
      rw [List.nil_append, scanLine_of_eq_none hspace,
        withoutComments_scanLine_slashes]
      rfl
  | case2 column first rest hlexeme ih =>
      have hnone := lexeme?_eq_none_of_droppable
        (rest ++ ' ' :: '/' :: '/' :: text) (lexes_of_eq hlexeme).droppable
      rw [List.cons_append, scanLine_of_eq_none hnone]
      exact ih hclosed
  | case3 column first rest kind extra hlexeme ih =>
      obtain ⟨hfirst, hrest⟩ := List.forall_mem_cons.mp hclosed
      by_cases hslashes : first = '/' ∧ rest.head? = some '/'
      · -- the comment that is there takes the new one along
        obtain ⟨rfl, hnext⟩ := hslashes
        obtain ⟨others, rfl⟩ := List.head?_eq_some_iff.mp hnext
        rw [← scanLine_of_eq_some hlexeme, withoutComments_scanLine_slashes]
        exact withoutComments_scanLine_slashes line column _
      · have hlength := (lexes_of_eq hlexeme).extra_le
        have hopen : ¬Belongs .openQuote (first :: rest.take extra) [] := by
          simpa [Token.IsUnclosed] using hfirst
        have hapart : Apart (' ' :: '/' :: '/' :: text) := by simp [Apart]
        have htail := ih hrest
        rw [withoutComments, withoutComments] at htail ⊢
        rw [List.cons_append,
          scanLine_of_eq_some (lexeme?_append hlexeme hslashes hopen hapart),
          List.take_append_of_le_length hlength,
          List.drop_append_of_le_length hlength, List.filter_cons,
          List.filter_cons, htail]

/-- So may it on the last line of a text. -/
theorem scanLines_append_comment (number : Nat) (before : List Char)
    {text : List Char} (htext : '\n' ∉ text)
    (hclosed : ∀ token ∈ scanLines number (lines before),
      token.position.line = number + before.count '\n' → ¬token.IsUnclosed) :
    withoutComments
        (scanLines number (lines (before ++ ' ' :: '/' :: '/' :: text))) =
      withoutComments (scanLines number (lines before)) := by
  induction before using feed_induction generalizing number with
  | last line hline =>
      have hcommented : '\n' ∉ line ++ ' ' :: '/' :: '/' :: text := by
        simpa [hline] using htext
      rw [scanLines_of_not_mem hline, List.count_eq_zero.mpr hline] at hclosed
      rw [scanLines_of_not_mem hline, scanLines_of_not_mem hcommented]
      apply scanLine_append_comment
      intro token hmem
      exact hclosed token hmem (line_of_mem_scanLine hmem)
  | feed line rest hline ih =>
      rw [lines_append_feed hline, scanLines, List.count_append,
        List.count_eq_zero.mpr hline, List.count_cons_self] at hclosed
      have hrest := ih (number + 1) fun token hmem hnumber =>
        hclosed token (List.mem_append_right _ hmem) (by omega)
      rw [withoutComments, withoutComments] at hrest ⊢
      rw [List.append_assoc, List.cons_append, lines_append_feed hline,
        lines_append_feed hline, scanLines, scanLines, List.filter_append,
        List.filter_append, hrest]

/-- A text is cut at the end of one of its lines: before the line feed that ends
the line, before the carriage return and the line feed that do, or where the
text ends. -/
inductive LineEnd (before : List Char) : (after : List Char) → Prop where
  | feed (hreturn : before.getLast? ≠ some '\r') (rest : List Char) :
      LineEnd before ('\n' :: rest)
  | returnFeed (rest : List Char) : LineEnd before ('\r' :: '\n' :: rest)
  | last : LineEnd before []

theorem withoutComments_append_feed {first second : List Char}
    (hcount : first.count '\n' = second.count '\n')
    (htokens : withoutComments (scanLines 1 (lines (withoutReturn first))) =
      withoutComments (scanLines 1 (lines (withoutReturn second))))
    (rest : List Char) :
    withoutComments (scanLines 1 (lines (first ++ '\n' :: rest))) =
      withoutComments (scanLines 1 (lines (second ++ '\n' :: rest))) := by
  rw [withoutComments, withoutComments] at htokens ⊢
  rw [scanLines_append_feed, scanLines_append_feed, List.filter_append,
    List.filter_append, htokens, hcount]

/-- At the end of a line a comment may be added. -/
theorem LineEnd.withoutComments_eq {before after text : List Char}
    (hend : LineEnd before after) (htext : '\n' ∉ text)
    (hclosed : ∀ token ∈ scanLines 1 (lines (before ++ after)),
      token.position.line = 1 + before.count '\n' → ¬token.IsUnclosed) :
    withoutComments (scanLines 1
        (lines (before ++ ' ' :: '/' :: '/' :: text ++ after))) =
      withoutComments (scanLines 1 (lines (before ++ after))) := by
  have hcount : ∀ others : List Char,
      (before ++ ' ' :: '/' :: '/' :: text ++ others).count '\n' =
        (before ++ others).count '\n' := by
    simp [List.count_append, List.count_eq_zero.mpr htext]
  cases hend with
  | feed hreturn rest =>
      -- a carriage return at the end of the comment goes with the line feed
      have hcomment : withoutReturn (before ++ ' ' :: '/' :: '/' :: text) =
          before ++ ' ' :: '/' :: '/' :: withoutReturn text := by
        rw [withoutReturn_append _ (List.cons_ne_nil _ _),
          withoutReturn_cons (by decide), withoutReturn_cons (by decide),
          withoutReturn_cons (by decide)]
      rw [scanLines_append_feed, withoutReturn_of_ne hreturn] at hclosed
      apply withoutComments_append_feed (by simpa using hcount [])
      rw [hcomment, withoutReturn_of_ne hreturn]
      exact scanLines_append_comment 1 before
        (fun hmem => htext (withoutReturn_subset text hmem))
        fun token hmem => hclosed token (List.mem_append_left _ hmem)
  | returnFeed rest =>
      have hfeed : ∀ first : List Char, first ++ '\r' :: '\n' :: rest =
          (first ++ ['\r']) ++ '\n' :: rest := by simp
      rw [hfeed, scanLines_append_feed, withoutReturn_append_return] at hclosed
      rw [hfeed, hfeed]
      apply withoutComments_append_feed (hcount ['\r'])
      rw [withoutReturn_append_return, withoutReturn_append_return]
      exact scanLines_append_comment 1 before htext
        fun token hmem => hclosed token (List.mem_append_left _ hmem)
  | last =>
      rw [List.append_nil] at hclosed ⊢
      rw [List.append_nil]
      exact scanLines_append_comment 1 before htext hclosed

/-- Sources whose tokens differ in comments only are compiled alike. -/
theorem compile_congr {first second : String}
    (htokens : withoutComments (tokenize first) =
      withoutComments (tokenize second)) :
    (compile first).tree = (compile second).tree ∧
      (compile first).analysis = (compile second).analysis ∧
      (compile first).instructions = (compile second).instructions := by
  have htree : parse (tokenize first) = parse (tokenize second) := by
    rw [parse, parse, htokens]
  simp only [compile, htree, and_self]

/-- Comments at the ends of lines are inert.  A comment may be added to the end
of every line that leaves no literal open: the tree with its positions, the
analysis with its lines and the code stay as they are. -/
theorem compile_ignores_trailing_comment (before after text : String)
    (hend : LineEnd before.toList after.toList) (htext : '\n' ∉ text.toList)
    (hclosed : ∀ token ∈ tokenize (before ++ after),
      token.position.line = 1 + before.toList.count '\n' →
        ¬token.IsUnclosed) :
    (compile (before ++ " //" ++ text ++ after)).tree =
        (compile (before ++ after)).tree ∧
      (compile (before ++ " //" ++ text ++ after)).analysis =
        (compile (before ++ after)).analysis ∧
      (compile (before ++ " //" ++ text ++ after)).instructions =
        (compile (before ++ after)).instructions := by
  have hsource : (before ++ after).toList = before.toList ++ after.toList :=
    String.toList_append
  have hcommented : (before ++ " //" ++ text ++ after).toList =
      before.toList ++ ' ' :: '/' :: '/' :: text.toList ++ after.toList := by
    simp
  apply compile_congr
  rw [tokenize, hsource] at hclosed
  rw [tokenize, tokenize, hsource, hcommented]
  exact hend.withoutComments_eq htext hclosed

/-- A line that ends with an operator and has a comment in a literal, and a
comment with a quote and a carriage return. -/
theorem compile_ignores_trailing_comment_of_literal :
    let before := "int x = 1;\nchar c = '/'; x = \"//\\\"\" /"
    let after := "\r\n2; return 'x"
    let text := " x \" ; \r"
    LineEnd before.toList after.toList ∧ '\n' ∉ text.toList ∧
      (∀ token ∈ tokenize (before ++ after),
        token.position.line = 1 + before.toList.count '\n' →
          ¬token.IsUnclosed) ∧
      (compile (before ++ " //" ++ text ++ after)).tokens ≠
        (compile (before ++ after)).tokens ∧
      (compile (before ++ " //" ++ text ++ after)).instructions =
        (compile (before ++ after)).instructions := by
  intro before after text
  have hafter : after.toList = '\r' :: '\n' :: "2; return 'x".toList := by decide
  have hend : LineEnd before.toList after.toList := hafter ▸ .returnFeed _
  have htext : '\n' ∉ text.toList := by decide
  have hclosed : ∀ token ∈ tokenize (before ++ after),
      token.position.line = 1 + before.toList.count '\n' →
        ¬token.IsUnclosed := by decide +kernel
  obtain ⟨-, -, hcode⟩ :=
    compile_ignores_trailing_comment before after text hend htext hclosed
  exact ⟨hend, htext, hclosed, by decide +kernel, hcode⟩

end ThreeAddress
