import Mathlib.Data.List.Basic
import ThreeAddress.Proofs.LongestMatch

/-!
Tokens that are printed and read again.  Each line is printed as the texts of
its tokens with one space between them, and ended by a carriage return and a
line feed.  The texts stand next to other characters than before: a space ends
every lexeme but those that reach to the end of their line, and these are the
last of theirs.
-/

namespace ThreeAddress

/-- What printing keeps of a token: its kind, its text and its line. -/
def Token.outline (token : Token) : Token.Kind × String × Nat :=
  (token.kind, token.text, token.position.line)

/-- The tokens of a line, with one space between each two. -/
def printedLine (tokens : List Token) : String :=
  " ".intercalate (tokens.map Token.text)

def onLine (tokens : List Token) (line : Nat) : List Token :=
  tokens.filter fun token => token.position.line = line

def lastLine (tokens : List Token) : Nat :=
  (tokens.map fun token => token.position.line).max?.getD 0

/-- The tokens, each on its line; lines without tokens are empty, and none
comes after the last that bears a token. -/
def printed (tokens : List Token) : String :=
  String.join ((List.range' 1 (lastLine tokens)).map fun line =>
    printedLine (onLine tokens line) ++ "\r\n")

/-! A lexeme is found again before a space and at the end of a line. -/

/-- Characters that a lexeme does not take along: none, or a space and what
comes after it. -/
def Apart (following : List Char) : Prop :=
  ∀ character ∈ following.head?, character = ' '

theorem Apart.takeWhile_eq_nil {following : List Char}
    (hapart : Apart following) {keep : Char → Bool}
    (hspace : keep ' ' = false) : following.takeWhile keep = [] := by
  rcases following with _ | ⟨character, rest⟩
  · rfl
  · obtain rfl := hapart character rfl
    simp [hspace]

/-- A quoted literal is found again at the end of a line, and before anything
if its line went on after it. -/
theorem quotedLength_take_append {quote : Char} (hquote : isQuote quote = true)
    {rest following : List Char}
    (hends : following = [] ∨ quotedLength quote rest < rest.length) :
    quotedLength quote (rest.take (quotedLength quote rest) ++ following) =
      quotedLength quote rest := by
  have hescape := (quote_apart hquote).2.2.2
  obtain ⟨body, tail, hbody, rfl, htail⟩ := quotedBody_split quote rest
  rw [hbody.quotedLength_append, List.take_length_add_append,
    List.append_assoc, hbody.quotedLength_append] at *
  rcases htail with rfl | rfl | ⟨after, rfl⟩
  · obtain rfl := hends.resolve_right (by simp [quotedLength])
    rfl
  · obtain rfl := hends.resolve_right (by simp [quotedLength])
    rfl
  · simp [quotedLength_cons _ hescape]

theorem lexeme?_take_append {first : Char} {rest following : List Char}
    {kind : Token.Kind} {extra : Nat}
    (hlexeme : lexeme? first rest = some ⟨kind, extra⟩)
    (hapart : Apart following) (hends : following = [] ∨ extra < rest.length) :
    lexeme? first (rest.take extra ++ following) = some ⟨kind, extra⟩ := by
  cases lexes_of_eq hlexeme with
  | comment hfirst hnext =>
      obtain rfl := hends.resolve_right (Nat.lt_irrefl _)
      rwa [List.take_length, List.append_nil]
  | pair second hnext hpair =>
      obtain ⟨others, rfl⟩ := List.head?_eq_some_iff.mp hnext
      exact Lexes.lexeme?_eq (.pair second rfl hpair)
  | quoted hquote =>
      rw [Lexes.lexeme?_eq (.quoted hquote), quotedLength_take_append hquote hends]
  | number hdigit =>
      rw [take_length_takeWhile, Lexes.lexeme?_eq (.number hdigit),
        List.takeWhile_append_of_pos (List.all_eq_true.mp List.all_takeWhile),
        hapart.takeWhile_eq_nil (by decide), List.append_nil]
  | word hstart =>
      rw [take_length_takeWhile, Lexes.lexeme?_eq (.word hstart),
        List.takeWhile_append_of_pos (List.all_eq_true.mp List.all_takeWhile),
        hapart.takeWhile_eq_nil (by decide), List.append_nil]
  | sign hsign hcomment hpair =>
      have hspaces : ∀ pair ∈ operatorPairs, pair.2 ≠ ' ' := by decide
      refine Lexes.lexeme?_eq (.sign hsign ?_ ?_)
      · rintro ⟨-, hslash⟩
        exact absurd (hapart _ hslash) (by decide)
      · intro second hnext hmem
        exact hspaces _ hmem (hapart second hnext)
  | delimiter hdelimiter =>
      exact Lexes.lexeme?_eq (.delimiter hdelimiter)

/-- The texts of some tokens with spaces between, told by the first. -/
theorem toList_printedLine_cons (token : Token) (tokens : List Token) :
    ∃ following, (printedLine (token :: tokens)).toList =
        token.text.toList ++ following ∧
      ((tokens = [] ∧ following = []) ∨
        tokens ≠ [] ∧ following = ' ' :: (printedLine tokens).toList) := by
  rcases tokens with _ | ⟨next, others⟩
  · exact ⟨[], by simp [printedLine], Or.inl ⟨rfl, rfl⟩⟩
  · refine ⟨_, ?_, Or.inr ⟨List.cons_ne_nil _ _, rfl⟩⟩
    simp [printedLine, String.toList_intercalate]

theorem scanLine_nil (line column : Nat) : scanLine line column [] = [] := by
  rw [scanLine.eq_def]

theorem scanLine_of_eq_none {line column : Nat} {first : Char}
    {rest : List Char} (hlexeme : lexeme? first rest = none) :
    scanLine line column (first :: rest) = scanLine line (column + 1) rest := by
  rw [scanLine.eq_def]
  simp only [hlexeme]

theorem scanLine_of_eq_some {line column : Nat} {first : Char}
    {rest : List Char} {kind : Token.Kind} {extra : Nat}
    (hlexeme : lexeme? first rest = some ⟨kind, extra⟩) :
    scanLine line column (first :: rest) =
      ⟨kind, String.ofList (first :: rest.take extra), ⟨line, column⟩⟩ ::
        scanLine line (column + 1 + extra) (rest.drop extra) := by
  rw [scanLine.eq_def]
  simp only [hlexeme]

/-- The printed tokens of a line are its tokens again, up to their columns. -/
theorem scanLine_printedLine (line column start : Nat)
    (characters : List Char) :
    (scanLine line start
      (printedLine (scanLine line column characters)).toList).map
        Token.outline =
      (scanLine line column characters).map Token.outline := by
  fun_induction scanLine line column characters generalizing start with
  | case1 => simp [printedLine, scanLine_nil]
  | case2 column first rest hlexeme ih => exact ih start
  | case3 column first rest kind extra hlexeme ih =>
      obtain ⟨following, hprinted, hfollowing⟩ := toList_printedLine_cons
        ⟨kind, String.ofList (first :: rest.take extra), ⟨line, column⟩⟩
        (scanLine line (column + 1 + extra) (rest.drop extra))
      have hapart : Apart following := by
        rcases hfollowing with ⟨-, rfl⟩ | ⟨-, rfl⟩ <;> simp [Apart]
      have hends : following = [] ∨ extra < rest.length := by
        refine hfollowing.imp And.right fun hmore => ?_
        refine Nat.lt_of_not_le fun hle => hmore.1 ?_
        rw [List.drop_eq_nil_of_le hle, scanLine_nil]
      have hlength : (rest.take extra).length = extra :=
        List.length_take_of_le (lexes_of_eq hlexeme).extra_le
      -- the first token is found again, and what follows it is as in the line
      have hscan : scanLine line start ((first :: rest.take extra) ++ following) =
          ⟨kind, String.ofList (first :: rest.take extra), ⟨line, start⟩⟩ ::
            scanLine line (start + 1 + extra) following := by
        rw [List.cons_append,
          scanLine_of_eq_some (lexeme?_take_append hlexeme hapart hends),
          List.take_left' hlength, List.drop_left' hlength]
      rw [hprinted, String.toList_ofList, hscan, List.map_cons, List.map_cons]
      congr 1
      rcases hfollowing with ⟨hnil, rfl⟩ | ⟨-, rfl⟩
      · rw [hnil, scanLine_nil]
      · have hspace : isBlank ' ' = true := by decide
        rw [scanLine_of_eq_none
          (lexeme?_eq_none_of_droppable _ (Or.inl hspace))]
        exact ih _

/-! Lines that are ended by a carriage return and a line feed are found again,
also those that end with a carriage return of their own. -/

theorem lines_append_lineEnd {line : List Char} (hline : '\n' ∉ line)
    (rest : List Char) :
    lines (line ++ '\r' :: '\n' :: rest) = line :: lines rest := by
  induction line with
  | nil => simp [lines]
  | cons character line ih =>
      rw [List.mem_cons, not_or] at hline
      have hnext : ∀ others, line ++ '\r' :: '\n' :: rest ≠ '\n' :: others := by
        intro others heq
        rcases line with _ | ⟨next, line⟩
        · simp at heq
        · obtain ⟨rfl, -⟩ := List.cons.inj heq
          exact hline.2 List.mem_cons_self
      rw [List.cons_append, lines, ih hline.2]
      · exact fun heq => hline.1 heq.symm
      · exact fun others _ heq => hnext others heq

theorem lines_flatMap_lineEnd {rows : List (List Char)}
    (hrows : ∀ row ∈ rows, '\n' ∉ row) :
    lines (rows.flatMap fun row => row ++ ['\r', '\n']) = rows := by
  induction rows with
  | nil => rfl
  | cons row rows ih =>
      rw [List.forall_mem_cons] at hrows
      rw [List.flatMap_cons, List.append_assoc, List.cons_append,
        List.singleton_append, lines_append_lineEnd hrows.1, ih hrows.2]

theorem lines_without_feed (characters : List Char) :
    ∀ line ∈ lines characters, '\n' ∉ line := by
  fun_induction lines characters with
  | case1 => simp
  | case2 rest ih => simpa using ih
  | case3 rest ih => simpa using ih
  | case4 character rest hfeed hreturn hlines ih =>
      simpa using fun heq => hfeed heq.symm
  | case5 character rest hfeed hreturn first following hlines ih =>
      rw [hlines] at ih
      simpa [show '\n' ≠ character from fun heq => hfeed heq.symm] using ih

/-! The tokens of a text are sorted by their lines, so they fall into the
tokens of each line. -/

section Sorted

variable {α : Type} (key : α → Nat)

/-- Of items that are sorted by numbers, those with the least come first. -/
theorem filter_append_filter_ne (least : Nat) {items : List α}
    (hsorted : items.Pairwise fun first second => key first ≤ key second)
    (hleast : ∀ item ∈ items, least ≤ key item) :
    (items.filter fun item => key item = least) ++
      (items.filter fun item => key item ≠ least) = items := by
  induction items with
  | nil => rfl
  | cons item items ih =>
      rw [List.pairwise_cons] at hsorted
      rw [List.forall_mem_cons] at hleast
      by_cases hkey : key item = least
      · simpa [hkey] using ih hsorted.2 hleast.2
      · have hlater : ∀ other ∈ items, key other ≠ least := by
          intro other hmem
          have hle := hsorted.1 other hmem
          have hge := hleast.1
          omega
        have hnone : (items.filter fun other => key other = least) = [] := by
          simpa using hlater
        have hall : (items.filter fun other => key other ≠ least) = items := by
          simpa using hlater
        rw [List.filter_cons_of_neg (by simpa using hkey), hnone,
          List.filter_cons_of_pos (by simpa using hkey), hall]
        rfl

/-- Items that are sorted by numbers of a range are those of its first number,
then those of the next, and so on. -/
theorem flatMap_filter_eq (start count : Nat) {items : List α}
    (hsorted : items.Pairwise fun first second => key first ≤ key second)
    (hrange : ∀ item ∈ items, start ≤ key item ∧ key item < start + count) :
    ((List.range' start count).flatMap fun number =>
      items.filter fun item => key item = number) = items := by
  induction count generalizing start items with
  | zero =>
      rcases items with _ | ⟨item, items⟩
      · rfl
      · have hbounds := hrange item List.mem_cons_self
        omega
  | succ count ih =>
      have hothers : ((List.range' (start + 1) count).flatMap fun number =>
          items.filter fun item => key item = number) =
            items.filter fun item => key item ≠ start := by
        rw [← ih (start + 1) (hsorted.filter fun item => key item ≠ start)]
        · refine List.flatMap_congr fun number hnumber => ?_
          rw [List.mem_range'_1] at hnumber
          rw [List.filter_filter]
          refine List.filter_congr fun item _ => ?_
          by_cases hkey : key item = number
          · simp [hkey]
            omega
          · simp [hkey]
        · intro item hmem
          obtain ⟨hmem, hne⟩ := List.mem_filter.mp hmem
          have hbounds := hrange item hmem
          simp only [ne_eq, decide_not, Bool.not_eq_eq_eq_not, Bool.not_true,
            decide_eq_false_iff_not] at hne
          omega
      rw [List.range'_succ, List.flatMap_cons, hothers]
      exact filter_append_filter_ne key start hsorted fun item hmem =>
        (hrange item hmem).1

end Sorted

theorem line_of_mem_scanLine {line column : Nat} {characters : List Char}
    {token : Token} (hmem : token ∈ scanLine line column characters) :
    token.position.line = line := by
  obtain ⟨offset, hposition, -, -⟩ :=
    (scanLine_tiled line column characters).slice hmem
  rw [hposition]

theorem le_line_of_mem_scanLines {number : Nat} {rows : List (List Char)}
    {token : Token} (hmem : token ∈ scanLines number rows) :
    number ≤ token.position.line := by
  obtain ⟨row, characters, -, hmem⟩ := mem_scanLines_iff.mp hmem
  rw [line_of_mem_scanLine hmem]
  exact Nat.le_add_right number row

/-- The tokens on one line of a text are those of some characters without a
line feed. -/
theorem exists_onLine_scanLines (number line : Nat) {rows : List (List Char)}
    (hrows : ∀ row ∈ rows, '\n' ∉ row) :
    ∃ characters, '\n' ∉ characters ∧
      onLine (scanLines number rows) line = scanLine line 1 characters := by
  induction rows generalizing number with
  | nil => exact ⟨[], List.not_mem_nil, by simp [onLine, scanLines, scanLine_nil]⟩
  | cons row rows ih =>
      obtain ⟨hrow, hrows⟩ := List.forall_mem_cons.mp hrows
      rw [onLine, scanLines, List.filter_append]
      by_cases hline : line = number
      · subst hline
        refine ⟨row, hrow, ?_⟩
        have hall : ∀ token ∈ scanLine line 1 row,
            token.position.line = line := fun _ => line_of_mem_scanLine
        have hnone : ∀ token ∈ scanLines (line + 1) rows,
            token.position.line ≠ line := by
          intro token hmem
          have hle := le_line_of_mem_scanLines hmem
          omega
        rw [List.filter_eq_self.mpr (by simpa using hall),
          List.filter_eq_nil_iff.mpr (by simpa using hnone), List.append_nil]
      · obtain ⟨characters, hfeed, honLine⟩ := ih (number + 1) hrows
        refine ⟨characters, hfeed, ?_⟩
        have hnone : ∀ token ∈ scanLine number 1 row,
            token.position.line ≠ line := by
          intro token hmem
          rw [line_of_mem_scanLine hmem]
          exact fun heq => hline heq.symm
        rw [List.filter_eq_nil_iff.mpr (by simpa using hnone), List.nil_append,
          ← honLine, onLine]

theorem tokenize_sorted (source : String) :
    (tokenize source).Pairwise fun first second =>
      first.position.line ≤ second.position.line := by
  refine (scanLines_pairwise 1 (lines source.toList)).imp ?_
  intro first second hprecedes
  refine Nat.le_of_not_lt fun hlt => ?_
  have horder := hprecedes.1
  rw [Position.order, Nat.compare_eq_gt.mpr hlt] at horder
  contradiction

/-- The tokens of a text are those on its first line, those on its second, and
so on to the last line that bears one. -/
theorem flatMap_onLine (source : String) :
    (List.range' 1 (lastLine (tokenize source))).flatMap
      (onLine (tokenize source)) = tokenize source := by
  refine flatMap_filter_eq (fun token : Token => token.position.line) 1 _
    (tokenize_sorted source) fun token hmem => ?_
  have hfirst : 1 ≤ token.position.line := le_line_of_mem_scanLines hmem
  have hlast : token.position.line ≤ lastLine (tokenize source) :=
    List.le_max?_getD_of_mem (List.mem_map_of_mem hmem)
  omega

theorem scanLines_map_range' (row : Nat → List Char) (number count : Nat) :
    scanLines number ((List.range' number count).map row) =
      (List.range' number count).flatMap fun line =>
        scanLine line 1 (row line) := by
  induction count generalizing number with
  | zero => rfl
  | succ count ih => simp [List.range'_succ, scanLines, ih]

theorem printedLine_without_feed {tokens : List Token}
    (htokens : ∀ token ∈ tokens, '\n' ∉ token.text.toList) :
    '\n' ∉ (printedLine tokens).toList := by
  induction tokens with
  | nil => simp [printedLine]
  | cons token tokens ih =>
      rw [List.forall_mem_cons] at htokens
      obtain ⟨following, hprinted, hfollowing⟩ :=
        toList_printedLine_cons token tokens
      rw [hprinted, List.mem_append, not_or]
      refine ⟨htokens.1, ?_⟩
      rcases hfollowing with ⟨-, rfl⟩ | ⟨-, rfl⟩
      · exact List.not_mem_nil
      · simpa using ih htokens.2

/-- What is printed for a line of a text has no line feed in it and gives the
tokens on that line again. -/
theorem printedLine_onLine (source : String) (line : Nat) :
    '\n' ∉ (printedLine (onLine (tokenize source) line)).toList ∧
      (scanLine line 1
        (printedLine (onLine (tokenize source) line)).toList).map Token.outline =
        (onLine (tokenize source) line).map Token.outline := by
  obtain ⟨characters, hfeed, honLine⟩ := exists_onLine_scanLines 1 line
    (lines_without_feed source.toList)
  rw [tokenize, honLine]
  refine ⟨printedLine_without_feed fun token hmem hfound => hfeed ?_,
    scanLine_printedLine line 1 1 characters⟩
  obtain ⟨offset, -, -, htext⟩ := (scanLine_tiled line 1 characters).slice hmem
  rw [htext] at hfound
  exact List.mem_of_mem_drop (List.mem_of_mem_take hfound)

/-- Printing the tokens of a text and reading them again gives the same kinds
and texts on the same lines. -/
theorem tokenize_printed (source : String) :
    (tokenize (printed (tokenize source))).map Token.outline =
      (tokenize source).map Token.outline := by
  have hlines : lines (printed (tokenize source)).toList =
      (List.range' 1 (lastLine (tokenize source))).map fun line =>
        (printedLine (onLine (tokenize source) line)).toList := by
    rw [← lines_flatMap_lineEnd (List.forall_mem_map.mpr fun line _ =>
      (printedLine_onLine source line).1), List.flatMap_map, printed,
      String.toList_join, List.flatMap_map]
    simp only [String.toList_append]
    rfl
  calc (tokenize (printed (tokenize source))).map Token.outline
      = (List.range' 1 (lastLine (tokenize source))).flatMap fun line =>
          (scanLine line 1 (printedLine
            (onLine (tokenize source) line)).toList).map Token.outline := by
        rw [tokenize, hlines, scanLines_map_range', List.map_flatMap]
    _ = (List.range' 1 (lastLine (tokenize source))).flatMap fun line =>
          (onLine (tokenize source) line).map Token.outline := by
        simp only [(printedLine_onLine source _).2]
    _ = (tokenize source).map Token.outline := by
        rw [← List.map_flatMap, flatMap_onLine]

example : printed (tokenize "x<<=1@//a \n\n'b\\\r") =
    "x << = 1 //a \r\n\r\n'b\\\r\r\n" := by decide +kernel

end ThreeAddress
