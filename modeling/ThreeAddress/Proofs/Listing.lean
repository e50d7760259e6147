import ThreeAddress.Compilation.Format
import ThreeAddress.Proofs.Children
import ThreeAddress.Proofs.LineEnds
import ThreeAddress.Proofs.Simulation
import ThreeAddress.Proofs.UsageMarks

/-!
Listings that can be read back.  Nothing in a listing is escaped, although
literals and comments may hold tabs and may look like lines of a listing
themselves.  But no field before the last one of a line holds a tab, and no item
holds a line feed, so that the first tab and the first line feed are always
those that the listing has put there.
-/

namespace ThreeAddress

/-- A text that is empty or starts with the separator. -/
def Separated (separator : Char) (text : String) : Prop :=
  ∀ character ∈ text.toList.head?, character = separator

theorem takeWhile_append_separated {separator : Char} {field rest : String}
    (hfield : separator ∉ field.toList) (hrest : Separated separator rest) :
    (field ++ rest).toList.takeWhile (· != separator) = field.toList := by
  have hkeep : ∀ character ∈ field.toList, (character != separator) = true := by
    intro character hmem
    rw [bne_iff_ne]
    rintro rfl
    exact hfield hmem
  have hstop : rest.toList.takeWhile (· != separator) = [] := by
    rcases hlist : rest.toList with _ | ⟨character, characters⟩
    · rfl
    · have hseparator : character = separator :=
        hrest character (by rw [hlist, List.head?_cons]; rfl)
      simp [hseparator]
  rw [String.toList_append, List.takeWhile_append_of_pos hkeep, hstop,
    List.append_nil]

/-- A field without separators is told from the text after it, which starts with
a separator if there is any. -/
theorem eq_of_append_separated {separator : Char}
    {first second rest others : String}
    (hfirst : separator ∉ first.toList) (hsecond : separator ∉ second.toList)
    (hrest : Separated separator rest) (hothers : Separated separator others)
    (heq : first ++ rest = second ++ others) :
    first = second ∧ rest = others := by
  have hfields : first = second := by
    rw [← String.toList_inj, ← takeWhile_append_separated hfirst hrest, heq,
      takeWhile_append_separated hsecond hothers]
  subst hfields
  exact ⟨rfl, (String.append_right_inj first).mp heq⟩

/-- A field without separators is told from what follows the same mark after
it. -/
theorem field_eq {separator : Char} {mark first second rest others : String}
    (hmark : mark.toList.head? = some separator)
    (hfirst : separator ∉ first.toList) (hsecond : separator ∉ second.toList)
    (heq : first ++ (mark ++ rest) = second ++ (mark ++ others)) :
    first = second ∧ rest = others := by
  have hseparated : ∀ after : String, Separated separator (mark ++ after) := by
    simp [Separated, List.head?_append, hmark]
  obtain ⟨hfields, hmarks⟩ := eq_of_append_separated hfirst hsecond
    (hseparated rest) (hseparated others) heq
  exact ⟨hfields, (String.append_right_inj mark).mp hmarks⟩

/-! Numbers and fixed names. -/

theorem not_mem_repr {character : Char} (hdigit : character.isDigit = false)
    (number : Nat) : character ∉ number.repr.toList := by
  rw [Nat.toList_repr]
  intro hmem
  rw [isDigit_of_mem_toDigits hmem] at hdigit
  contradiction

theorem Position.text_injective {first second : Position}
    (heq : first.text = second.text) : first = second := by
  obtain ⟨line, column⟩ := first
  obtain ⟨otherLine, otherColumn⟩ := second
  simp only [text, String.append_assoc] at heq
  obtain ⟨hline, hcolumn⟩ := field_eq rfl (not_mem_repr (by decide) line)
    (not_mem_repr (by decide) otherLine) heq
  rw [Position.mk.injEq]
  exact ⟨repr_injective hline, repr_injective hcolumn⟩

theorem Position.not_mem_text {character : Char}
    (hdigit : character.isDigit = false) (hcolon : character ≠ ':')
    (position : Position) : character ∉ position.text.toList := by
  have hline := not_mem_repr hdigit position.line
  have hcolumn := not_mem_repr hdigit position.column
  rw [text, String.toList_append, String.toList_append]
  simpa only [List.mem_append, not_or] using ⟨⟨hline, by simpa⟩, hcolumn⟩

namespace Token.Kind

theorem title_injective {first second : Token.Kind}
    (heq : first.title = second.title) : first = second := by
  revert heq
  rcases first <;> rcases second <;> decide

theorem not_mem_title {character : Char}
    (hcharacter : character = '\t' ∨ character = '\n') (kind : Token.Kind) :
    character ∉ kind.title.toList := by
  rcases hcharacter with rfl | rfl <;> rcases kind <;> decide

end Token.Kind

namespace Ty

theorem name_injective {first second : Ty} (heq : first.name = second.name) :
    first = second := by
  revert heq
  rcases first <;> rcases second <;> decide

theorem not_mem_name {character : Char}
    (hcharacter : character = '\t' ∨ character = '\n') (ty : Ty) :
    character ∉ ty.name.toList := by
  rcases hcharacter with rfl | rfl <;> rcases ty <;> decide

end Ty

/-! The lines of items. -/

/-- The line of a token tells the token. -/
theorem Token.listed_injective {first second : Token}
    (heq : first.listed = second.listed) : first = second := by
  obtain ⟨kind, text, position⟩ := first
  obtain ⟨otherKind, otherText, otherPosition⟩ := second
  simp only [listed, String.append_assoc] at heq
  obtain ⟨hposition, hfields⟩ := field_eq rfl
    (Position.not_mem_text (by decide) (by decide) position)
    (Position.not_mem_text (by decide) (by decide) otherPosition) heq
  obtain ⟨hkind, htext⟩ := field_eq rfl (Kind.not_mem_title (Or.inl rfl) kind)
    (Kind.not_mem_title (Or.inl rfl) otherKind) hfields
  rw [Token.mk.injEq]
  exact ⟨Kind.title_injective hkind, htext, Position.text_injective hposition⟩

namespace Symbol

/-- What the line of a symbol ends with. -/
def listedLiteral : Option String → String
  | none => ""
  | some text => "\t= " ++ text

theorem listed_eq (symbol : Symbol) :
    symbol.listed = symbol.name ++ ("\t" ++ (symbol.ty.name ++ ("\tscope #" ++
      (symbol.scope.repr ++ ("\tline " ++ (symbol.line.repr ++
        listedLiteral symbol.literal)))))) := by
  have hscope : "\tscope #" = "\tscope " ++ "#" := by decide
  simp only [listed, Scope.label, hscope, String.append_assoc]
  rfl

theorem listedLiteral_separated (literal : Option String) :
    Separated '\t' (listedLiteral literal) := by
  rcases literal with _ | text <;> simp [Separated, listedLiteral]

theorem listedLiteral_injective {first second : Option String}
    (heq : listedLiteral first = listedLiteral second) : first = second := by
  rcases first with _ | text <;> rcases second with _ | other
  · rfl
  · simp [listedLiteral, ← String.toList_inj] at heq
  · simp [listedLiteral, ← String.toList_inj] at heq
  · exact congrArg some ((String.append_right_inj _).mp heq)

/-- The line of a symbol tells the symbol, if no tab is in its name. -/
theorem eq_of_listed {first second : Symbol}
    (hfirst : '\t' ∉ first.name.toList) (hsecond : '\t' ∉ second.name.toList)
    (heq : first.listed = second.listed) : first = second := by
  obtain ⟨name, ty, scope, line, literal⟩ := first
  obtain ⟨otherName, otherTy, otherScope, otherLine, otherLiteral⟩ := second
  simp only [listed_eq] at heq
  obtain ⟨hname, hfields⟩ := field_eq rfl hfirst hsecond heq
  obtain ⟨hty, hfields⟩ := field_eq rfl (Ty.not_mem_name (Or.inl rfl) ty)
    (Ty.not_mem_name (Or.inl rfl) otherTy) hfields
  obtain ⟨hscope, hfields⟩ := field_eq rfl (not_mem_repr (by decide) scope)
    (not_mem_repr (by decide) otherScope) hfields
  obtain ⟨hline, hliteral⟩ := eq_of_append_separated
    (not_mem_repr (by decide) line) (not_mem_repr (by decide) otherLine)
    (listedLiteral_separated literal) (listedLiteral_separated otherLiteral)
    hfields
  rw [Symbol.mk.injEq]
  exact ⟨hname, Ty.name_injective hty, repr_injective hscope,
    repr_injective hline, listedLiteral_injective hliteral⟩

end Symbol

/-- The listing of some items tells the items, if no line feed is in their lines
and each line tells its item. -/
theorem eq_of_listing {α : Type} {line : α → String} {first second : List α}
    (hfirst : ∀ item ∈ first, '\n' ∉ (line item).toList)
    (hsecond : ∀ item ∈ second, '\n' ∉ (line item).toList)
    (hline : ∀ item ∈ first, ∀ other ∈ second, line item = line other →
      item = other)
    (heq : listing (first.map line) = listing (second.map line)) :
    first = second := by
  have hcons : ∀ item items, listing ((item :: items).map line) =
      line item ++ ("\n" ++ listing (items.map line)) := by
    intro item items
    simp only [listing, List.map_cons, String.join_cons, String.append_assoc]
  have hnil : ∀ item items, listing ([].map line) ≠
      listing ((item :: items).map line) := by
    intro item items hempty
    have hlists := congrArg String.toList hempty
    simp [listing] at hlists
  induction first generalizing second with
  | nil =>
      rcases second with _ | ⟨other, others⟩
      · rfl
      · exact absurd heq (hnil other others)
  | cons item items ih =>
      rcases second with _ | ⟨other, others⟩
      · exact absurd heq.symm (hnil item items)
      · rw [hcons, hcons] at heq
        obtain ⟨hsame, hrest⟩ := field_eq rfl (hfirst item List.mem_cons_self)
          (hsecond other List.mem_cons_self) heq
        have hitem := hline item List.mem_cons_self other List.mem_cons_self hsame
        have hitems := ih
          (fun next hnext => hfirst next (List.mem_cons_of_mem item hnext))
          (fun next hnext => hsecond next (List.mem_cons_of_mem other hnext))
          (fun next hnext more hmore => hline next
            (List.mem_cons_of_mem item hnext) more
            (List.mem_cons_of_mem other hmore)) hrest
        rw [hitem, hitems]

/-! What tokens and symbols hold. -/

theorem not_mem_of_mem_tokenize {source : String} {token : Token}
    (hmem : token ∈ tokenize source) : '\n' ∉ token.text.toList := by
  obtain ⟨row, characters, hrow, hmem⟩ := mem_scanLines_iff.mp hmem
  obtain ⟨index, first, rest, extra, -, hdrop, -, htext⟩ :=
    exists_lexeme_of_mem_scanLine hmem
  intro hfeed
  apply lines_without_feed source.toList characters (List.mem_of_getElem? hrow)
  apply List.drop_subset index
  rw [hdrop]
  rw [htext, String.toList_ofList] at hfeed
  exact List.cons_subset_cons first (List.take_subset extra rest) hfeed

theorem Token.not_mem_listed {source : String} {token : Token}
    (hmem : token ∈ tokenize source) : '\n' ∉ token.listed.toList := by
  have hposition : '\n' ∉ token.position.text.toList :=
    Position.not_mem_text (by decide) (by decide) token.position
  have hkind : '\n' ∉ token.kind.title.toList :=
    Kind.not_mem_title (Or.inr rfl) token.kind
  have htext := not_mem_of_mem_tokenize hmem
  simp [listed, hposition, hkind, htext]

namespace Node

theorem marksAll_toList (node : Option Node) :
    marksAll node.toList = marksOption node := by
  rw [← List.append_nil node.toList, marksAll_toList_append]
  exact List.append_nil _

theorem marks_subset_marksAll {node : Node} {nodes : List Node}
    (hmem : node ∈ nodes) : node.marks ⊆ marksAll nodes := by
  induction nodes with
  | nil => contradiction
  | cons first rest ih =>
      rcases List.mem_cons.mp hmem with rfl | hmem
      · exact List.subset_append_left _ _
      · exact List.Subset.trans (ih hmem) (List.subset_append_right _ _)

theorem marksAll_children_subset (node : Node) :
    marksAll node.children ⊆ node.marks := by
  cases node with
  | compound form statements position =>
      cases form <;> simp [children, marks]
  | _ => simp [children, marks, marksAll, marksAll_toList, marksAll_toList_append]

/-- What a part of a tree stands for is among what the tree stands for. -/
theorem marks_subset_of_mem_preorder {node part : Node}
    (hpart : part ∈ node.preorder) : part.marks ⊆ node.marks := by
  induction node using children_induction with
  | step node ih =>
      rw [preorder_eq, List.mem_cons, mem_preorderAll_iff] at hpart
      rcases hpart with rfl | ⟨child, hchild, hpart⟩
      · exact List.Subset.refl _
      · have hamong := List.Subset.trans (marks_subset_marksAll hchild)
          node.marksAll_children_subset
        exact List.Subset.trans (ih child hchild hpart) hamong

theorem exists_of_bind_literalText? {node : Option Node} {text : String}
    (htext : node.bind literalText? = some text) :
    ∃ position, ⟨.literal, text, position⟩ ∈ marksOption node := by
  obtain ⟨value, rfl, hvalue⟩ := Option.bind_eq_some_iff.mp htext
  cases value with
  | literal text position =>
      cases hvalue
      exact ⟨position, List.mem_cons_self⟩
  | _ => cases hvalue

end Node

/-- A symbol is declared by a part of the tree. -/
theorem exists_declaration_of_mem_symbols {root : Node} {symbol : Symbol}
    (hmem : symbol ∈ (analyze root).symbols) :
    ∃ ty name initializer position,
      .declaration ty name initializer position ∈ root.preorder ∧
        name.text = symbol.name ∧
        initializer.bind Node.literalText? = symbol.literal := by
  rw [analyze_symbols] at hmem
  obtain ⟨⟨earlier, node, scopes⟩, hoccurrence, hsymbol⟩ :=
    List.mem_filterMap.mp hmem
  have hlisted : ⟨node, scopes⟩ ∈ root.visits [0] 1 := by
    rw [← occurrences_map_visit [] (root.visits [0] 1)]
    exact List.mem_map_of_mem hoccurrence
  have hnode : node ∈ root.preorder := by
    rw [← root.visits_map_node [0] 1]
    exact List.mem_map_of_mem hlisted
  obtain ⟨hvisit, -⟩ := Occurrence.symbol?_eq_some_iff.mp hsymbol
  rw [Visit.symbol?] at hvisit
  split at hvisit
  · rename_i ty name initializer position scope outer hdeclaration hscopes
    cases hvisit
    exact ⟨ty, name, initializer, position, hdeclaration ▸ hnode, rfl, rfl⟩
  · cases hvisit

/-- The name of a symbol is an identifier of the source, and its initializer a
literal of the source. -/
theorem exists_token_of_mem_symbols {source : String} {symbol : Symbol}
    (hmem : symbol ∈ (compile source).analysis.symbols) :
    (∃ token ∈ tokenize source, token.kind = .identifier ∧
      token.text = symbol.name) ∧
    ∀ text ∈ symbol.literal, ∃ token ∈ tokenize source, token.text = text := by
  obtain ⟨ty, name, initializer, position, hnode, hname, hliteral⟩ :=
    exists_declaration_of_mem_symbols hmem
  have hmarks := Node.marks_subset_of_mem_preorder hnode
  constructor
  · obtain ⟨token, htoken, hmark⟩ := exists_token_of_mem_marks
      (hmarks (List.mem_cons_of_mem _ List.mem_cons_self))
    exact ⟨token, htoken, congrArg Mark.kind hmark,
      (congrArg Mark.text hmark).trans hname⟩
  · intro text htext
    rw [← hliteral] at htext
    obtain ⟨place, hplace⟩ := Node.exists_of_bind_literalText? htext
    obtain ⟨token, htoken, hmark⟩ := exists_token_of_mem_marks
      (hmarks (List.mem_cons_of_mem _ (List.mem_cons_of_mem _ hplace)))
    exact ⟨token, htoken, congrArg Mark.text hmark⟩

theorem isWordPart_of_isWord {word : String} (hword : isWord word = true)
    {character : Char} (hmem : character ∈ word.toList) :
    isWordPart character = true := by
  rw [isWord] at hword
  rcases hlist : word.toList with _ | ⟨first, rest⟩
  · simp [hlist] at hmem
  · simp only [hlist, Bool.and_eq_true, List.all_eq_true] at hword
    rw [hlist] at hmem
    rcases List.mem_cons.mp hmem with rfl | hmem
    · simp [isWordPart, hword.1]
    · exact hword.2 character hmem

theorem Symbol.not_mem_name {source : String} {symbol : Symbol}
    (hmem : symbol ∈ (compile source).analysis.symbols) {character : Char}
    (hcharacter : character = '\t' ∨ character = '\n') :
    character ∉ symbol.name.toList := by
  obtain ⟨token, htoken, hkind, htext⟩ := (exists_token_of_mem_symbols hmem).1
  have hname := isName_of_identifier htoken hkind
  rw [isName, Bool.and_eq_true] at hname
  rw [← htext]
  intro hoccurs
  have hpart := isWordPart_of_isWord hname.1 hoccurs
  rcases hcharacter with rfl | rfl <;> exact absurd hpart (by decide)

theorem Symbol.not_mem_listed {source : String} {symbol : Symbol}
    (hmem : symbol ∈ (compile source).analysis.symbols) :
    '\n' ∉ symbol.listed.toList := by
  have hname := not_mem_name hmem (Or.inr rfl)
  have hty : '\n' ∉ symbol.ty.name.toList := Ty.not_mem_name (Or.inr rfl) symbol.ty
  have hscope : '\n' ∉ symbol.scope.repr.toList :=
    not_mem_repr (by decide) symbol.scope
  have hline : '\n' ∉ symbol.line.repr.toList :=
    not_mem_repr (by decide) symbol.line
  have hliteral : '\n' ∉ (listedLiteral symbol.literal).toList := by
    rcases hliteral : symbol.literal with _ | text
    · simp [listedLiteral]
    · obtain ⟨token, htoken, rfl⟩ :=
        (exists_token_of_mem_symbols hmem).2 text hliteral
      simpa [listedLiteral] using not_mem_of_mem_tokenize htoken
  rw [listed_eq]
  simp only [String.toList_append, List.mem_append, not_or]
  exact ⟨hname, by decide, hty, by decide, hscope, by decide, hline, hliteral⟩

/-- Listings of tokens and of symbols can be read back: two sources have the same
listing of their tokens exactly if they have the same tokens, and the same
listing of their symbols exactly if they have the same symbols, each with its
name, type, scope, line and literal. -/
theorem compile_listing_eq_iff (first second : String) :
    ((compile first).listing .tokens = (compile second).listing .tokens ↔
      tokenize first = tokenize second) ∧
    ((compile first).listing .symbols = (compile second).listing .symbols ↔
      (compile first).analysis.symbols = (compile second).analysis.symbols) := by
  constructor
  · constructor
    · apply eq_of_listing
      · exact fun _ => Token.not_mem_listed
      · exact fun _ => Token.not_mem_listed
      · exact fun _ _ _ _ => Token.listed_injective
    · intro htokens
      have hsame : (compile first).tokens = (compile second).tokens := htokens
      rw [Compilation.listing, Compilation.listing, hsame]
  · constructor
    · apply eq_of_listing
      · exact fun _ => Symbol.not_mem_listed
      · exact fun _ => Symbol.not_mem_listed
      · intro symbol hsymbol other hother
        exact Symbol.eq_of_listed (Symbol.not_mem_name hsymbol (Or.inl rfl))
          (Symbol.not_mem_name hother (Or.inl rfl))
    · intro hsymbols
      rw [Compilation.listing, Compilation.listing, hsymbols]

end ThreeAddress
