import Mathlib.Data.List.Nodup
import ThreeAddress.Proofs.Visit

/-!
What happens to symbols, told from the tree alone.  A symbol has a value from
the visit on that gives it one: that of the declaration that brings it in, if
there is an initializer, or that of an assignment to it.  It is used by the
assignments to it, and where an identifier refers to it when it has a value.
-/

namespace ThreeAddress

namespace Node

def hasInitializer : Node → Bool
  | declaration _ _ initializer _ => initializer.isSome
  | _ => false

def assignedName? : Node → Option String
  | assignment target _ _ => some target.text
  | _ => none

/-- The name that an identifier is. -/
def readName? : Node → Option String
  | identifier text _ => some text
  | _ => none

end Node

namespace Occurrence

def referent? (occurrence : Occurrence) (name : String) : Option Symbol :=
  (occurrence.binding? name).bind Visit.symbol?

def assigned? (occurrence : Occurrence) : Option Symbol :=
  occurrence.visit.node.assignedName?.bind occurrence.referent?

/-- The symbol that an identifier refers to. -/
def read? (occurrence : Occurrence) : Option Symbol :=
  occurrence.visit.node.readName?.bind occurrence.referent?

/-- Whether the symbol is given a value: by the declaration that brings it in,
or by an assignment. -/
def gives (occurrence : Occurrence) (symbol : Symbol) : Bool :=
  (occurrence.symbol? == some symbol &&
      occurrence.visit.node.hasInitializer) ||
    occurrence.assigned? == some symbol

end Occurrence

/-- Whether the symbol has a value after some visits. -/
def hasValue (visits : List Visit) (symbol : Symbol) : Bool :=
  (occurrences [] visits).any fun occurrence => occurrence.gives symbol

/-- Whether the symbol is used: by an assignment, or by an identifier when the
symbol has a value. -/
def Occurrence.uses (occurrence : Occurrence) (symbol : Symbol) : Bool :=
  occurrence.assigned? == some symbol ||
    (occurrence.read? == some symbol && hasValue occurrence.earlier symbol)

def isUsed (visits : List Visit) (symbol : Symbol) : Bool :=
  (occurrences [] visits).any fun occurrence => occurrence.uses symbol

/-- What has happened to a symbol on some visits. -/
def usageAfter (visits : List Visit) (symbol : Symbol) : Usage :=
  ⟨isUsed visits symbol, hasValue visits symbol⟩

/-- What has happened to the symbols that some visits bring in. -/
def usagesAfter (visits : List Visit) : List Usage :=
  (declared visits).map (usageAfter visits)

/-- What is to be reported at an identifier that refers to a symbol without a
value. -/
def Occurrence.premature? (occurrence : Occurrence) : Option Diagnostic :=
  occurrence.visit.node.readName?.bind fun name =>
    (occurrence.referent? name).bind fun symbol =>
      if hasValue occurrence.earlier symbol then none
      else some ⟨.uninitialized name, occurrence.visit.node.line⟩

/-- On a visit that uses no name, no symbol is told of but the one that the
visit may bring in. -/
theorem Occurrence.silent (occurrence : Occurrence)
    (huse : occurrence.visit.node.use? = none) :
    occurrence.assigned? = none ∧ occurrence.read? = none ∧
      occurrence.premature? = none := by
  obtain ⟨earlier, ⟨node, scopes⟩⟩ := occurrence
  cases node with
  | assignment target value position => simp [Node.use?] at huse
  | identifier text position => simp [Node.use?] at huse
  | _ => exact ⟨rfl, rfl, rfl⟩

theorem Visit.use?_of_symbol? {visit : Visit} {symbol : Symbol}
    (hsymbol : visit.symbol? = some symbol) : visit.node.use? = none := by
  obtain ⟨node, scopes⟩ := visit
  cases node with
  | declaration ty name initializer position => rfl
  | _ => simp [Visit.symbol?] at hsymbol

/-! A symbol is told of only after its declaration. -/

theorem exists_of_mem_occurrences {earlier visits : List Visit}
    {occurrence : Occurrence} (hmem : occurrence ∈ occurrences earlier visits) :
    ∃ before after, visits = before ++ occurrence.visit :: after ∧
      occurrence.earlier = earlier ++ before := by
  induction visits generalizing earlier with
  | nil => simp [occurrences] at hmem
  | cons visit rest ih =>
      rcases List.mem_cons.mp hmem with rfl | hmem
      · exact ⟨[], rest, rfl, (List.append_nil earlier).symm⟩
      · obtain ⟨before, after, rfl, hearlier⟩ := ih hmem
        exact ⟨visit :: before, after, rfl, by simpa using hearlier⟩

theorem Occurrence.declared_subset {visits : List Visit}
    {occurrence : Occurrence} (hmem : occurrence ∈ occurrences [] visits) :
    declared occurrence.earlier ⊆ declared visits := by
  obtain ⟨before, after, rfl, hearlier⟩ := exists_of_mem_occurrences hmem
  rw [hearlier, List.nil_append]
  exact (declared_mono before _).subset

/-- What a name refers to has been declared before. -/
theorem Occurrence.mem_of_referent? {occurrence : Occurrence}
    {name? : Option String} {symbol : Symbol}
    (hreferent : name?.bind occurrence.referent? = some symbol) :
    symbol ∈ declared occurrence.earlier := by
  obtain ⟨name, -, hname⟩ := Option.bind_eq_some_iff.mp hreferent
  obtain ⟨declaration, hbinding, hsymbol⟩ := Option.bind_eq_some_iff.mp hname
  obtain ⟨scope, -, hfirst⟩ := List.exists_of_findSome?_eq_some hbinding
  have hfind := declared_find? occurrence.earlier name scope
  rw [hfirst, Option.bind_some, hsymbol] at hfind
  exact List.mem_of_find?_eq_some hfind

/-- Nothing has happened to a symbol that is not there yet. -/
theorem usageAfter_of_not_mem {visits : List Visit} {symbol : Symbol}
    (hsymbol : symbol ∉ declared visits) :
    usageAfter visits symbol = ⟨false, false⟩ := by
  have hreferent : ∀ occurrence ∈ occurrences [] visits, ∀ name?,
      Option.bind name? occurrence.referent? ≠ some symbol :=
    fun occurrence hmem name? heq => hsymbol
      (Occurrence.declared_subset hmem (Occurrence.mem_of_referent? heq))
  have hbrought : ∀ occurrence ∈ occurrences [] visits,
      occurrence.symbol? ≠ some symbol := fun occurrence hmem heq =>
    hsymbol (List.mem_filterMap.mpr ⟨occurrence, hmem, heq⟩)
  have hused : isUsed visits symbol = false := by
    rw [isUsed, List.any_eq_false]
    intro occurrence hmem
    simp [Occurrence.uses, Occurrence.assigned?, Occurrence.read?,
      hreferent occurrence hmem]
  have hvalue : hasValue visits symbol = false := by
    rw [hasValue, List.any_eq_false]
    intro occurrence hmem
    simp [Occurrence.gives, Occurrence.assigned?, hreferent occurrence hmem,
      hbrought occurrence hmem]
  rw [usageAfter, hused, hvalue]

theorem usageAfter_append_singleton (visits : List Visit) (visit : Visit)
    (symbol : Symbol) :
    usageAfter (visits ++ [visit]) symbol =
      ⟨isUsed visits symbol || Occurrence.uses ⟨visits, visit⟩ symbol,
        hasValue visits symbol || Occurrence.gives ⟨visits, visit⟩ symbol⟩ := by
  simp [usageAfter, isUsed, hasValue, occurrences_append, occurrences]

/-- What a visit that brings in no symbol adds. -/
theorem usagesAfter_append_of_eq_none {earlier : List Visit} {visit : Visit}
    (hsymbol : Occurrence.symbol? ⟨earlier, visit⟩ = none) :
    let occurrence : Occurrence := ⟨earlier, visit⟩
    usagesAfter (earlier ++ [visit]) =
      (declared earlier).map fun symbol =>
        ⟨isUsed earlier symbol || (occurrence.assigned? == some symbol ||
            (occurrence.read? == some symbol && hasValue earlier symbol)),
          hasValue earlier symbol || occurrence.assigned? == some symbol⟩ := by
  intro occurrence
  rw [usagesAfter, declared_append_singleton, hsymbol, Option.toList_none,
    List.append_nil]
  refine List.map_congr_left fun symbol _ => ?_
  rw [usageAfter_append_singleton, Occurrence.gives, hsymbol]
  rfl

/-- What a visit that brings in a symbol adds. -/
theorem usagesAfter_append_of_eq_some {earlier : List Visit} {visit : Visit}
    {symbol : Symbol}
    (hsymbol : Occurrence.symbol? ⟨earlier, visit⟩ = some symbol) :
    usagesAfter (earlier ++ [visit]) =
      usagesAfter earlier ++ [⟨false, visit.node.hasInitializer⟩] := by
  have hvisit := (Occurrence.symbol?_eq_some_iff.mp hsymbol).1
  obtain ⟨hassigned, hread, -⟩ := Occurrence.silent ⟨earlier, visit⟩
    (Visit.use?_of_symbol? hvisit)
  have hnodup : (declared (earlier ++ [visit])).Nodup :=
    .of_map _ (declared_nodup (earlier ++ [visit]))
  rw [declared_append_singleton, hsymbol, Option.toList_some,
    List.nodup_append_comm, List.singleton_append, List.nodup_cons] at hnodup
  have hnew := usageAfter_of_not_mem hnodup.1
  rw [usageAfter, Usage.mk.injEq] at hnew
  rw [usagesAfter, declared_append_singleton, hsymbol, Option.toList_some,
    List.map_append, List.map_singleton, usagesAfter]
  -- nothing happens to the symbols that were there before
  congr 1
  · refine List.map_congr_left fun other hother => ?_
    have hne : symbol ≠ other := fun heq => hnodup.1 (heq ▸ hother)
    rw [usageAfter_append_singleton]
    simp [Occurrence.uses, Occurrence.gives, hassigned, hread, hsymbol, hne,
      usageAfter]
  · rw [usageAfter_append_singleton]
    simp [Occurrence.uses, Occurrence.gives, hassigned, hread, hsymbol, hnew]

/-! The declaration that brings in a symbol is the first of its name in its
scope, so there is only one. -/

theorem Occurrence.find?_of_symbol? {visits : List Visit}
    {occurrence : Occurrence} {symbol : Symbol}
    (hmem : occurrence ∈ occurrences [] visits)
    (hsymbol : occurrence.symbol? = some symbol) :
    (visits.find? fun visit => visit.declares symbol.name symbol.scope) =
      some occurrence.visit := by
  obtain ⟨before, after, rfl, hearlier⟩ := exists_of_mem_occurrences hmem
  obtain ⟨hvisit, hfirst⟩ := symbol?_eq_some_iff.mp hsymbol
  rw [hearlier, List.nil_append] at hfirst
  rw [List.find?_append, hfirst, Option.none_or, List.find?_cons_of_pos]
  simp [Visit.declares, hvisit]

theorem hasValue_eq_false_iff {visits : List Visit} {creator : Occurrence}
    {symbol : Symbol} (hmem : creator ∈ occurrences [] visits)
    (hcreator : creator.symbol? = some symbol) :
    hasValue visits symbol = false ↔
      creator.visit.node.hasInitializer = false ∧
        ∀ other ∈ occurrences [] visits, other.assigned? ≠ some symbol := by
  have hsame : ∀ other ∈ occurrences [] visits,
      other.symbol? = some symbol → other.visit = creator.visit := by
    intro other hother hsymbol
    have hfirst := Occurrence.find?_of_symbol? hother hsymbol
    rw [Occurrence.find?_of_symbol? hmem hcreator] at hfirst
    exact (Option.some.inj hfirst).symm
  rw [hasValue, List.any_eq_false]
  simp only [Occurrence.gives, Bool.or_eq_true, Bool.and_eq_true, beq_iff_eq,
    not_or, not_and, Bool.not_eq_true]
  constructor
  · intro hnone
    exact ⟨(hnone creator hmem).1 hcreator, fun other hother =>
      (hnone other hother).2⟩
  · rintro ⟨hinitializer, hassigned⟩ other hother
    refine ⟨fun hsymbol => ?_, hassigned other hother⟩
    rw [hsame other hother hsymbol]
    exact hinitializer

theorem Occurrence.premature?_isSome {occurrence : Occurrence}
    {symbol : Symbol} (hread : occurrence.read? = some symbol) :
    occurrence.premature?.isSome = true ↔
      hasValue occurrence.earlier symbol = false := by
  obtain ⟨name, hname, hreferent⟩ := Option.bind_eq_some_iff.mp hread
  cases hvalue : hasValue occurrence.earlier symbol <;>
    simp [premature?, hname, hreferent, hvalue]

end ThreeAddress
