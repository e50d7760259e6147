import ThreeAddress.Proofs.FileTree
import ThreeAddress.Proofs.Progress

/-!
The source files of a directory.  They come in the order of their paths, no two
with the same path, and each is led to by proper names, of which the last is a
stem, a dot and the extension.
-/

namespace ThreeAddress

/-! Orders that tell any two different items apart. -/

/-- A strict order in which of two different items one comes first. -/
structure StrictlyOrders {α : Type} (before : α → α → Bool) : Prop where
  irrefl : ∀ item, before item item = false
  trans : ∀ first second third, before first second = true →
    before second third = true → before first third = true
  total : ∀ first second, first ≠ second →
    before first second = true ∨ before second first = true

namespace StrictlyOrders

variable {α : Type} {before : α → α → Bool}

theorem ne (horder : StrictlyOrders before) {first second : α}
    (hbefore : before first second = true) : first ≠ second := by
  rintro rfl
  rw [horder.irrefl] at hbefore
  contradiction

theorem asymm (horder : StrictlyOrders before) {first second : α}
    (hfirst : before first second = true) : before second first = false := by
  refine Bool.eq_false_iff.mpr fun hsecond => ?_
  have hself := horder.trans first second first hfirst hsecond
  rw [horder.irrefl] at hself
  contradiction

/-- Lists are ordered at the first place where they differ. -/
theorem lex [DecidableEq α] (horder : StrictlyOrders before) :
    StrictlyOrders fun first second : List α => first.lex second before where
  irrefl items := by
    refine Bool.eq_false_iff.mpr fun hself => ?_
    refine List.lex_irrefl (fun item hitem => ?_) items
      ((List.lex_eq_true_iff_lex before).mp hself)
    rw [horder.irrefl] at hitem
    contradiction
  trans first second third hfirst hsecond := by
    rw [List.lex_eq_true_iff_lex] at hfirst hsecond ⊢
    exact List.lex_trans (horder.trans _ _ _) hfirst hsecond
  total first second hne := by
    simp only [List.lex_eq_true_iff_lex]
    induction first generalizing second with
    | nil =>
        rcases second with _ | ⟨other, others⟩
        · exact absurd rfl hne
        · exact Or.inl .nil
    | cons item items ih =>
        rcases second with _ | ⟨other, others⟩
        · exact Or.inr .nil
        · by_cases hitem : item = other
          · subst hitem
            exact (ih others fun heq => hne (heq ▸ rfl)).imp .cons .cons
          · exact (horder.total item other hitem).imp .rel .rel

theorem of_injective {β : Type} (horder : StrictlyOrders before) {key : β → α}
    (hkey : ∀ first second, key first = key second → first = second) :
    StrictlyOrders fun first second => before (key first) (key second) where
  irrefl item := horder.irrefl (key item)
  trans first second third := horder.trans (key first) (key second) (key third)
  total first second hne :=
    horder.total (key first) (key second) fun heq => hne (hkey _ _ heq)

/-- Not to come after is an order too, if a weak one. -/
theorem weak_trans (horder : StrictlyOrders before) {first second third : α}
    (hfirst : before second first = false)
    (hsecond : before third second = false) : before third first = false := by
  refine Bool.eq_false_iff.mpr fun hthird => ?_
  by_cases heq : second = third
  · subst heq
    rw [hfirst] at hthird
    contradiction
  · have hbetween : before second third = true :=
      (horder.total second third heq).resolve_right (by simp [hsecond])
    have hback := horder.trans second third first hbetween hthird
    rw [hfirst] at hback
    contradiction

end StrictlyOrders

namespace SourceFile

theorem nameBefore_orders : StrictlyOrders nameBefore := by
  have hcodes : StrictlyOrders fun left right : Char =>
      decide (left.toNat < right.toNat) := by
    refine ⟨by simp, ?_, ?_⟩
    · intro first second third hfirst hsecond
      simp only [decide_eq_true_eq] at hfirst hsecond ⊢
      exact Nat.lt_trans hfirst hsecond
    · intro first second hne
      simp only [decide_eq_true_eq]
      exact Nat.lt_or_gt_of_ne fun heq => hne (Char.toNat_inj.mp heq)
  exact hcodes.lex.of_injective fun _ _ => String.toList_inj.mp

/-- Paths are ordered name by name. -/
def pathBefore (first second : List String) : Bool :=
  first.lex second nameBefore

theorem pathBefore_orders : StrictlyOrders pathBefore :=
  nameBefore_orders.lex

theorem precedes_iff {first second : SourceFile} :
    precedes first second = true ↔ pathBefore second.path first.path = false := by
  rw [precedes, Bool.not_eq_true', pathBefore]

/-- No sorted file comes before an earlier one. -/
theorem mergeSort_sorted (files : List SourceFile) :
    (files.mergeSort precedes).Pairwise fun first second =>
      pathBefore second.path first.path = false := by
  have htrans : ∀ first second third : SourceFile,
      precedes first second = true → precedes second third = true →
        precedes first third = true := by
    intro first second third hfirst hsecond
    rw [precedes_iff] at hfirst hsecond ⊢
    exact pathBefore_orders.weak_trans hfirst hsecond
  have htotal : ∀ first second : SourceFile,
      (precedes first second || precedes second first) = true := by
    intro first second
    rw [Bool.or_eq_true, precedes_iff, precedes_iff]
    rcases hbefore : pathBefore second.path first.path with _ | _
    · exact Or.inl rfl
    · exact Or.inr (pathBefore_orders.asymm hbefore)
  refine (List.pairwise_mergeSort htrans htotal files).imp ?_
  intro first second hprecedes
  exact precedes_iff.mp hprecedes

/-- Where no two files have the same path, each sorted file comes before all
later ones. -/
theorem mergeSort_pairwise {files : List SourceFile}
    (hdistinct : (files.map path).Nodup) :
    (files.mergeSort precedes).Pairwise fun first second =>
      pathBefore first.path second.path = true := by
  have hperm := (List.mergeSort_perm files precedes).map path
  have hsorted := List.pairwise_map.mp (hperm.nodup_iff.mpr hdistinct)
  apply hsorted.imp₂ _ (mergeSort_sorted files)
  intro first second hne hbefore
  exact (pathBefore_orders.total _ _ hne).resolve_right (by simp [hbefore])

end SourceFile

/-! Extensions. -/

theorem splitLast_eq_some {separator : Char} {text before after : List Char}
    (hsplit : splitLast separator text = some (before, after)) :
    text = before ++ separator :: after := by
  induction text generalizing before with
  | nil => cases hsplit
  | cons character rest ih =>
      rw [splitLast] at hsplit
      split at hsplit
      · rename_i found _ hrest
        cases hsplit
        rw [List.cons_append, ← ih hrest]
      · split at hsplit
        · rename_i hcharacter
          cases hsplit
          rw [hcharacter]
          rfl
        · cases hsplit

/-- A name with an extension is a stem that is not empty, a dot and the
extension. -/
theorem splitName_eq_some {name stem extension : String}
    (hsplit : splitName name = (stem, some extension)) :
    stem ≠ "" ∧ name = stem ++ "." ++ extension := by
  rw [splitName] at hsplit
  split at hsplit
  · rename_i first rest after hlast
    cases hsplit
    refine ⟨by simp [← String.toList_inj], ?_⟩
    rw [← String.toList_inj, splitLast_eq_some hlast]
    simp
  · cases hsplit

theorem withExtension_eq {name stem extension : String} (other : String)
    (hsplit : splitName name = (stem, some extension)) :
    withExtension name other = if stem = "." then ".." else stem ++ "." ++ other := by
  rw [withExtension, hsplit]
  split
  · rename_i hstem
    cases hstem
    rfl
  · rename_i hstem heq
    cases heq
    rw [if_neg]
    rintro rfl
    exact hstem extension rfl rfl

/-- A path that leads by proper names to a name with the extension. -/
def IsSourcePath (extension : String) (path : List String) : Prop :=
  ∃ directory name stem, path = directory ++ [name] ∧
    (∀ segment ∈ directory, FileTree.IsProper segment) ∧
    splitName name = (stem, some extension)

namespace FileTree

theorem namesBelow_eq_some {names others rest : List String}
    (hbelow : namesBelow names others = some rest) : others = names ++ rest := by
  fun_induction namesBelow names others with
  | case1 others =>
      cases hbelow
      rfl
  | case2 => cases hbelow
  | case3 names name others ih => rw [ih hbelow, List.cons_append]
  | case4 => cases hbelow

theorem isDirectory_iff {tree : FileTree} {path : Path} :
    tree.isDirectory path = true ↔ ∃ place, tree.locate path = .ok place ∧
      tree.at? place = some .directory := by
  rw [isDirectory, find?]
  rcases tree.locate path with cause | place
  · simp
  · simp only [Except.ok.injEq, exists_eq_left']
    rcases tree.at? place with _ | _ | _ <;> simp

theorem exists_of_mem_filesAt {tree : FileTree} {place : Place}
    {names : List String} (hmem : names ∈ tree.filesAt place) :
    ∃ contents, (place.names ++ names, .file contents) ∈ tree.entries := by
  obtain ⟨⟨key, entry⟩, hentry, hnames⟩ := List.mem_filterMap.mp hmem
  rcases entry with _ | contents
  · contradiction
  · obtain rfl := namesBelow_eq_some hnames
    exact ⟨contents, hentry⟩

namespace WellFormed

variable {tree : FileTree} (hformed : tree.WellFormed)

include hformed

/-- What a tree lists somewhere is there. -/
theorem at?_of_mem {names : List String} {entry : Entry}
    (hmem : (names, entry) ∈ tree.entries) :
    tree.at? (.below names) = some entry := by
  have hlookup : tree.entries.lookup names = some entry := by
    have hdistinct := hformed.distinct
    generalize tree.entries = entries at hmem hdistinct
    induction entries with
    | nil => cases hmem
    | cons first rest ih =>
        rw [List.map_cons, List.nodup_cons] at hdistinct
        rcases List.mem_cons.mp hmem with rfl | hmem
        · exact List.lookup_cons_self
        · have hne : (names == first.1) = false := by
            refine beq_eq_false_iff_ne.mpr fun heq => hdistinct.1 ?_
            exact List.mem_map.mpr ⟨(names, entry), hmem, heq⟩
          rw [List.lookup_cons, hne]
          exact ih hmem hdistinct.2
  rw [at?, if_neg, hlookup]
  simpa using (hformed.proper _ hmem).1

theorem filesAt_nodup (place : Place) : (tree.filesAt place).Nodup := by
  apply List.pairwise_filterMap.mpr
  apply (List.pairwise_map.mp hformed.distinct).imp
  rintro ⟨key, _ | contents⟩ ⟨other, _ | others⟩ hne names hnames more hmore rfl
  · contradiction
  · contradiction
  · contradiction
  · exact hne ((namesBelow_eq_some hnames).trans
      (namesBelow_eq_some hmore).symm)

/-- Below a directory every file is listed once, by proper names, and by one at
least. -/
theorem files_of_isDirectory {root : Path}
    (hdirectory : tree.isDirectory root = true) :
    (tree.files root).Nodup ∧ ∀ names ∈ tree.files root,
      names ≠ [] ∧ ∀ name ∈ names, IsProper name := by
  obtain ⟨place, hlocate, hplace⟩ := isDirectory_iff.mp hdirectory
  rw [files, hlocate]
  refine ⟨(hformed.filesAt_nodup place).filter _, ?_⟩
  intro names hmem
  obtain ⟨contents, hentry⟩ :=
    exists_of_mem_filesAt (List.mem_of_mem_filter hmem)
  constructor
  · rintro rfl
    rw [List.append_nil] at hentry
    rw [hformed.at?_of_mem hentry] at hplace
    cases hplace
  · intro name hname
    exact (hformed.proper _ hentry).2 name (List.mem_append_right _ hname)

end WellFormed

end FileTree

namespace Store

variable {input : ByteArray} {tree after : FileTree} {root : Path}
  {files : List SourceFile}

theorem run_readText_memory (path : Path) :
    ((memory input).readText path).run tree =
      (tree.read path >>= decodeText, tree) := by
  have hread : ((memory input).read path).run tree = (tree.read path, tree) := rfl
  rw [run_readText, hread]
  rcases tree.read path <;> rfl

/-- Reading source files takes their texts from the tree and leaves it as it
is. -/
theorem readSources_memory {chosen : List (List String)}
    (hrun : ((memory input).readSources root chosen).run tree =
      (.ok files, after)) :
    after = tree ∧ files.map SourceFile.path = chosen ∧
      ∀ file ∈ files, (tree.read (root.below file.path) >>= decodeText) =
        .ok file.contents := by
  induction chosen generalizing files with
  | nil =>
      cases hrun
      exact ⟨rfl, rfl, by simp⟩
  | cons names others ih =>
      rw [run_readSources_cons, run_readText_memory] at hrun
      rcases hcontents : tree.read (root.below names) >>= decodeText with
        cause | contents
      · rw [hcontents] at hrun
        cases hrun
      · rw [hcontents] at hrun
        rcases hothers : ((memory input).readSources root others).run tree with
          ⟨failure | rest, last⟩
        · simp only [hothers] at hrun
          cases hrun
        · simp only [hothers] at hrun
          cases hrun
          obtain ⟨rfl, rfl, hrest⟩ := ih hothers
          exact ⟨rfl, rfl, List.forall_mem_cons.mpr ⟨hcontents, hrest⟩⟩

/-- Sources that are found have been read from the chosen files and then
sorted. -/
theorem exists_of_sources {extension : String}
    (hrun : ((memory input).sources root extension).run tree =
      (.ok files, after)) :
    ∃ read, files = read.mergeSort SourceFile.precedes ∧
      ((memory input).readSources root ((tree.files root).filter
        (SourceFile.hasExtension root extension))).run tree =
          (.ok read, after) := by
  have hpresent : ((memory input).isPresent root).run tree =
      ((tree.find? root).isSome, tree) := rfl
  have hfiles : ((memory input).files root).run tree =
      (tree.files root, tree) := rfl
  rw [run_sources, hpresent] at hrun
  rcases hfound : (tree.find? root).isSome with _ | _
  · rw [hfound] at hrun
    cases hrun
  · simp only [hfound, hfiles] at hrun
    split at hrun
    · cases hrun
    · rename_i read last hread
      cases hrun
      exact ⟨read, rfl, hread⟩

/-- The source files of a directory are listed in the order of their paths, and
each has the extension. -/
theorem sources_memory {extension : String} (hformed : tree.WellFormed)
    (hdirectory : tree.isDirectory root = true)
    (hrun : ((memory input).sources root extension).run tree =
      (.ok files, after)) :
    after = tree ∧
      (files.Pairwise fun first second =>
        SourceFile.pathBefore first.path second.path = true) ∧
      ∀ file ∈ files,
        (tree.read (root.below file.path) >>= decodeText) =
          .ok file.contents ∧
        IsSourcePath extension file.path := by
  obtain ⟨hnodup, hproper⟩ := hformed.files_of_isDirectory hdirectory
  obtain ⟨read, rfl, hread⟩ := exists_of_sources hrun
  obtain ⟨hsame, hpaths, hcontents⟩ := readSources_memory hread
  have hperm := List.mergeSort_perm read SourceFile.precedes
  refine ⟨hsame, ?_, ?_⟩
  · apply SourceFile.mergeSort_pairwise
    rw [hpaths]
    exact hnodup.filter _
  · intro file hmem
    have hread := hperm.mem_iff.mp hmem
    have hpath : file.path ∈ (tree.files root).filter
        (SourceFile.hasExtension root extension) :=
      hpaths ▸ List.mem_map_of_mem hread
    obtain ⟨hlisted, hextension⟩ := List.mem_filter.mp hpath
    obtain ⟨hne, hnames⟩ := hproper file.path hlisted
    obtain ⟨directory, name, hsplit⟩ :=
      (List.eq_nil_or_concat file.path).resolve_left hne
    rw [List.concat_eq_append] at hsplit
    rw [SourceFile.hasExtension, hsplit] at hextension
    refine ⟨hcontents file hread, directory, name, (splitName name).1, hsplit,
      ?_, ?_⟩
    · intro segment hsegment
      exact hnames segment (hsplit ▸ List.mem_append_left [name] hsegment)
    · simpa [Prod.ext_iff] using hextension

end Store

end ThreeAddress
