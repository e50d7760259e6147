import ThreeAddress.Proofs.ByteOrder
import ThreeAddress.Proofs.DirectoryRun

/-!
The source files of a tree.  A search from a root finds the files at or below
it whose names have the extension, and lists them in the order of their paths.
In which order a store comes upon the files is of no consequence: neither to
the list nor to the failure when one of them holds no text.
-/

namespace ThreeAddress

/-! Extensions. -/

theorem splitLast_eq_none_iff {separator : Char} {text : List Char} :
    splitLast separator text = none ↔ separator ∉ text := by
  induction text with
  | nil => simp [splitLast]
  | cons character rest ih =>
      rw [splitLast]
      rcases hrest : splitLast separator rest with _ | ⟨before, after⟩
      · have hnone := ih.mp hrest
        simp [hnone, eq_comm]
      · simp only [hrest, reduceCtorEq, false_iff, Classical.not_not] at ih
        simp [ih]

theorem splitLast_eq_some_iff {separator : Char} {text before after : List Char} :
    splitLast separator text = some (before, after) ↔
      text = before ++ separator :: after ∧ separator ∉ after := by
  constructor
  · intro hsplit
    refine ⟨splitLast_eq_some hsplit, ?_⟩
    induction text generalizing before with
    | nil => cases hsplit
    | cons character rest ih =>
        rw [splitLast] at hsplit
        split at hsplit
        · rename_i hrest
          cases hsplit
          exact ih hrest
        · rename_i hrest
          split at hsplit
          · cases hsplit
            exact splitLast_eq_none_iff.mp hrest
          · cases hsplit
  · rintro ⟨rfl, hafter⟩
    induction before with
    | nil => simp [splitLast, splitLast_eq_none_iff.mpr hafter]
    | cons character before ih => simp [splitLast, ih]

/-- The extension of a name is what follows its last dot, unless this is at the
front. -/
def HasExtension (name extension : String) : Prop :=
  ∃ stem, stem ≠ "" ∧ name = stem ++ "." ++ extension ∧
    '.' ∉ extension.toList

theorem splitName_snd_eq_some_iff {name extension : String} :
    (splitName name).2 = some extension ↔ HasExtension name extension := by
  constructor
  · intro hsplit
    rw [splitName] at hsplit
    split at hsplit
    · rename_i first rest after hlast
      cases hsplit
      obtain ⟨hname, hafter⟩ := splitLast_eq_some_iff.mp hlast
      refine ⟨String.ofList (first :: rest), by simp [← String.toList_inj], ?_,
        by simpa using hafter⟩
      simpa [← String.toList_inj] using hname
    · cases hsplit
  · rintro ⟨stem, hstem, rfl, hextension⟩
    have hlast : splitLast '.' (stem ++ "." ++ extension).toList =
        some (stem.toList, extension.toList) := by
      apply splitLast_eq_some_iff.mpr
      exact ⟨by simp, hextension⟩
    rcases hcharacters : stem.toList with _ | ⟨first, rest⟩
    · exact absurd (String.toList_eq_nil_iff.mp hcharacters) hstem
    · rw [hcharacters] at hlast
      rw [splitName, hlast]
      simp

namespace Path

/-- What names lead to below a path is called by the last of them. -/
theorem fileName?_below (root : Path) {names : List String}
    (hproper : ∀ name ∈ names, FileTree.IsProper name) :
    (root.below names).fileName? = names.getLast?.or root.fileName? := by
  rcases List.eq_nil_or_concat names with rfl | ⟨directory, name, rfl⟩
  · rfl
  · rw [List.concat_eq_append] at hproper ⊢
    obtain ⟨hname, hup⟩ := hproper name (by simp)
    rw [below_eq root (by simp)]
    simp [fileName?, Path.names, List.filter_append, hname, hup]

/-- A path that leads on by names is not empty. -/
theorem text_below_ne_empty (root : Path) {names : List String}
    (hnames : names ≠ []) (hproper : ∀ name ∈ names, FileTree.IsProper name) :
    (root.below names).text.isEmpty = false := by
  rcases List.eq_nil_or_concat names with rfl | ⟨directory, name, rfl⟩
  · exact absurd rfl hnames
  · rw [List.concat_eq_append] at hnames hproper ⊢
    have hname : name ≠ "" := by
      have hisName := (hproper name (by simp)).1
      simp only [isName, Bool.and_eq_true, bne_iff_ne] at hisName
      exact hisName.1
    have hjoined : "/".intercalate (root.trunk ++ (directory ++ [name])) ≠ "" := by
      rw [← List.append_assoc]
      rcases root.trunk ++ directory with _ | ⟨first, before⟩
      · simpa using hname
      · rw [List.cons_append, String.intercalate_cons_of_ne_nil (by simp)]
        simp
    rw [below_eq root hnames, Path.text, Bool.eq_false_iff, ne_eq,
      String.isEmpty_iff]
    rcases root.anchor with _ | _ | _ <;> simp [hjoined]

end Path

theorem SourceFile.hasExtension_iff {root : Path} {extension : String}
    {names : List String} (hproper : ∀ name ∈ names, FileTree.IsProper name) :
    hasExtension root extension names = true ↔
      ∃ name, (root.below names).fileName? = some name ∧
        HasExtension name extension := by
  rw [root.fileName?_below hproper, hasExtension]
  split
  · rename_i hnone
    simp [hnone]
  · rename_i name hname
    simp [hname, splitName_snd_eq_some_iff]

namespace FileTree

/-- A tree in which whatever is there is in a directory, under a name that is
not too long. -/
structure Rooted (tree : FileTree) : Prop extends WellFormed tree where
  around : ∀ entry ∈ tree.entries,
    tree.at? (.below entry.1.dropLast) = some .directory
  short : ∀ entry ∈ tree.entries, ∀ name ∈ entry.1,
    Path.isLongName name = false

/-- A file at or below a root, to which proper names lead from there. -/
def HasFile (tree : FileTree) (root : Path) (names : List String)
    (contents : ByteArray) : Prop :=
  (tree.find? root).isSome ∧ (∀ name ∈ names, IsProper name) ∧
    tree.find? (root.below names) = some (.file contents)

/-- A file at or below a root whose name has the extension. -/
def HasSource (tree : FileTree) (root : Path) (extension : String)
    (names : List String) (contents : ByteArray) : Prop :=
  tree.HasFile root names contents ∧
    ∃ name, (root.below names).fileName? = some name ∧
      HasExtension name extension

theorem HasSource.contents_eq {tree : FileTree} {root : Path}
    {extension : String} {names : List String} {contents other : ByteArray}
    (hsource : tree.HasSource root extension names contents)
    (hother : tree.find? (root.below names) = some (.file other)) :
    other = contents := by
  cases hother.symm.trans hsource.1.2.2
  rfl

theorem follow_trunk {tree : FileTree} {root : Path} {place : Place}
    (hlocate : tree.locate root = .ok place) :
    tree.follow (tree.start root.anchor) root.trunk = .ok place := by
  obtain ⟨-, -, hfollow⟩ := locate_eq_ok_iff.mp hlocate
  rw [Path.trunk]
  split
  · rename_i hlast
    obtain ⟨before, hsegments⟩ := List.getLast?_eq_some_iff.mp hlast
    rw [hsegments, follow_append] at hfollow
    rw [hsegments, List.dropLast_concat]
    rcases hbefore : tree.follow (tree.start root.anchor) before with
      cause | found
    · rw [hbefore] at hfollow
      cases hfollow
    · simp only [hbefore, follow] at hfollow
      split at hfollow
      · cases hfollow
      · cases hfollow
      · simpa [Path.isName] using hfollow
  · exact hfollow

theorem mem_entries_of_at? {tree : FileTree} {names : List String}
    {entry : Entry} (hnames : names ≠ [])
    (hentry : tree.at? (.below names) = some entry) :
    (names, entry) ∈ tree.entries := by
  rw [at?, if_neg (by simpa using hnames)] at hentry
  obtain ⟨before, after, hentries, -⟩ := List.lookup_eq_some_iff.mp hentry
  rw [hentries]
  exact List.mem_append_right before List.mem_cons_self

theorem namesBelow_append (names rest : List String) :
    namesBelow names (names ++ rest) = some rest := by
  induction names with
  | nil => rfl
  | cons name names ih => simp [namesBelow, ih]

theorem find?_eq_some_iff {tree : FileTree} {path : Path} {entry : Entry} :
    tree.find? path = some entry ↔
      ∃ place, tree.locate path = .ok place ∧ tree.at? place = some entry := by
  rw [find?]
  rcases tree.locate path with cause | place <;> simp

theorem ne_nil_of_at? {tree : FileTree} {names : List String}
    {contents : ByteArray}
    (hfile : tree.at? (.below names) = some (.file contents)) : names ≠ [] := by
  rintro rfl
  cases hfile

/-- Names that lead on from a path lead on from its place. -/
theorem place_of_locate_below {tree : FileTree} {root : Path}
    {names : List String} {place found : Place}
    (hproper : ∀ name ∈ names, IsProper name)
    (hroot : tree.locate root = .ok place)
    (hlocate : tree.locate (root.below names) = .ok found) :
    found = .below (place.names ++ names) := by
  by_cases hnames : names = []
  · subst hnames
    rw [List.append_nil]
    exact Except.ok.inj (hlocate.symm.trans hroot)
  · obtain ⟨-, -, hfollow⟩ := locate_eq_ok_iff.mp hlocate
    rw [Path.below_eq root hnames, follow_append, follow_trunk hroot] at hfollow
    exact follow_proper hproper hfollow

namespace Rooted

variable {tree : FileTree} (htree : tree.Rooted)

include htree

theorem directory_of_concat {names : List String} {name : String}
    {entry : Entry}
    (hentry : tree.at? (.below (names ++ [name])) = some entry) :
    tree.at? (.below names) = some .directory := by
  have haround := htree.around _ (mem_entries_of_at? (by simp) hentry)
  rwa [List.dropLast_concat] at haround

/-- Names that lead to something lead past something at each of them. -/
theorem exists_of_append {names more : List String} {entry : Entry}
    (hentry : tree.at? (.below (names ++ more)) = some entry) :
    ∃ found, tree.at? (.below names) = some found := by
  induction more generalizing names with
  | nil =>
      rw [List.append_nil] at hentry
      exact ⟨entry, hentry⟩
  | cons name rest ih =>
      rw [List.append_cons] at hentry
      obtain ⟨found, hfound⟩ := ih hentry
      exact ⟨.directory, htree.directory_of_concat hfound⟩

/-- In a rooted tree the names of something lead there. -/
theorem follow_eq {base names : List String} {entry : Entry}
    (hentry : tree.at? (.below (base ++ names)) = some entry) :
    tree.follow (.below base) names = .ok (.below (base ++ names)) := by
  induction names generalizing base with
  | nil => rw [follow, List.append_nil]
  | cons name rest ih =>
      have hmem := mem_entries_of_at? (by simp) hentry
      obtain ⟨hname, hup⟩ := (htree.proper _ hmem).2 name (by simp)
      have hshort := htree.short _ hmem name (by simp)
      rw [List.append_cons] at hentry ⊢
      -- the next name leads somewhere, so that its base is a directory
      obtain ⟨found, hfound⟩ := htree.exists_of_append hentry
      rw [← ih hentry, follow, htree.directory_of_concat hfound]
      simp [hname, hup, slot, hshort, hfound]

theorem locate_below {root : Path} {place : Place} {names : List String}
    {entry : Entry} (hroot : tree.locate root = .ok place)
    (hentry : tree.at? (.below (place.names ++ names)) = some entry)
    (hshort : (root.below names).isLong = false) :
    tree.locate (root.below names) = .ok (.below (place.names ++ names)) := by
  by_cases hnames : names = []
  · subst hnames
    rwa [List.append_nil]
  · have hproper : ∀ name ∈ names, IsProper name := by
      have hmem := mem_entries_of_at? (by simp [hnames]) hentry
      exact fun name hname =>
        (htree.proper _ hmem).2 name (List.mem_append_right _ hname)
    refine locate_eq_ok_iff.mpr
      ⟨root.text_below_ne_empty hnames hproper, hshort, ?_⟩
    rw [Path.below_eq root hnames, follow_append, follow_trunk hroot]
    exact htree.follow_eq hentry

/-- The files that are listed for a root are those at or below it. -/
theorem mem_files_iff {root : Path} (hroot : (tree.find? root).isSome)
    {names : List String} :
    names ∈ tree.files root ↔ ∃ contents, tree.HasFile root names contents := by
  obtain ⟨entry, hentry⟩ := Option.isSome_iff_exists.mp hroot
  obtain ⟨place, hlocate, -⟩ := find?_eq_some_iff.mp hentry
  simp only [files, hlocate, List.mem_filter, Bool.not_eq_true']
  constructor
  · rintro ⟨hlisted, hshort⟩
    obtain ⟨contents, hmem⟩ := exists_of_mem_filesAt hlisted
    have hfile := htree.at?_of_mem hmem
    refine ⟨contents, hroot, ?_, find?_eq_some_iff.mpr
      ⟨_, htree.locate_below hlocate hfile hshort, hfile⟩⟩
    intro name hname
    exact (htree.proper _ hmem).2 name (List.mem_append_right _ hname)
  · rintro ⟨contents, -, hproper, hfound⟩
    obtain ⟨found, hbelow, hfile⟩ := find?_eq_some_iff.mp hfound
    obtain rfl := place_of_locate_below hproper hlocate hbelow
    have hmem := mem_entries_of_at? (ne_nil_of_at? hfile) hfile
    have hnames := namesBelow_append place.names names
    exact ⟨List.mem_filterMap.mpr ⟨_, hmem, hnames⟩,
      (locate_eq_ok_iff.mp hbelow).2.1⟩

theorem files_nodup (root : Path) : (tree.files root).Nodup := by
  rw [files]
  split
  · exact List.nodup_nil
  · rename_i place hlocate
    exact (htree.filesAt_nodup place).filter _

end Rooted

end FileTree

/-! Texts. -/

theorem decodeText_eq_ok_iff {contents : ByteArray} {text : String} :
    decodeText contents = .ok text ↔ text.toUTF8 = contents := by
  rw [decodeText, String.fromUTF8?]
  by_cases hvalid : contents.IsValidUTF8
  · simp only [hvalid, dif_pos, Except.ok.injEq, ← String.toByteArray_inj]
    exact eq_comm
  · simp only [hvalid, dif_neg, reduceCtorEq, false_iff, not_false_iff]
    rintro rfl
    exact hvalid text.isValidUTF8

/-- Bytes fail to be decoded only if they encode no text. -/
theorem decodeText_eq_error {contents : ByteArray} {cause : Cause}
    (hdecode : decodeText contents = .error cause) :
    cause = .invalidText ∧ ∀ text : String, text.toUTF8 ≠ contents := by
  constructor
  · rw [decodeText] at hdecode
    split at hdecode
    · cases hdecode
      rfl
    · cases hdecode
  · intro text htext
    rw [decodeText_eq_ok_iff.mpr htext] at hdecode
    cases hdecode

/-- Sorted lists of the same files are the same. -/
theorem SourceFile.eq_of_sorted {first second : List SourceFile}
    (hfirst : first.Pairwise fun file later =>
      pathBefore file.path later.path = true)
    (hsecond : second.Pairwise fun file later =>
      pathBefore file.path later.path = true)
    (hmem : ∀ file, file ∈ first ↔ file ∈ second) : first = second := by
  have hnodup : ∀ files : List SourceFile, (files.Pairwise fun file later =>
      pathBefore file.path later.path = true) → files.Nodup := by
    intro files hsorted
    apply hsorted.imp
    rintro file later hbefore rfl
    exact pathBefore_orders.ne hbefore rfl
  have hperm : first.Perm second :=
    (List.perm_ext_iff_of_nodup (hnodup first hfirst)
      (hnodup second hsecond)).mpr hmem
  apply hperm.eq_of_pairwise _ hfirst hsecond
  intro file later _ _ hbefore hafter
  rw [pathBefore_orders.asymm hbefore] at hafter
  contradiction

namespace FileTree

/-- What a search for sources comes to: there is no root, some source holds no
text, or all of them are listed in the order of their paths. -/
inductive Search (tree : FileTree) (root : Path) (extension : String) :
    Except Failure (List SourceFile) → Prop where
  | missing (hroot : tree.find? root = none) :
      Search tree root extension (.error (.missingSource root))
  | unreadable {names : List String} {contents : ByteArray}
      (hsource : tree.HasSource root extension names contents)
      (htext : ∀ text : String, text.toUTF8 ≠ contents) :
      Search tree root extension (.error (.unreadableSource .invalidText))
  | listed {files : List SourceFile} (hroot : (tree.find? root).isSome)
      (htexts : ∀ names contents,
        tree.HasSource root extension names contents →
          ∃ text : String, text.toUTF8 = contents)
      (hfiles : ∀ file, file ∈ files ↔
        tree.HasSource root extension file.path file.contents.toUTF8)
      (hsorted : files.Pairwise fun first second =>
        SourceFile.pathBefore first.path second.path = true) :
      Search tree root extension (.ok files)

namespace Search

variable {tree : FileTree} {root : Path} {extension : String}
  {outcome : Except Failure (List SourceFile)}

theorem eq_missing (hsearch : tree.Search root extension outcome)
    (hroot : tree.find? root = none) :
    outcome = .error (.missingSource root) := by
  cases hsearch with
  | missing _ => rfl
  | unreadable hsource htext =>
      have hpresent := hsource.1.1
      simp [hroot] at hpresent
  | listed hpresent htexts hfiles hsorted => simp [hroot] at hpresent

theorem eq_unreadable (hsearch : tree.Search root extension outcome)
    {names : List String} {contents : ByteArray}
    (hsource : tree.HasSource root extension names contents)
    (htext : ∀ text : String, text.toUTF8 ≠ contents) :
    outcome = .error (.unreadableSource .invalidText) := by
  cases hsearch with
  | missing hroot =>
      have hpresent := hsource.1.1
      simp [hroot] at hpresent
  | unreadable _ _ => rfl
  | listed hroot htexts hfiles hsorted =>
      obtain ⟨text, heq⟩ := htexts names contents hsource
      exact absurd heq (htext text)

theorem exists_listed (hsearch : tree.Search root extension outcome)
    (hroot : (tree.find? root).isSome)
    (htexts : ∀ names contents,
      tree.HasSource root extension names contents →
        ∃ text : String, text.toUTF8 = contents) :
    ∃ files, outcome = .ok files ∧
      (∀ file, file ∈ files ↔
        tree.HasSource root extension file.path file.contents.toUTF8) ∧
      files.Pairwise fun first second =>
        SourceFile.pathBefore first.path second.path = true := by
  cases hsearch with
  | missing hmissing => simp [hmissing] at hroot
  | unreadable hsource htext =>
      obtain ⟨text, heq⟩ := htexts _ _ hsource
      exact absurd heq (htext text)
  | listed _ _ hfiles hsorted => exact ⟨_, rfl, hfiles, hsorted⟩

/-- A search comes to one thing only: two lists of the same sources in the same
order are one list. -/
theorem unique {other : Except Failure (List SourceFile)}
    (hsearch : tree.Search root extension outcome)
    (hother : tree.Search root extension other) : outcome = other := by
  cases hother with
  | missing hroot => exact hsearch.eq_missing hroot
  | unreadable hsource htext => exact hsearch.eq_unreadable hsource htext
  | listed hroot htexts hfiles hsorted =>
      obtain ⟨files, rfl, hsame, hordered⟩ := hsearch.exists_listed hroot htexts
      rw [SourceFile.eq_of_sorted hordered hsorted]
      intro file
      rw [hsame, hfiles]

end Search

end FileTree

namespace Store

variable {σ : Type}

/-- A store that shows a tree: it finds what is there, reads what a file holds,
and comes upon each of the files at or below a root once, in some order. -/
structure Shows (store : Store (StateM σ)) (state : σ) (tree : FileTree) :
    Prop where
  isPresent : ∀ path,
    (store.isPresent path).run state = ((tree.find? path).isSome, state)
  read : ∀ path contents, tree.find? path = some (.file contents) →
    (store.read path).run state = (.ok contents, state)
  files : ∀ root, (tree.find? root).isSome →
    ∃ found, (store.files root).run state = (found, state) ∧ found.Nodup ∧
      ∀ names, names ∈ found ↔ ∃ contents, tree.HasFile root names contents

theorem memory_shows {tree : FileTree} (htree : tree.Rooted)
    (input : ByteArray) : (memory input).Shows tree tree where
  isPresent _ := rfl
  read path contents hfound := by
    obtain ⟨place, hlocate, hfile⟩ := FileTree.find?_eq_some_iff.mp hfound
    have hread := FileTree.read_of_locate hlocate hfile
    exact congrArg (·, tree) hread
  files root hroot :=
    ⟨tree.files root, rfl, htree.files_nodup root,
      fun _ => htree.mem_files_iff hroot⟩

variable {store : Store (StateM σ)} {state : σ} {tree : FileTree}
  {root : Path} {extension : String}

/-- The given files are read, unless one of them holds no text. -/
theorem Shows.run_readSources (hstore : store.Shows state tree)
    {chosen : List (List String)}
    (hchosen : ∀ names ∈ chosen, ∃ contents,
      tree.find? (root.below names) = some (.file contents)) :
    (∃ files, (store.readSources root chosen).run state = (.ok files, state) ∧
      files.map SourceFile.path = chosen ∧
      ∀ file ∈ files, tree.find? (root.below file.path) =
        some (.file file.contents.toUTF8)) ∨
    (store.readSources root chosen).run state =
        (.error (.unreadableSource .invalidText), state) ∧
      ∃ names ∈ chosen, ∃ contents,
        tree.find? (root.below names) = some (.file contents) ∧
        ∀ text : String, text.toUTF8 ≠ contents := by
  induction chosen with
  | nil => exact Or.inl ⟨[], rfl, rfl, by simp⟩
  | cons names others ih =>
      obtain ⟨⟨contents, hfile⟩, hothers⟩ := List.forall_mem_cons.mp hchosen
      have hread : (store.readText (root.below names)).run state =
          (decodeText contents, state) := by
        rw [run_readText, hstore.read _ _ hfile]
      rw [run_readSources_cons, hread]
      rcases hdecoded : decodeText contents with cause | text
      · obtain ⟨rfl, htext⟩ := decodeText_eq_error hdecoded
        right
        exact ⟨rfl, names, List.mem_cons_self, contents, hfile, htext⟩
      · rw [← decodeText_eq_ok_iff.mp hdecoded] at hfile
        rcases ih hothers with ⟨files, hrun, hpaths, hfiles⟩ |
          ⟨hrun, other, hmem, hother⟩
        · left
          exact ⟨⟨names, text⟩ :: files, by simp only [hrun],
            by rw [List.map_cons, hpaths],
            List.forall_mem_cons.mpr ⟨hfile, hfiles⟩⟩
        · right
          exact ⟨by simp only [hrun], other, List.mem_cons_of_mem names hmem, hother⟩

/-- The names that are chosen are those of the sources. -/
theorem mem_filter_hasExtension_iff (extension : String)
    {found : List (List String)} (hfound : ∀ names, names ∈ found ↔
      ∃ contents, tree.HasFile root names contents) (names : List String) :
    names ∈ found.filter (SourceFile.hasExtension root extension) ↔
      ∃ contents, tree.HasSource root extension names contents := by
  rw [List.mem_filter, hfound]
  constructor
  · rintro ⟨⟨contents, hfile⟩, hextension⟩
    exact ⟨contents, hfile,
      (SourceFile.hasExtension_iff hfile.2.1).mp hextension⟩
  · rintro ⟨contents, hfile, hextension⟩
    exact ⟨⟨contents, hfile⟩,
      (SourceFile.hasExtension_iff hfile.2.1).mpr hextension⟩

/-- Sources of which each has been read once are all that there are, when they
are sorted. -/
theorem search_listed {chosen : List (List String)} {files : List SourceFile}
    (hroot : (tree.find? root).isSome) (hnodup : chosen.Nodup)
    (hchosen : ∀ names, names ∈ chosen ↔
      ∃ contents, tree.HasSource root extension names contents)
    (hpaths : files.map SourceFile.path = chosen)
    (hcontents : ∀ file ∈ files, tree.find? (root.below file.path) =
      some (.file file.contents.toUTF8)) :
    tree.Search root extension (.ok (files.mergeSort SourceFile.precedes)) := by
  subst hpaths
  have hread : ∀ names contents,
      tree.HasSource root extension names contents →
        ∃ text, ⟨names, text⟩ ∈ files ∧ text.toUTF8 = contents := by
    intro names contents hsource
    obtain ⟨file, hmem, rfl⟩ :=
      List.mem_map.mp ((hchosen names).mpr ⟨contents, hsource⟩)
    exact ⟨file.contents, hmem, hsource.contents_eq (hcontents file hmem)⟩
  refine .listed hroot ?_ ?_ (SourceFile.mergeSort_pairwise hnodup)
  · intro names contents hsource
    obtain ⟨text, -, htext⟩ := hread names contents hsource
    exact ⟨text, htext⟩
  · intro file
    rw [List.mem_mergeSort]
    constructor
    · intro hmem
      obtain ⟨contents, hsource⟩ :=
        (hchosen file.path).mp (List.mem_map_of_mem hmem)
      rwa [hsource.contents_eq (hcontents file hmem)]
    · intro hsource
      obtain ⟨text, hmem, htext⟩ := hread _ _ hsource
      rwa [String.toByteArray_inj.mp htext] at hmem

/-- A search in a store that shows a tree changes nothing, and comes to what it
has to. -/
theorem Shows.run_sources (hstore : store.Shows state tree) (root : Path)
    (extension : String) :
    ∃ outcome, (store.sources root extension).run state = (outcome, state) ∧
      tree.Search root extension outcome := by
  rw [Store.run_sources, hstore.isPresent]
  rcases hroot : (tree.find? root).isSome with _ | _
  · exact ⟨_, rfl, .missing (by simpa using hroot)⟩
  · obtain ⟨found, hfiles, hnodup, hfound⟩ := hstore.files root hroot
    have hchosen := mem_filter_hasExtension_iff extension hfound
    have hreadable : ∀ names ∈
        found.filter (SourceFile.hasExtension root extension),
        ∃ contents, tree.find? (root.below names) = some (.file contents) := by
      intro names hmem
      obtain ⟨contents, hsource⟩ := (hchosen names).mp hmem
      exact ⟨contents, hsource.1.2.2⟩
    rcases hstore.run_readSources hreadable with
      ⟨files, hread, hpaths, hcontents⟩ |
      ⟨hread, names, hmem, contents, hfile, htext⟩
    · refine ⟨.ok (files.mergeSort SourceFile.precedes),
        by simp only [hfiles, hread], ?_⟩
      exact search_listed hroot (hnodup.filter _) hchosen hpaths hcontents
    · refine ⟨.error (.unreadableSource .invalidText),
        by simp only [hfiles, hread], ?_⟩
      obtain ⟨other, hsource⟩ := (hchosen names).mp hmem
      rw [← hsource.contents_eq hfile] at hsource
      exact .unreadable hsource htext

end Store

/-- A search lists exactly the files at or below the root whose names have the
extension, in the order of the bytes of their paths, and fails if there is no
root or if one of these files holds no text.  It does so in whatever order a
store comes upon the files. -/
theorem sources_exact (input : ByteArray) (tree : FileTree)
    (htree : tree.Rooted) (root : Path) (extension : String) :
    ∃ outcome,
      ((Store.memory input).sources root extension).run tree =
        (outcome, tree) ∧
      (∀ (σ : Type) (store : Store (StateM σ)) (state : σ),
        store.Shows state tree →
          (store.sources root extension).run state = (outcome, state)) ∧
      (outcome = .error (.missingSource root) ↔ tree.find? root = none) ∧
      (outcome = .error (.unreadableSource .invalidText) ↔
        ∃ names contents, tree.HasSource root extension names contents ∧
          ∀ text : String, text.toUTF8 ≠ contents) ∧
      ((tree.find? root).isSome →
        (∀ names contents, tree.HasSource root extension names contents →
          ∃ text : String, text.toUTF8 = contents) →
        ∃ files, outcome = .ok files ∧
          (∀ file, file ∈ files ↔
            tree.HasSource root extension file.path file.contents.toUTF8) ∧
          files.Pairwise fun first second =>
            SourceFile.sortKey first.path < SourceFile.sortKey second.path) := by
  obtain ⟨outcome, hrun, hsearch⟩ :=
    (Store.memory_shows htree input).run_sources root extension
  refine ⟨outcome, hrun, ?_, ?_, ?_, ?_⟩
  · intro σ store state hstore
    obtain ⟨other, hother, hsame⟩ := hstore.run_sources root extension
    rw [hother, hsame.unique hsearch]
  · constructor
    · rintro rfl
      cases hsearch with
      | missing hroot => exact hroot
    · exact hsearch.eq_missing
  · constructor
    · rintro rfl
      cases hsearch with
      | unreadable hsource htext => exact ⟨_, _, hsource, htext⟩
    · rintro ⟨names, contents, hsource, htext⟩
      exact hsearch.eq_unreadable hsource htext
  · intro hroot htexts
    obtain ⟨files, rfl, hfiles, hsorted⟩ := hsearch.exists_listed hroot htexts
    exact ⟨files, rfl, hfiles,
      hsorted.imp SourceFile.sortKey_lt_of_pathBefore⟩

/-- A store that comes upon the files from the last to the first, searched from
above the working directory and from the root.  The names of the paths decide,
so that a directory may come before a file that its name begins with; and a file
that is called by an extension alone has none. -/
theorem sources_exact_of_reversed :
    let tree : FileTree := ⟨[(["d"], .directory),
      (["d", "a-b.mc"], .file "int x;".toUTF8), (["d", "a"], .directory),
      (["d", "a", "b.mc"], .file "int y;".toUTF8),
      (["d", ".mc"], .file ⟨#[255]⟩)], ["d", "a"]⟩
    let store : Store (StateM FileTree) :=
      { Store.memory ByteArray.empty with
        files := fun path => return ((← get).files path).reverse }
    tree.Rooted ∧ store.Shows tree tree ∧
      ∀ root ∈ [⟨.relative, [".."]⟩, ⟨.root, ["d"]⟩],
        (store.sources root "mc").run tree =
          (.ok [⟨["a", "b.mc"], "int y;"⟩, ⟨["a-b.mc"], "int x;"⟩], tree) := by
  intro tree store
  have htree : tree.Rooted := by
    refine ⟨⟨by decide, by decide⟩, ?_, by decide +kernel⟩
    intro entry hmem
    simp only [tree, List.mem_cons, List.not_mem_nil, or_false] at hmem
    rcases hmem with rfl | rfl | rfl | rfl | rfl <;> rfl
  have hshows : store.Shows tree tree := by
    constructor
    · exact fun _ => rfl
    · exact (Store.memory_shows htree ByteArray.empty).read
    · intro path hpath
      refine ⟨(tree.files path).reverse, rfl,
        (List.reverse_perm _).nodup_iff.mpr (htree.files_nodup path), ?_⟩
      intro names
      rw [List.mem_reverse]
      exact htree.mem_files_iff hpath
  have hprecedes : SourceFile.precedes ⟨["a-b.mc"], "int x;"⟩
      ⟨["a", "b.mc"], "int y;"⟩ = false := by decide +kernel
  refine ⟨htree, hshows, ?_⟩
  intro root hroot
  obtain ⟨hpresent, hread⟩ :
      ((Store.memory ByteArray.empty).isPresent root).run tree = (true, tree) ∧
      ((Store.memory ByteArray.empty).readSources root ((tree.files root).filter
        (SourceFile.hasExtension root "mc"))).run tree =
      (.ok [⟨["a-b.mc"], "int x;"⟩, ⟨["a", "b.mc"], "int y;"⟩], tree) := by
    simp only [List.mem_cons, List.not_mem_nil, or_false] at hroot
    rcases hroot with rfl | rfl <;> exact ⟨rfl, rfl⟩
  have hfiles : ((Store.memory ByteArray.empty).files root).run tree =
      (tree.files root, tree) := rfl
  have hmemory : ((Store.memory ByteArray.empty).sources root "mc").run tree =
      (.ok [⟨["a", "b.mc"], "int y;"⟩, ⟨["a-b.mc"], "int x;"⟩], tree) := by
    rw [Store.run_sources, hpresent]
    simp only [hfiles, hread]
    simp [List.mergeSort, hprecedes]
  obtain ⟨outcome, hrun, hothers, -⟩ :=
    sources_exact ByteArray.empty tree htree root "mc"
  cases hmemory.symm.trans hrun
  exact hothers FileTree store tree hshows

end ThreeAddress
