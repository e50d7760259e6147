import ThreeAddress.File.Store

/-!
Trees of files that are written to.  Making directories and writing files only
ever adds to a tree, but for the contents of the files that are written: so a
path that leads somewhere leads there ever after, and a file stays as it is
until something is written at the very same place.
-/

namespace ThreeAddress

namespace FileTree

theorem lookup_map_replaced (entries : List (List String × Entry))
    (names other : List String) (entry : Entry) :
    (entries.map fun old =>
      if old.1 = names then (names, entry) else old).lookup other =
      if other = names then (entries.lookup names).map fun _ => entry
      else entries.lookup other := by
  induction entries with
  | nil => simp
  | cons first rest ih =>
      obtain ⟨key, old⟩ := first
      by_cases hkey : key = names
      · subst hkey
        by_cases hother : other = key
        · simp [hother]
        · have hne : (other == key) = false := by simpa using hother
          simp [hother, List.lookup_cons, hne, ih]
      · by_cases hother : other = names
        · subst hother
          have hne : (other == key) = false := by simpa using Ne.symm hkey
          simpa [hkey, List.lookup_cons, hne] using ih
        · simp [hkey, hother, List.lookup_cons, ih]

theorem lookup_put (tree : FileTree) (names other : List String)
    (entry : Entry) : (tree.put names entry).entries.lookup other =
      if other = names then some entry else tree.entries.lookup other := by
  rw [put]
  split
  · rename_i hsome
    obtain ⟨old, hold⟩ := Option.isSome_iff_exists.mp hsome
    rw [lookup_map_replaced, hold, Option.map_some]
  · rename_i hnone
    rw [Option.not_isSome_iff_eq_none] at hnone
    rw [List.lookup_append]
    by_cases hother : other = names
    · subst hother
      simp [hnone]
    · have hne : (other == names) = false := by simpa using hother
      simp [hother, List.lookup_cons, hne]

/-- What is at a place after something has been put somewhere. -/
theorem at?_put (tree : FileTree) {names : List String} (hnames : names ≠ [])
    (entry : Entry) (place : Place) : (tree.put names entry).at? place =
      if place = .below names then some entry else tree.at? place := by
  obtain ⟨other⟩ := place
  simp only [at?, lookup_put, Place.below.injEq, List.isEmpty_iff]
  by_cases hother : other = []
  · subst hother
    rw [if_pos rfl, if_neg hnames.symm, if_pos rfl]
  · rw [if_neg hother, if_neg hother]

@[simp] theorem workingDirectory_put (tree : FileTree) (names : List String)
    (entry : Entry) :
    (tree.put names entry).workingDirectory = tree.workingDirectory := by
  rw [put]
  split
  · rfl
  · rfl

/-- Everything that is in a tree is in a later one as well, but for files at the
given places, which may have got other contents there or have come to be. -/
structure Grown (written : List (List String)) (tree after : FileTree) :
    Prop where
  kept : ∀ place entry, tree.at? place = some entry →
    (∀ names ∈ written, place ≠ .below names) → after.at? place = some entry
  files : ∀ names ∈ written, tree.at? (.below names) ≠ some .directory ∧
    ∃ contents, after.at? (.below names) = some (.file contents)
  workingDirectory : after.workingDirectory = tree.workingDirectory

namespace Grown

variable {written others : List (List String)} {tree middle after : FileTree}

theorem refl (tree : FileTree) : Grown [] tree tree where
  kept _ _ hentry _ := hentry
  files _ hmem := absurd hmem List.not_mem_nil
  workingDirectory := rfl

/-- Paths start in a grown tree where they did before. -/
theorem start_eq (hgrown : Grown written tree after) (anchor : Anchor) :
    after.start anchor = tree.start anchor := by
  rcases anchor <;> simp only [start, hgrown.workingDirectory]

theorem directory (hgrown : Grown written tree after) {place : Place}
    (hplace : tree.at? place = some .directory) :
    after.at? place = some .directory := by
  refine hgrown.kept place .directory hplace fun names hmem heq => ?_
  exact (hgrown.files names hmem).1 (heq ▸ hplace)

theorem isSome (hgrown : Grown written tree after) {place : Place}
    {entry : Entry} (hplace : tree.at? place = some entry) :
    ∃ changed, after.at? place = some changed := by
  by_cases hwritten : ∃ names ∈ written, place = .below names
  · obtain ⟨names, hmem, rfl⟩ := hwritten
    obtain ⟨-, contents, hcontents⟩ := hgrown.files names hmem
    exact ⟨.file contents, hcontents⟩
  · refine ⟨entry, hgrown.kept place entry hplace fun names hmem heq => ?_⟩
    exact hwritten ⟨names, hmem, heq⟩

theorem trans (hfirst : Grown written tree middle)
    (hsecond : Grown others middle after) :
    Grown (written ++ others) tree after where
  kept place entry hplace hother := by
    refine hsecond.kept place entry (hfirst.kept place entry hplace ?_) ?_
    · exact fun names hmem => hother names (List.mem_append_left others hmem)
    · exact fun names hmem => hother names (List.mem_append_right written hmem)
  files names hmem := by
    rcases List.mem_append.mp hmem with hmem | hmem
    · obtain ⟨hplace, contents, hcontents⟩ := hfirst.files names hmem
      refine ⟨hplace, ?_⟩
      by_cases hagain : names ∈ others
      · exact (hsecond.files names hagain).2
      · refine ⟨contents, hsecond.kept _ _ hcontents fun other hother heq => ?_⟩
        cases heq
        exact hagain hother
    · obtain ⟨hplace, hcontents⟩ := hsecond.files names hmem
      exact ⟨fun hdirectory => hplace (hfirst.directory hdirectory), hcontents⟩
  workingDirectory := hsecond.workingDirectory.trans hfirst.workingDirectory

/-- A directory is made where nothing is. -/
theorem put_directory {names : List String} (hnames : names ≠ [])
    (hnone : tree.at? (.below names) = none) :
    Grown [] tree (tree.put names .directory) where
  kept place entry hplace _ := by
    rw [at?_put tree hnames, if_neg, hplace]
    rintro rfl
    rw [hnone] at hplace
    contradiction
  files _ hmem := absurd hmem List.not_mem_nil
  workingDirectory := workingDirectory_put tree names .directory

/-- A file is written where no directory is. -/
theorem put_file {names : List String} (hnames : names ≠ [])
    (hplace : tree.at? (.below names) ≠ some .directory)
    (contents : ByteArray) :
    Grown [names] tree (tree.put names (.file contents)) where
  kept place entry hentry hother := by
    rw [at?_put tree hnames, if_neg (hother names List.mem_cons_self), hentry]
  files other hmem := by
    obtain rfl := List.mem_singleton.mp hmem
    exact ⟨hplace, contents, by rw [at?_put tree hnames, if_pos rfl]⟩
  workingDirectory := workingDirectory_put tree names (.file contents)

end Grown

/-! Following segments. -/

theorem follow_append (tree : FileTree) (place : Place)
    (first second : List String) : tree.follow place (first ++ second) =
      match tree.follow place first with
      | .error cause => .error cause
      | .ok found => tree.follow found second := by
  fun_induction follow tree place first with
  | case1 => rfl
  | _ => simp_all [follow]

/-- Where segments lead to, they lead to in every grown tree. -/
theorem Grown.follow_eq {written : List (List String)} {tree after : FileTree}
    (hgrown : Grown written tree after) {place found : Place}
    {segments : List String} (hfollow : tree.follow place segments = .ok found) :
    after.follow place segments = .ok found := by
  fun_induction follow tree place segments with
  | case1 place => exact hfollow
  | case4 place segment rest hplace hpassed ih =>
      rw [follow, hgrown.directory hplace]
      simpa [hpassed] using ih hfollow
  | case5 place rest hplace hname ih =>
      rw [follow, hgrown.directory hplace]
      simpa [hname] using ih hfollow
  | case8 place segment rest hplace hname hup names hslot entry hentry ih =>
      obtain ⟨changed, hchanged⟩ := hgrown.isSome hentry
      rw [follow, hgrown.directory hplace]
      simpa [hname, hup, hslot, hchanged] using ih hfollow
  | _ => cases hfollow

/-- Where a path leads to, it leads to in every grown tree. -/
theorem Grown.follow_start_eq {written : List (List String)}
    {tree after : FileTree} (hgrown : Grown written tree after) {anchor : Anchor}
    {found : Place} {segments : List String}
    (hfollow : tree.follow (tree.start anchor) segments = .ok found) :
    after.follow (after.start anchor) segments = .ok found := by
  rw [hgrown.start_eq]
  exact hgrown.follow_eq hfollow

/-- A name that a file or a directory can have. -/
def IsProper (name : String) : Prop :=
  Path.isName name = true ∧ name ≠ ".."

instance : DecidablePred IsProper :=
  fun name => inferInstanceAs (Decidable (Path.isName name = true ∧ name ≠ ".."))

/-- A tree that lists no place twice, and only such below the root as proper
names lead to. -/
structure WellFormed (tree : FileTree) : Prop where
  distinct : (tree.entries.map Prod.fst).Nodup
  proper : ∀ entry ∈ tree.entries, entry.1 ≠ [] ∧
    ∀ name ∈ entry.1, IsProper name

theorem slot_eq_ok {name : String} {place : Place} {names : List String}
    (hslot : slot name place = .ok names) : names = place.names ++ [name] := by
  rw [slot] at hslot
  split at hslot
  · contradiction
  · exact (Except.ok.inj hslot).symm

/-- Proper names lead downwards only. -/
theorem follow_proper {tree : FileTree} {place found : Place}
    {names : List String} (hproper : ∀ name ∈ names, IsProper name)
    (hfollow : tree.follow place names = .ok found) :
    found = .below (place.names ++ names) := by
  fun_induction follow tree place names with
  | case1 place =>
      rw [List.append_nil]
      exact (Except.ok.inj hfollow).symm
  | case4 place segment rest hplace hpassed ih =>
      have hname := (hproper segment List.mem_cons_self).1
      simp [hname] at hpassed
  | case5 place rest hplace hname ih =>
      exact absurd rfl (hproper ".." List.mem_cons_self).2
  | case8 place segment rest hplace hname hup names hslot entry hentry ih =>
      have hrest : ∀ name ∈ rest, IsProper name :=
        fun name hmem => hproper name (List.mem_cons_of_mem segment hmem)
      rw [ih hrest hfollow, slot_eq_ok hslot, List.append_assoc,
        List.singleton_append]
  | _ => contradiction

theorem followToDirectory_eq_ok {tree : FileTree} {place found : Place}
    {segments : List String}
    (hfollow : tree.followToDirectory place segments = .ok found) :
    tree.follow place segments = .ok found ∧
      tree.at? found = some .directory := by
  rw [followToDirectory] at hfollow
  split at hfollow
  · cases hfollow
  · rename_i other hother
    split at hfollow
    · cases hfollow
      exact ⟨hother, ‹_›⟩
    · cases hfollow
    · cases hfollow

/-! Making directories. -/

theorem makeDirectory_grown {tree after : FileTree} {start : Place}
    {name : String} {before : List String}
    (hmade : tree.makeDirectory start name before = .ok after) :
    Grown [] tree after := by
  rw [makeDirectory] at hmade
  split at hmade
  · cases hmade
  · split at hmade
    · cases hmade
    · split at hmade
      · cases hmade
      · rename_i names hslot
        obtain rfl := slot_eq_ok hslot
        split at hmade
        · cases hmade
        · rename_i hnone
          cases hmade
          exact .put_directory (by simp) (by simpa using hnone)

theorem makeDirectories_grown {tree after : FileTree} {start : Place}
    {names : List String}
    (hmade : tree.makeDirectories start names = .ok after) :
    Grown [] tree after := by
  induction names generalizing after with
  | nil =>
      cases hmade
      exact .refl tree
  | cons name before ih =>
      rw [makeDirectories] at hmade
      split at hmade
      · rename_i made hfirst
        cases hmade
        exact makeDirectory_grown hfirst
      · split at hmade
        · cases hmade
        · rename_i grown hgrown
          split at hmade
          · rename_i made hlast
            cases hmade
            exact (ih hgrown).trans (makeDirectory_grown hlast)
          · split at hmade
            · cases hmade
              exact ih hgrown
            · cases hmade
      · split at hmade
        · cases hmade
          exact .refl tree
        · cases hmade

theorem createDirectories_grown {tree after : FileTree} {path : Path}
    (hmade : tree.createDirectories path = .ok after) : Grown [] tree after := by
  rw [createDirectories] at hmade
  split at hmade
  · cases hmade
  · exact makeDirectories_grown hmade

/-! Writing files. -/

/-- A file that has been written is in a directory to which all segments but the
last lead, under the last as its name. -/
theorem write_eq_ok {tree after : FileTree} {path : Path}
    {contents : ByteArray} (hwrite : tree.write path contents = .ok after) :
    ∃ before name base, path.segments = before ++ [name] ∧ IsProper name ∧
      path.text.isEmpty = false ∧ path.isLong = false ∧
      tree.follow (tree.start path.anchor) before = .ok (.below base) ∧
      tree.at? (.below base) = some .directory ∧
      slot name (.below base) = .ok (base ++ [name]) ∧
      tree.at? (.below (base ++ [name])) ≠ some .directory ∧
      after = tree.put (base ++ [name]) (.file contents) := by
  rw [write] at hwrite
  split at hwrite
  · cases hwrite
  rename_i htext
  split at hwrite
  · cases hwrite
  rename_i hlong
  split at hwrite
  · cases hwrite
  rename_i name before hsegments
  split at hwrite
  · cases hwrite
  rename_i place hfollow
  obtain ⟨base⟩ := place
  obtain ⟨hfollow, hplace⟩ := followToDirectory_eq_ok hfollow
  split at hwrite
  · cases hwrite
  rename_i hname
  simp only [not_or, Bool.not_eq_true', Bool.not_eq_false] at hname
  obtain ⟨hname, hup, hlast⟩ := hname
  split at hwrite
  · cases hwrite
  rename_i names hslot
  obtain rfl := slot_eq_ok hslot
  split at hwrite
  · cases hwrite
  rename_i hfile
  cases hwrite
  -- no slash ends the path, so its last segment is the name
  have hreverse : path.segments.reverse = name :: before := by
    rcases hreverse : path.segments.reverse with _ | ⟨first, rest⟩
    · simp [hreverse] at hsegments
    · have hfirst : first ≠ "" := by
        rintro rfl
        rw [← List.head?_reverse, hreverse] at hlast
        exact hlast rfl
      rwa [hreverse, List.dropWhile_cons_of_neg (by simpa using hfirst)]
        at hsegments
  refine ⟨before.reverse, name, base, ?_, ⟨hname, hup⟩, by simpa using htext,
    by simpa using hlong, hfollow, hplace, hslot, hfile, rfl⟩
  rw [← List.reverse_inj, hreverse]
  simp

theorem locate_eq_ok_iff {tree : FileTree} {path : Path} {place : Place} :
    tree.locate path = .ok place ↔ path.text.isEmpty = false ∧
      path.isLong = false ∧
        tree.follow (tree.start path.anchor) path.segments = .ok place := by
  rw [locate]
  split
  · simp_all
  · split <;> simp_all

theorem Grown.locate_eq {written : List (List String)} {tree after : FileTree}
    (hgrown : Grown written tree after) {path : Path} {place : Place}
    (hlocate : tree.locate path = .ok place) :
    after.locate path = .ok place := by
  rw [locate_eq_ok_iff] at hlocate ⊢
  exact ⟨hlocate.1, hlocate.2.1, hgrown.follow_start_eq hlocate.2.2⟩

/-- A file that is written is at its path afterwards, and nothing else has
changed. -/
theorem write_grown {tree after : FileTree} {path : Path}
    {contents : ByteArray} (hwrite : tree.write path contents = .ok after) :
    ∃ before name base, path.segments = before ++ [name] ∧ IsProper name ∧
      after.follow (after.start path.anchor) before = .ok (.below base) ∧
      after.locate path = .ok (.below (base ++ [name])) ∧
      after.at? (.below (base ++ [name])) = some (.file contents) ∧
      Grown [base ++ [name]] tree after := by
  obtain ⟨before, name, base, hsegments, hproper, htext, hlong, hfollow, hplace,
    hslot, hfile, rfl⟩ := write_eq_ok hwrite
  have hgrown : Grown [base ++ [name]] tree
      (tree.put (base ++ [name]) (.file contents)) :=
    .put_file (by simp) hfile contents
  have hwritten : (tree.put (base ++ [name]) (.file contents)).at?
      (.below (base ++ [name])) = some (.file contents) := by
    rw [at?_put tree (by simp), if_pos rfl]
  have hleads := hgrown.follow_start_eq hfollow
  refine ⟨before, name, base, hsegments, hproper, hleads, ?_, hwritten, hgrown⟩
  refine locate_eq_ok_iff.mpr ⟨htext, hlong, ?_⟩
  rw [hsegments, follow_append, hleads]
  simp [follow, hgrown.directory hplace, hproper.1, hproper.2, hslot, hwritten]

theorem read_of_locate {tree : FileTree} {path : Path} {place : Place}
    {contents : ByteArray} (hlocate : tree.locate path = .ok place)
    (hplace : tree.at? place = some (.file contents)) :
    tree.read path = .ok contents := by
  rw [read, hlocate]
  simp only [hplace]

end FileTree

end ThreeAddress
