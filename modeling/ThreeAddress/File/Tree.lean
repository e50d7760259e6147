import ThreeAddress.Failure

/-!
A tree of files held in memory, and the working directory in it.  The tree is a
list of names that lead from the root and of what is there.  Paths start at the
root or at the working directory, and may lead upwards from there; there are no
links, so that the directory above a place is known from its names.
-/

namespace ThreeAddress

/-- What can be at a place: a directory, or a file with its bytes. -/
inductive Entry where
  | directory
  | file (contents : ByteArray)

/-- A place, by the names that lead to it from the root. -/
structure Place where
  below ::
  names : List String
deriving DecidableEq, Repr

/-- The directory around a place.  The root is around itself. -/
def Place.around (place : Place) : Place :=
  .below place.names.dropLast

/-- What some names lead to from the root, and the names of the working
directory. -/
structure FileTree where
  entries : List (List String × Entry) := []
  workingDirectory : List String := []

namespace FileTree

def start (tree : FileTree) : Anchor → Place
  | .root => .below []
  | _ => .below tree.workingDirectory

/-- What is at a place.  The root is always there. -/
def at? (tree : FileTree) (place : Place) : Option Entry :=
  if place.names.isEmpty then some .directory
  else tree.entries.lookup place.names

/-- Put something where some names lead to, instead of what was there. -/
def put (tree : FileTree) (names : List String) (entry : Entry) : FileTree :=
  if (tree.entries.lookup names).isSome then
    { tree with
      entries := tree.entries.map fun old =>
        if old.1 = names then (names, entry) else old }
  else { tree with entries := tree.entries ++ [(names, entry)] }

/-- The names that lead to something of the given name in a directory, whether
or not it is there. -/
def slot (name : String) (place : Place) : Except Cause (List String) :=
  if Path.isLongName name then .error .nameTooLong
  else .ok (place.names ++ [name])

/-- Follow segments from a place.  Whatever another segment comes after has to
be a directory. -/
def follow (tree : FileTree) (place : Place) :
    List String → Except Cause Place
  | [] => .ok place
  | segment :: rest =>
      match tree.at? place with
      | none => .error .notFound
      | some (.file _) => .error .notDirectory
      | some .directory =>
          if !Path.isName segment then tree.follow place rest
          else if segment = ".." then tree.follow place.around rest
          else
            match slot segment place with
            | .error cause => .error cause
            | .ok names =>
                match tree.at? (.below names) with
                | none => .error .notFound
                | some _ => tree.follow (.below names) rest

def followToDirectory (tree : FileTree) (place : Place)
    (segments : List String) : Except Cause Place :=
  match tree.follow place segments with
  | .error cause => .error cause
  | .ok found =>
      match tree.at? found with
      | some .directory => .ok found
      | some (.file _) => .error .notDirectory
      | none => .error .notFound

/-- The place that a path leads to.  The empty path leads nowhere. -/
def locate (tree : FileTree) (path : Path) : Except Cause Place :=
  if path.text.isEmpty then .error .notFound
  else if path.isLong then .error .nameTooLong
  else tree.follow (tree.start path.anchor) path.segments

def find? (tree : FileTree) (path : Path) : Option Entry :=
  match tree.locate path with
  | .error _ => none
  | .ok place => tree.at? place

def isDirectory (tree : FileTree) (path : Path) : Bool :=
  match tree.find? path with
  | some .directory => true
  | _ => false

def read (tree : FileTree) (path : Path) : Except Cause ByteArray :=
  match tree.locate path with
  | .error cause => .error cause
  | .ok place =>
      match tree.at? place with
      | none => .error .notFound
      | some .directory => .error .isDirectory
      | some (.file contents) => .ok contents

/-- The names that lead on from some names to others that begin with them. -/
def namesBelow : (names others : List String) → Option (List String)
  | [], others => some others
  | _ :: _, [] => none
  | name :: names, first :: others =>
      if name = first then namesBelow names others else none

/-- The files at or below a place, by the names that lead from there to
them. -/
def filesAt (tree : FileTree) (place : Place) : List (List String) :=
  tree.entries.filterMap fun entry =>
    match entry.2 with
    | .directory => none
    | .file _ => namesBelow place.names entry.1

/-- The files at or below what a path leads to, as far as the path can be
lengthened to lead to them. -/
def files (tree : FileTree) (path : Path) : List (List String) :=
  match tree.locate path with
  | .error _ => []
  | .ok place =>
      (tree.filesAt place).filter fun names => !(path.below names).isLong

/-- Make the directory of the given name where the other names lead to a
directory.  These are given from the last to the first. -/
def makeDirectory (tree : FileTree) (start : Place) (name : String)
    (before : List String) : Except Cause FileTree :=
  match tree.followToDirectory start before.reverse with
  | .error cause => .error cause
  | .ok place =>
      if name = ".." then .error .alreadyExists
      else
        match slot name place with
        | .error cause => .error cause
        | .ok names =>
            if (tree.at? (.below names)).isSome then .error .alreadyExists
            else .ok (tree.put names .directory)

/-- Whether names, given from the last to the first, lead to a directory. -/
def hasDirectory (tree : FileTree) (start : Place) (names : List String) :
    Bool :=
  match tree.followToDirectory start names.reverse with
  | .ok _ => true
  | .error _ => false

/-- Make a directory and, where they are missing, those above it.  One that is
there already is fine.  The names are given from the last to the first. -/
def makeDirectories (tree : FileTree) (start : Place) :
    List String → Except Cause FileTree
  | [] => .ok tree
  | name :: before =>
      match tree.makeDirectory start name before with
      | .ok made => .ok made
      | .error .notFound =>
          match tree.makeDirectories start before with
          | .error cause => .error cause
          | .ok grown =>
              match grown.makeDirectory start name before with
              | .ok made => .ok made
              | .error cause =>
                  if grown.hasDirectory start (name :: before) then .ok grown
                  else .error cause
      | .error cause =>
          if tree.hasDirectory start (name :: before) then .ok tree
          else .error cause

def createDirectories (tree : FileTree) (path : Path) :
    Except Cause FileTree :=
  if path.isLong then .error .nameTooLong
  else tree.makeDirectories (tree.start path.anchor) path.names.reverse

/-- Write a file.  A path that ends with a slash, with a dot or with two dots
names a directory. -/
def write (tree : FileTree) (path : Path) (contents : ByteArray) :
    Except Cause FileTree :=
  if path.text.isEmpty then .error .notFound
  else if path.isLong then .error .nameTooLong
  else
    match path.segments.reverse.dropWhile fun segment => segment == "" with
    | [] => .error .isDirectory
    | name :: before =>
        match tree.followToDirectory (tree.start path.anchor) before.reverse with
        | .error cause => .error cause
        | .ok place =>
            if !Path.isName name ∨ name = ".." ∨
                path.segments.getLast? = some "" then .error .isDirectory
            else
              match slot name place with
              | .error cause => .error cause
              | .ok names =>
                  match tree.at? (.below names) with
                  | some .directory => .error .isDirectory
                  | _ => .ok (tree.put names (.file contents))

end FileTree

end ThreeAddress
