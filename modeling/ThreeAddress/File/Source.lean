import ThreeAddress.File.Store

/-!
The source files of a directory: all files below it with a given extension, in
the order of their paths.
-/

namespace ThreeAddress

/-- The extension of source files, unless another is asked for. -/
def defaultExtension : String := "mc"

/-- A source file: the names that lead to it from where the search began, and
its text. -/
structure SourceFile where
  path : List String
  contents : String
deriving DecidableEq, Repr

namespace SourceFile

/-- Whether one name comes before another: the code points decide, at the
first place where they differ. -/
def nameBefore (first second : String) : Bool :=
  List.lex first.toList second.toList fun left right =>
    left.toNat < right.toNat

/-- The order of source files: name by name. -/
def precedes (first second : SourceFile) : Bool :=
  !List.lex second.path first.path nameBefore

/-- Whether a file, given by the names from a root to it, has the extension.
The root itself may be the file. -/
def hasExtension (root : Path) (extension : String) (names : List String) :
    Bool :=
  match names.getLast?.or root.fileName? with
  | none => false
  | some name => (splitName name).2 == some extension

end SourceFile

/-- The text that bytes encode in UTF-8. -/
def decodeText (contents : ByteArray) : Except Cause String :=
  match String.fromUTF8? contents with
  | none => .error .invalidText
  | some text => .ok text

namespace Store

variable {m : Type → Type} [Monad m]

def readText (store : Store m) (path : Path) : m (Except Cause String) := do
  match ← store.read path with
  | .error cause => return .error cause
  | .ok contents => return decodeText contents

/-- The given files below a root with their texts; the first that cannot be
read is a failure. -/
def readSources (store : Store m) (root : Path) :
    List (List String) → m (Except Failure (List SourceFile))
  | [] => return .ok []
  | names :: rest => do
      match ← store.readText (root.below names) with
      | .error cause => return .error (.unreadableSource cause)
      | .ok contents =>
          match ← store.readSources root rest with
          | .error failure => return .error failure
          | .ok others => return .ok (⟨names, contents⟩ :: others)

/-- The source files at or below a root, in the order of their paths. -/
def sources (store : Store m) (root : Path) (extension : String) :
    m (Except Failure (List SourceFile)) := do
  if ← store.isPresent root then
    let found ← store.files root
    let chosen := found.filter (SourceFile.hasExtension root extension)
    match ← store.readSources root chosen with
    | .error failure => return .error failure
    | .ok files => return .ok (files.mergeSort SourceFile.precedes)
  else return .error (.missingSource root)

end Store

end ThreeAddress
