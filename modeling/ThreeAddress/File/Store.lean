import ThreeAddress.File.Tree

/-!
What a run needs of the world around it: standard input, and a place to read
files from and to write them to.  A `Store` gives these operations in some
monad; `Store.memory` gives them on a tree of files held in memory.
-/

namespace ThreeAddress

/-- The operations on the world around a run. -/
structure Store (m : Type → Type) where
  /-- All of standard input. -/
  standardInput : m ByteArray
  /-- Whether there is anything at a path. -/
  isPresent : Path → m Bool
  /-- Whether there is a directory at a path. -/
  isDirectory : Path → m Bool
  /-- The bytes of the file at a path. -/
  read : Path → m (Except Cause ByteArray)
  /-- The files at or below a path that can be reached from it, each by the
  names that lead from the path to it, in any order. -/
  files : Path → m (List (List String))
  /-- Make a directory, and those above it that are missing. -/
  createDirectories : Path → m (Except Cause Unit)
  /-- Write a file, instead of one that is there. -/
  write : Path → ByteArray → m (Except Cause Unit)

/-- Change a tree by an operation that may fail, and then changes nothing. -/
def FileTree.attempt (change : FileTree → Except Cause FileTree) :
    StateM FileTree (Except Cause Unit) := do
  match change (← get) with
  | .error cause => return .error cause
  | .ok tree =>
      set tree
      return .ok ()

/-- The operations on a tree of files in memory, with the given standard
input. -/
def Store.memory (standardInput : ByteArray) : Store (StateM FileTree) where
  standardInput := pure standardInput
  isPresent path := return ((← get).find? path).isSome
  isDirectory path := return (← get).isDirectory path
  read path := return (← get).read path
  files path := return (← get).files path
  createDirectories path :=
    FileTree.attempt fun tree => tree.createDirectories path
  write path contents :=
    FileTree.attempt fun tree => tree.write path contents

end ThreeAddress
