import ThreeAddress.Command.Run

/-!
The program: a run on the disk, with standard input, standard output and
standard error.  Directories are made and files are read and written here, but
directories are not listed, so a directory as the input is a file that cannot
be read.
-/

namespace ThreeAddress

namespace Disk

/-- The cause that an error of the system stands for. -/
def causeOf : IO.Error → Cause
  | .noFileOrDirectory .. => .notFound
  | .alreadyExists .. => .alreadyExists
  | .inappropriateType _ code _ =>
      if code = 21 then .isDirectory else .notDirectory
  | .invalidArgument _ code text =>
      if code = 36 ∨ code = -36 then .nameTooLong else .other text
  | error => .other error.toString

/-- Do something on the disk, and tell why if it fails. -/
def attempt {α : Type} (action : IO α) : IO (Except Cause α) := do
  match ← action.toBaseIO with
  | .ok value => return .ok value
  | .error error => return .error (causeOf error)

/-- The bytes of a stream up to its end, after those read so far. -/
partial def readToEnd (stream : IO.FS.Stream) (sofar : ByteArray) :
    IO ByteArray := do
  let chunk ← stream.read 65536
  if chunk.isEmpty then return sofar
  else readToEnd stream (sofar ++ chunk)

def read (path : Path) : IO (Except Cause ByteArray) :=
  attempt (IO.FS.readBinFile path.text)

/-- A directory that could not be made is fine if it is there. -/
def settle (path : Path) (cause : Cause) : IO (Except Cause Unit) := do
  match ← read path with
  | .error .isDirectory => return .ok ()
  | _ => return .error cause

/-- Make a directory and, where they are missing, those above it.  The names
are given from the last to the first. -/
def makeDirectories (anchor : Anchor) :
    List String → IO (Except Cause Unit)
  | [] => return .ok ()
  | name :: above => do
      let path : Path := ⟨anchor, (name :: above).reverse⟩
      match ← attempt (IO.FS.createDir path.text) with
      | .ok () => return .ok ()
      | .error .notFound =>
          match ← makeDirectories anchor above with
          | .error cause => return .error cause
          | .ok () =>
              match ← attempt (IO.FS.createDir path.text) with
              | .ok () => return .ok ()
              | .error cause => settle path cause
      | .error cause => settle path cause

/-- The operations on the disk, as seen from the working directory. -/
def store : Store IO where
  standardInput := do readToEnd (← IO.getStdin) ByteArray.empty
  isPresent path := return (← read path).isOk
  isDirectory _ := return false
  read path := read path
  files _ := return []
  createDirectories path := makeDirectories path.anchor path.names.reverse
  write path contents := attempt (IO.FS.writeBinFile path.text contents)

end Disk

end ThreeAddress

/-- Do what the arguments ask for, and print what there is to say. -/
def main (arguments : List String) : IO UInt32 := do
  let report ← ThreeAddress.Disk.store.execute arguments
  (← IO.getStderr).putStr report.errors
  (← IO.getStdout).putStr report.output
  return report.exit.toUInt32
