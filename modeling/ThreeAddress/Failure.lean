import ThreeAddress.File.Path
import ThreeAddress.Text.Quoted

/-!
What can go wrong outside of the compiled program: files that cannot be read or
written, and verdicts that the caller asked for.
-/

namespace ThreeAddress

/-- Why a file operation fails. -/
inductive Cause where
  | notFound
  | alreadyExists
  | notDirectory
  | isDirectory
  | nameTooLong
  | invalidText
  | other (text : String)
deriving DecidableEq, Repr

def Cause.message : Cause → String
  | .notFound => "No such file or directory (os error 2)"
  | .alreadyExists => "File exists (os error 17)"
  | .notDirectory => "Not a directory (os error 20)"
  | .isDirectory => "Is a directory (os error 21)"
  | .nameTooLong => "File name too long (os error 36)"
  | .invalidText => "stream did not contain valid UTF-8"
  | .other text => text

inductive Failure where
  /-- There is no format of that name. -/
  | unsupportedFormat (name : String)
  /-- There is nothing at the root of the sources. -/
  | missingSource (root : Path)
  /-- A source file cannot be read. -/
  | unreadableSource (cause : Cause)
  /-- The input file cannot be read. -/
  | unreadableInput (path : Path) (cause : Cause)
  /-- Standard input cannot be read. -/
  | unreadableStandardInput (cause : Cause)
  /-- The directory of an output file cannot be made. -/
  | directoryNotCreated (path : Path) (cause : Cause)
  /-- An output file cannot be written. -/
  | outputNotWritten (path : Path) (cause : Cause)
  /-- Errors were found, and the caller asked to fail on them. -/
  | errorsFound (count : Nat)
  /-- Warnings were found, and the caller asked to fail on them. -/
  | warningsDenied (count : Nat)
deriving DecidableEq, Repr

namespace Failure

def message : Failure → String
  | unsupportedFormat name => "unsupported emit format: " ++ name
  | missingSource root => "source path was not found at " ++ root.text
  | unreadableSource cause => "failed to read source: " ++ cause.message
  | unreadableInput path _ => "failed to read input file " ++ path.text
  | unreadableStandardInput cause => cause.message
  | directoryNotCreated path _ =>
      "failed to create directory " ++ Quoted.ofText path.text
  | outputNotWritten path _ => "failed to write output file " ++ path.text
  | errorsFound count => "compilation reported " ++ count.repr ++ " error(s)"
  | warningsDenied count =>
      "compilation reported " ++ count.repr ++
        " warning(s) and warnings are denied"

/-- The cause that is told apart from the wording. -/
def cause? : Failure → Option Cause
  | unreadableSource cause => some cause
  | unreadableInput _ cause => some cause
  | directoryNotCreated _ cause => some cause
  | outputNotWritten _ cause => some cause
  | _ => none

def report (failure : Failure) : String :=
  "Error: " ++ failure.message ++ "\n" ++
    match failure.cause? with
    | none => ""
    | some cause => "\nCaused by:\n    " ++ cause.message ++ "\n"

end Failure

end ThreeAddress
