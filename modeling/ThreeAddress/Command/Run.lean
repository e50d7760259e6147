import ThreeAddress.Command.Options
import ThreeAddress.Compilation.Format

/-!
A run of the command: read the input, compile one unit of it after another, and
put out what was asked for.  Diagnostics are noted as they come up, unless they
are part of the output already.  A run that is asked to fail on errors or
warnings still puts everything out.

What is logged is left out, and with it a warning that is shown at the usual
level: that a directory holds no source files.
-/

namespace ThreeAddress

/-- One text to compile; the names that lead to it, if the input is a
directory. -/
structure CompilationUnit where
  names : Option (List String)
  contents : String
deriving DecidableEq, Repr

/-- What a run has done: the notes on diagnostics, the text for standard output
and, if it failed, why. -/
structure Outcome where
  notes : List String
  output : String
  failure : Option Failure
deriving DecidableEq, Repr

/-- A run that failed before anything was compiled. -/
def Outcome.failed (failure : Failure) : Outcome :=
  ⟨[], "", some failure⟩

/-- The progress of a run: notes, text for standard output, and the numbers of
errors and warnings. -/
structure Tally where
  notes : List String := []
  output : String := ""
  errors : Nat := 0
  warnings : Nat := 0
deriving DecidableEq, Repr

namespace Options

/-- How the notes on a unit call it. -/
def label (options : Options) (unit : CompilationUnit) : String :=
  match unit.names, options.input with
  | some names, _ => "/".intercalate names
  | none, some path => path.text
  | none, none => "<stdin>"

/-- The notes on a compilation; none in the formats that show diagnostics. -/
def notes (options : Options) (format : Format) (unit : CompilationUnit)
    (compilation : Compilation) : List String :=
  match format with
  | .diagnostics | .json => []
  | _ =>
      compilation.analysis.diagnostics.map fun diagnostic =>
        options.label unit ++ ": " ++ diagnostic.text

/-- The names of the output file for a source file. -/
def outputNames (format : Format) (names : List String) : List String :=
  match names.getLast? with
  | none => names
  | some name => names.dropLast ++ [withExtension name format.extension]

/-- The file that a unit's output goes to. -/
def target (format : Format) (output : Path) (unit : CompilationUnit) : Path :=
  match unit.names with
  | none => output
  | some names => output.below (outputNames format names)

/-- What stands before a unit's text on standard output. -/
def heading (options : Options) (unit : CompilationUnit) : String :=
  match unit.names with
  | none => ""
  | some _ => "== " ++ options.label unit ++ " ==\n"

def count (options : Options) (format : Format) (unit : CompilationUnit)
    (compilation : Compilation) (tally : Tally) : Tally :=
  { tally with
    notes := tally.notes ++ options.notes format unit compilation
    errors := tally.errors + compilation.analysis.errors.length
    warnings := tally.warnings + compilation.analysis.warnings.length }

/-- The verdict on a run that has put everything out: errors come before
warnings. -/
def verdict (options : Options) (tally : Tally) : Option Failure :=
  if options.check && 0 < tally.errors then some (.errorsFound tally.errors)
  else if options.denyWarnings && 0 < tally.warnings then
    some (.warningsDenied tally.warnings)
  else none

end Options

namespace Store

variable {m : Type → Type} [Monad m]

def units (store : Store m) (options : Options) :
    m (Except Failure (List CompilationUnit)) := do
  match options.input with
  | none =>
      match decodeText (← store.standardInput) with
      | .error cause => return .error (.unreadableStandardInput cause)
      | .ok contents => return .ok [⟨none, contents⟩]
  | some path =>
      if ← store.isDirectory path then
        match ← store.sources path options.extension with
        | .error failure => return .error failure
        | .ok files =>
            return .ok (files.map fun file => ⟨some file.path, file.contents⟩)
      else
        match ← store.readText path with
        | .error cause => return .error (.unreadableInput path cause)
        | .ok contents => return .ok [⟨none, contents⟩]

/-- Make the directory that an output file belongs in, if its path names
one. -/
def makeRoom (store : Store m) (path : Path) : m (Except Failure Unit) := do
  match path.parent? with
  | none => return .ok ()
  | some parent =>
      if parent.text.isEmpty then return .ok ()
      else
        match ← store.createDirectories parent with
        | .error cause => return .error (.directoryNotCreated parent cause)
        | .ok () => return .ok ()

def save (store : Store m) (path : Path) (contents : String) :
    m (Except Failure Unit) := do
  match ← store.makeRoom path with
  | .error failure => return .error failure
  | .ok () =>
      match ← store.write path contents.toUTF8 with
      | .error cause => return .error (.outputNotWritten path cause)
      | .ok () => return .ok ()

/-- Compile units one after another with the same parts and put out each; the
first output that cannot be written ends it. -/
def putOut (store : Store m) (options : Options) (format : Format) :
    Pipeline → Tally → List CompilationUnit → m (Tally × Option Failure)
  | _, tally, [] => return (tally, none)
  | pipeline, tally, unit :: rest => do
      let (compilation, after) := pipeline.compile unit.contents
      let counted := options.count format unit compilation tally
      let rendered := compilation.render format
      match options.output with
      | none =>
          store.putOut options format after
            { counted with
              output := counted.output ++ options.heading unit ++ rendered }
            rest
      | some output =>
          match ← store.save (Options.target format output unit) rendered with
          | .error failure => return (counted, some failure)
          | .ok () => store.putOut options format after counted rest

def run (store : Store m) (options : Options) : m Outcome := do
  match Format.ofName? options.emit with
  | none => return .failed (.unsupportedFormat options.emit)
  | some format =>
      match ← store.units options with
      | .error failure => return .failed failure
      | .ok units =>
          let (tally, failure) ← store.putOut options format {} {} units
          match failure with
          | some failure => return ⟨tally.notes, "", some failure⟩
          | none => return ⟨tally.notes, tally.output, options.verdict tally⟩

end Store

/-- What a process leaves behind: its exit code and what it has printed. -/
structure Report where
  exit : Nat
  output : String
  errors : String
deriving DecidableEq, Repr

def Outcome.report (outcome : Outcome) : Report :=
  let notes := listing outcome.notes
  match outcome.failure with
  | none => ⟨0, outcome.output, notes⟩
  | some failure => ⟨1, outcome.output, notes ++ failure.report⟩

def versionText : String := "minic-cli 0.1.0\n"

/-- What is printed on a command line that asks for nothing sensible. -/
def usageText : String := "Usage: minic-cli [OPTIONS]\n"

/-- The description of the program and of its options, laid out as the library
for command lines does it. -/
def helpText : String :=
  "Compile minic source to three-address code\n\n" ++ usageText ++
    "\nOptions:\n" ++
    "  -i, --input <PATH>     " ++
      "Source file or directory (reads stdin when omitted)\n" ++
    "  -o, --output <PATH>    " ++
      "Output file, or directory when the input is a directory " ++
      "(stdout when omitted)\n" ++
    "      --emit <FORMAT>    " ++
      "Output format: ir, tokens, ast, symbols, diagnostics, json " ++
      "[default: ir]\n" ++
    "      --extension <EXT>  " ++
      "Extension of source files collected from an input directory " ++
      "[default: " ++ defaultExtension ++ "]\n" ++
    "      --check            " ++
      "Exit with an error when any error diagnostic is reported\n" ++
    "      --deny-warnings    Treat unused-variable warnings as errors\n" ++
    "  -v, --verbose...       Increase log verbosity\n" ++
    "  -h, --help             Print help\n" ++
    "  -V, --version          Print version\n"

def Store.execute {m : Type → Type} [Monad m] (store : Store m)
    (arguments : List String) : m Report := do
  match Options.ofArguments arguments with
  | .misuse => return ⟨2, "", usageText⟩
  | .help => return ⟨0, helpText, ""⟩
  | .version => return ⟨0, versionText, ""⟩
  | .run options => return (← store.run options).report

end ThreeAddress
