import ThreeAddress.File.Source

/-!
The options of the command line.  Arguments are read from left to right, and
the first that is wrong decides, unless the version or help is asked for before
it.

The rules stand for those of a library for command lines, as far as they bear on
the options that there are; that the library follows them is taken for granted.
-/

namespace ThreeAddress

structure Options where
  /-- A file or a directory; standard input if there is none. -/
  input : Option Path := none
  /-- A file, or a directory if the input is one; standard output if there is
  none. -/
  output : Option Path := none
  /-- The name of the format. -/
  emit : String := "ir"
  /-- The extension of the source files in an input directory. -/
  extension : String := defaultExtension
  /-- Fail if there is an error. -/
  check : Bool := false
  /-- Fail if there is a warning. -/
  denyWarnings : Bool := false
deriving DecidableEq, Repr

inductive Request where
  | run (options : Options)
  | help
  | version
  | misuse
deriving DecidableEq, Repr

namespace Options

inductive Field where
  | input
  | output
  | emit
  | extension
deriving DecidableEq, Repr

/-- The values and flags given so far. -/
structure Given where
  input : Option String := none
  output : Option String := none
  emit : Option String := none
  extension : Option String := none
  check : Bool := false
  denyWarnings : Bool := false
deriving DecidableEq, Repr

/-- The options that the given values make, with the usual values for the
rest. -/
def Given.options (given : Given) : Options where
  input := given.input.map Path.ofText
  output := given.output.map Path.ofText
  emit := given.emit.getD "ir"
  extension := given.extension.getD defaultExtension
  check := given.check
  denyWarnings := given.denyWarnings

/-- Give a value to an option.  No option takes a second value, and paths are
not empty. -/
def Given.set? (given : Given) (field : Field) (value : String) :
    Option Given :=
  match field with
  | .input =>
      if given.input.isSome || value.isEmpty then none
      else some { given with input := some value }
  | .output =>
      if given.output.isSome || value.isEmpty then none
      else some { given with output := some value }
  | .emit =>
      if given.emit.isSome then none
      else some { given with emit := some value }
  | .extension =>
      if given.extension.isSome then none
      else some { given with extension := some value }

/-- What an argument leads to: more arguments, a value for an option, or the
end. -/
inductive Progress where
  | more (given : Given)
  | wants (field : Field) (given : Given)
  | help
  | version
  | misuse
deriving DecidableEq, Repr

/-- Go on with the given values, if they are right. -/
def Progress.ofGiven? : Option Given → Progress
  | some given => .more given
  | none => .misuse

/-- An option that takes a value, which may be attached to it. -/
def valued (given : Given) (field : Field) : Option String → Progress
  | some value => Progress.ofGiven? (given.set? field value)
  | none => .wants field given

/-- An argument that starts with two dashes, by what follows them: a name and
perhaps a value after the first `=`. -/
def long (given : Given) (argument : List Char) : Progress :=
  let name := String.ofList (argument.takeWhile (· != '='))
  let value :=
    match argument.dropWhile (· != '=') with
    | [] => none
    | _ :: rest => some (String.ofList rest)
  match name with
  | "input" => valued given .input value
  | "output" => valued given .output value
  | "emit" => valued given .emit value
  | "extension" => valued given .extension value
  | "check" =>
      if value.isSome || given.check then .misuse
      else .more { given with check := true }
  | "deny-warnings" =>
      if value.isSome || given.denyWarnings then .misuse
      else .more { given with denyWarnings := true }
  | "verbose" => if value.isSome then .misuse else .more given
  | "help" => if value.isSome then .misuse else .help
  | "version" => if value.isSome then .misuse else .version
  | _ => .misuse

/-- A value attached to an option of one letter, perhaps after a `=`. -/
def attached : List Char → Option String
  | [] => none
  | '=' :: value => some (String.ofList value)
  | value => some (String.ofList value)

/-- An argument that starts with one dash, by the letters that follow it.  A
letter that takes a value takes the rest. -/
def short (given : Given) : List Char → Progress
  | [] => .more given
  | 'v' :: rest => short given rest
  | 'h' :: _ => .help
  | 'V' :: _ => .version
  | 'i' :: rest => valued given .input (attached rest)
  | 'o' :: rest => valued given .output (attached rest)
  | _ => .misuse

/-- An argument that is neither a value nor the end of the options. -/
def argument (given : Given) (text : String) : Progress :=
  match text.toList with
  | '-' :: '-' :: name => long given name
  | '-' :: letter :: letters => short given (letter :: letters)
  | _ => .misuse

/-- Whether an argument can be the value of the option before it. -/
def isValue (text : String) : Bool :=
  text == "-" || text.toList.head? != some '-'

def read (given : Given) : List String → Request
  | [] => .run given.options
  | first :: rest =>
      if first = "--" then
        if rest.isEmpty then .run given.options else .misuse
      else
        match argument given first with
        | .more next => read next rest
        | .wants field next =>
            match rest with
            | [] => .misuse
            | value :: others =>
                if isValue value then
                  match next.set? field value with
                  | some filled => read filled others
                  | none => .misuse
                else .misuse
        | .help => .help
        | .version => .version
        | .misuse => .misuse

def ofArguments (arguments : List String) : Request :=
  read {} arguments

end Options

end ThreeAddress
