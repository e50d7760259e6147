/-!
Paths.  A path is kept as it is written, so that its text can be shown again;
what it names are the segments that are neither empty nor a single dot.  Names
are texts, and those whose bytes encode no text are left out.
-/

namespace ThreeAddress

/-- Where a path starts: nowhere in particular, at an explicit `.`, or at the
root. -/
inductive Anchor where
  | relative
  | here
  | root
deriving DecidableEq, Repr

/-- A path: its start and what stands between the slashes. -/
structure Path where
  anchor : Anchor
  segments : List String
deriving DecidableEq, Repr

/-- What stands between the separators; one part more than there are
separators. -/
def splitAt (separator : Char) : List Char → List (List Char)
  | [] => [[]]
  | character :: rest =>
      if character = separator then [] :: splitAt separator rest
      else
        match splitAt separator rest with
        | [] => [[character]]
        | part :: others => (character :: part) :: others

/-- The part before and the part after the last separator. -/
def splitLast (separator : Char) : List Char → Option (List Char × List Char)
  | [] => none
  | character :: rest =>
      match splitLast separator rest with
      | some (before, after) => some (character :: before, after)
      | none => if character = separator then some ([], rest) else none

/-- The stem and the extension of a file name.  The extension is what follows
the last dot, but a dot at the front of a name starts none. -/
def splitName (name : String) : String × Option String :=
  match splitLast '.' name.toList with
  | some (first :: stem, extension) =>
      (String.ofList (first :: stem), some (String.ofList extension))
  | _ => (name, none)

/-- The file name with the extension replaced, or added where there is none.
What is replaced is the text after the dot.  Where two dots are all that stands
before that text, they are a step upwards, and a step upwards takes no
extension. -/
def withExtension (name extension : String) : String :=
  match splitName name with
  | (".", some _) => ".."
  | (stem, _) => stem ++ "." ++ extension

namespace Path

def segmentsOf (text : List Char) : List String :=
  (splitAt '/' text).map String.ofList

def ofText (text : String) : Path :=
  match text.toList with
  | '/' :: rest => ⟨.root, segmentsOf rest⟩
  | ['.'] => ⟨.here, []⟩
  | '.' :: '/' :: rest => ⟨.here, segmentsOf rest⟩
  | characters => ⟨.relative, segmentsOf characters⟩

def text (path : Path) : String :=
  let joined := "/".intercalate path.segments
  match path.anchor with
  | .relative => joined
  | .here => if path.segments.isEmpty then "." else "./" ++ joined
  | .root => "/" ++ joined

/-- Whether a segment leads anywhere. -/
def isName (segment : String) : Bool :=
  segment != "" && segment != "."

/-- Whether a segment is longer than a name may be, which is 255 bytes. -/
def isLongName (segment : String) : Bool :=
  255 < segment.utf8ByteSize

/-- Whether a path is longer than a path may be, which is 4095 bytes. -/
def isLong (path : Path) : Bool :=
  4095 < path.text.utf8ByteSize

/-- The segments that lead somewhere. -/
def names (path : Path) : List String :=
  path.segments.filter isName

/-- The segments up to the last that leads somewhere. -/
def trim (segments : List String) : List String :=
  (segments.reverse.dropWhile fun segment => !isName segment).reverse

/-- The path without its last name.  An explicit `.` alone has the empty path
above it; the root and the empty path have none. -/
def parent? (path : Path) : Option Path :=
  if (trim path.segments).isEmpty then
    if path.anchor = .here then some ⟨.relative, []⟩ else none
  else some { path with segments := trim (trim path.segments).dropLast }

/-- The last name of a path, unless it leads upwards. -/
def fileName? (path : Path) : Option String :=
  path.names.getLast?.filter fun name => name != ".."

/-- The path to something below a path; below it by no names is the path
itself. -/
def below (path : Path) (names : List String) : Path :=
  if names.isEmpty then path
  else if path.segments.getLast? = some "" then
    { path with segments := path.segments.dropLast ++ names }
  else { path with segments := path.segments ++ names }

end Path

end ThreeAddress
