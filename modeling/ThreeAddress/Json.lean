/-!
JSON values and their two written forms.  An object keeps its members in the
order in which they are given.  The compact form has no blanks; the indented
form puts every element and every member on a line of its own.

The two forms stand for what a library for such documents writes: its escapes,
separators and indentation are written out, and taken for granted.
-/

namespace ThreeAddress

/-- A JSON value; the only numbers are natural numbers. -/
inductive Json where
  | null
  | bool (value : Bool)
  | num (value : Nat)
  | str (value : String)
  | arr (elements : List Json)
  | obj (members : List (String × Json))
deriving Repr

namespace Json

def hexDigit (value : Nat) : Char :=
  (Nat.toDigits 16 value).headD '0'

/-- A character as it stands between the quotes of a string.  Quotes,
backslashes and the characters below the blank are escaped, the rest is
written as it is. -/
def escape (character : Char) : List Char :=
  if character = '"' then ['\\', '"']
  else if character = '\\' then ['\\', '\\']
  else if character = '\n' then ['\\', 'n']
  else if character = '\r' then ['\\', 'r']
  else if character = '\t' then ['\\', 't']
  else if character.toNat = 0x08 then ['\\', 'b']
  else if character.toNat = 0x0c then ['\\', 'f']
  else if character.toNat < 0x20 then
    ['\\', 'u', '0', '0', hexDigit (character.toNat / 16),
      hexDigit (character.toNat % 16)]
  else [character]

def quoted (text : String) : String :=
  "\"" ++ String.ofList (text.toList.flatMap escape) ++ "\""

mutual

/-- The written form without blanks. -/
def compact : Json → String
  | null => "null"
  | bool value => if value then "true" else "false"
  | num value => value.repr
  | str value => quoted value
  | arr elements => "[" ++ ",".intercalate (compactElements elements) ++ "]"
  | obj members =>
      "\x7b" ++ ",".intercalate (compactMembers members) ++ "\x7d"

def compactElements : List Json → List String
  | [] => []
  | element :: rest => element.compact :: compactElements rest

def compactMembers : List (String × Json) → List String
  | [] => []
  | (key, value) :: rest =>
      (quoted key ++ ":" ++ value.compact) :: compactMembers rest

end

/-- Items on lines of their own between two brackets, at the given depth of
indentation; no items, no lines. -/
def block (depth : Nat) (opening closing : String) (items : List String) :
    String :=
  let indent := fun count => String.ofList (List.replicate (2 * count) ' ')
  match items with
  | [] => opening ++ closing
  | _ =>
      opening ++ "\n" ++
        ",\n".intercalate (items.map fun item => indent (depth + 1) ++ item) ++
        "\n" ++ indent depth ++ closing

mutual

/-- The written form with an indentation of two blanks for each level, for a
value that itself stands at the given depth. -/
def indented (depth : Nat) : Json → String
  | null => "null"
  | bool value => if value then "true" else "false"
  | num value => value.repr
  | str value => quoted value
  | arr elements => block depth "[" "]" (indentedElements (depth + 1) elements)
  | obj members =>
      block depth "\x7b" "\x7d" (indentedMembers (depth + 1) members)

def indentedElements (depth : Nat) : List Json → List String
  | [] => []
  | element :: rest => element.indented depth :: indentedElements depth rest

def indentedMembers (depth : Nat) : List (String × Json) → List String
  | [] => []
  | (key, value) :: rest =>
      (quoted key ++ ": " ++ value.indented depth) ::
        indentedMembers depth rest

end

def pretty (value : Json) : String :=
  value.indented 0

/-- A member that is left out when there is no value. -/
def optional (key : String) : Option Json → List (String × Json)
  | none => []
  | some value => [(key, value)]

end Json

end ThreeAddress
