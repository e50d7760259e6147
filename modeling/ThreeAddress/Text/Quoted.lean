import ThreeAddress.Text.Extending
import ThreeAddress.Text.Printable

/-!
A text between double quotes, so that every character of it can be told.  Five
characters and the quote have a letter of their own after a backslash; others
that cannot be seen, or that would merge with the character before them, are
given by their code points.
-/

namespace ThreeAddress

namespace Quoted

/-- What stands after the backslash, for the characters that have a letter of
their own. -/
def letter? : Char → Option Char
  | '\x00' => some '0'
  | '\t' => some 't'
  | '\r' => some 'r'
  | '\n' => some 'n'
  | '\\' => some '\\'
  | '"' => some '"'
  | _ => none

/-- The code point of a character in braces, in hexadecimal digits. -/
def codePoint (character : Char) : List Char :=
  ['\\', 'u', '{'] ++ Nat.toDigits 16 character.toNat ++ ['}']

def escape (character : Char) : List Char :=
  match letter? character with
  | some letter => ['\\', letter]
  | none =>
      if isExtending character || !isPrintable character then
        codePoint character
      else [character]

/-- The written form of a text, with its quotes. -/
def ofText (text : String) : String :=
  "\"" ++ String.ofList (text.toList.flatMap escape) ++ "\""

end Quoted

end ThreeAddress
