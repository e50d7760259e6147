/-!
The lines of a text.  A line ends with a line feed or with a carriage return
and a line feed; the last line may end with the text instead, and then a
carriage return at its end belongs to it.
-/

namespace ThreeAddress

/-- The lines of a text without their ends.  A text that stops right after a
line end has no further, empty line. -/
def lines : List Char → List (List Char)
  | [] => []
  | '\n' :: rest => [] :: lines rest
  | '\r' :: '\n' :: rest => [] :: lines rest
  | character :: rest =>
      match lines rest with
      | [] => [[character]]
      | line :: following => (character :: line) :: following

end ThreeAddress
