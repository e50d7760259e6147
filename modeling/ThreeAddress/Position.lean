/-!
Places in a source text.  A place is a line and a column, both counted from
one; columns count characters.

The numbers have no bound.  Lines and columns that are counted in words of 32
bits are the same below `2 ^ 32` only.
-/

namespace ThreeAddress

/-- A line and a column, both counted from one. -/
structure Position where
  line : Nat
  column : Nat
deriving DecidableEq, Repr

/-- The written form `line:column`. -/
def Position.text (position : Position) : String :=
  position.line.repr ++ ":" ++ position.column.repr

/-- Source order: by line, and within a line by column. -/
def Position.order (first second : Position) : Ordering :=
  (compare first.line second.line).then (compare first.column second.column)

end ThreeAddress
