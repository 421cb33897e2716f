import TapeLang.Program

/-! Places in a program as a reader counts them: lines and columns from one. -/
namespace TapeLang
set_option autoImplicit false

/-- A place in a text. -/
structure Position where
  /-- The line, counted from one. -/
  line : Nat
  /-- The column, counted from one. -/
  column : Nat
  /-- The number of characters before the place. -/
  offset : Nat
  deriving DecidableEq

/-- A position as messages show it. -/
def Position.text (p : Position) : String :=
  "line: " ++ p.line.repr ++ ", column: " ++ p.column.repr

/-- The place of the character at an index; an index past the end has the line and column of the
last character. The line is one more than the number of newlines up to the character and the
character itself; the column is one more than the number of characters since the last newline
before it. So a newline has the line that it starts and the column that it ends. -/
def Program.position (p : Program) (index : Nat) : Position :=
  let last := min index (p.length - 1)
  let before := p.chars.toList.take last
  { line := (p.chars.toList.take (last + 1)).count '\n' + 1
    column := (before.reverse.takeWhile (· ≠ '\n')).length + 1
    offset := index }

end TapeLang
