import TapeLang.Host.Devices

/-! Input given as a list of lines. -/
namespace TapeLang
set_option autoImplicit false

/-- The lines still to be read, in order; `none` is a read that fails. -/
structure LineScript where
  /-- The lines that remain. -/
  lines : List (Option String) := []
  deriving DecidableEq

namespace LineScript

/-- The script of the given lines, none of which fails. -/
def ofLines (lines : List String) : LineScript :=
  ⟨lines.map some⟩

/-- The number of lines that remain. -/
def remaining (s : LineScript) : Nat :=
  s.lines.length

/-- Takes the first of the remaining lines. After the last line every read gives the empty line. -/
def readLine (s : LineScript) : Option String × LineScript :=
  match s.lines with
  | [] => (some "", s)
  | line :: rest => (line, ⟨rest⟩)

instance : Source LineScript where
  readLine := readLine

end LineScript

end TapeLang
