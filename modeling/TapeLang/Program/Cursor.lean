import TapeLang.Program

/-! Cursors: a position that never leaves its program. A move that would leave it is refused, with
the edge that it would have crossed. -/
namespace TapeLang
set_option autoImplicit false

/-- The edge of a program that a move would have crossed. -/
inductive Edge where
  /-- The move goes below the first character. -/
  | beforeStart
  /-- The move goes past the last character. -/
  | afterEnd
  deriving DecidableEq

/-- What is reported when a move across an edge is refused. -/
def Edge.message : Edge → String
  | beforeStart => "cursor position cannot go below zero"
  | afterEnd => "cursor position cannot go past the end of the program"

/-- A position in a text of a given length. -/
structure Cursor where
  /-- The number of characters that the cursor may stand on. -/
  length : Nat
  /-- The index of the character under the cursor. -/
  position : Nat := 0
  deriving DecidableEq

namespace Cursor

/-- Puts the cursor on a given index, if the text has it. -/
def moveTo (c : Cursor) (target : Int) : Except Edge Cursor :=
  if target < 0 then .error .beforeStart
  else if (c.length : Int) ≤ target then .error .afterEnd
  else .ok { c with position := target.toNat }

/-- Moves the cursor by a signed distance. -/
def advance (c : Cursor) (distance : Int) : Except Edge Cursor :=
  c.moveTo (c.position + distance)

theorem advance_one (c : Cursor) :
    c.advance 1 =
      if c.position + 1 < c.length then .ok { c with position := c.position + 1 }
      else .error .afterEnd := by
  unfold advance moveTo
  have h : ¬ ((c.position : Int) + 1 < 0) := by omega
  rw [if_neg h]
  split <;> split <;> first | rfl | omega

end Cursor

/-- The cursor on the first character of a program. -/
def Program.cursor (p : Program) : Cursor :=
  { length := p.length }

end TapeLang
