import TapeLang.Program
import TapeLang.Text.Blank

/-! Excerpts: a window of program text of a fixed width, with a caret under its middle. -/
namespace TapeLang
set_option autoImplicit false

/-- A window of text and the column of the caret below it. -/
structure Excerpt where
  /-- The characters shown. -/
  window : String
  /-- The number of characters before the marked one. -/
  caret : Nat
  deriving DecidableEq

namespace Excerpt

/-- The number of characters shown on each side unless another is asked for. -/
def defaultRadius : Nat := 10

/-- The line with the caret. -/
def marker (e : Excerpt) : String :=
  String.ofList (List.replicate e.caret ' ') ++ "^"

/-- The window and the caret line below it. -/
def text (e : Excerpt) : String :=
  e.window ++ "\n" ++ e.marker

end Excerpt

namespace Program

/-- What a window shows for a position: the character there, and a space for white space, a control
character and a position outside the program. -/
def shown (p : Program) : Int → Char
  | .ofNat i =>
    match p.get? i with
    | some c => if Text.isBlank c || Text.isControl c then ' ' else c
    | none => ' '
  | .negSucc _ => ' '

/-- The excerpt with `radius` characters on each side of an index. An index is a 64-bit word and
its window is laid out over signed words, so the upper half of the indexes stands for the positions
before the start of the program. -/
def excerpt (p : Program) (index radius : Nat) : Excerpt :=
  let centre := Int.bmod index UInt64.size
  let positions := (List.range (2 * radius + 1)).map fun (k : Nat) => centre - radius + k
  { window := String.ofList (positions.map p.shown)
    caret := radius }

end Program

end TapeLang
