/-! The eight instructions of the language and the characters that spell them. A character that
spells no instruction is a comment. Writing an instruction and reading it back gives the instruction
again (`ofChar?_toChar`), and no other character reads as it (`toChar_of_ofChar?`). -/
namespace TapeLang
set_option autoImplicit false

/-- One instruction of the language. -/
inductive Instruction where
  /-- Move the pointer one cell to the right. -/
  | right
  /-- Move the pointer one cell to the left. -/
  | left
  /-- Add one to the current cell. -/
  | increment
  /-- Subtract one from the current cell. -/
  | decrement
  /-- Skip past the partner bracket if the current cell is zero. -/
  | openLoop
  /-- Go back past the partner bracket if the current cell is not zero. -/
  | closeLoop
  /-- Write the current cell as one byte. -/
  | write
  /-- Read one line into the current cell. -/
  | read
  deriving DecidableEq

namespace Instruction

/-- All instructions, in the order in which the language lists them. -/
def all : List Instruction :=
  [right, left, increment, decrement, openLoop, closeLoop, write, read]

/-- The character that spells an instruction. -/
def toChar : Instruction → Char
  | right => '>'
  | left => '<'
  | increment => '+'
  | decrement => '-'
  | openLoop => '['
  | closeLoop => ']'
  | write => '.'
  | read => ','

/-- The instruction that a character spells, if it spells one. -/
def ofChar? (c : Char) : Option Instruction :=
  match c with
  | '>' => some right
  | '<' => some left
  | '+' => some increment
  | '-' => some decrement
  | '[' => some openLoop
  | ']' => some closeLoop
  | '.' => some write
  | ',' => some read
  | _ => none

@[simp] theorem ofChar?_toChar (i : Instruction) : ofChar? i.toChar = some i := by
  cases i <;> rfl

theorem toChar_of_ofChar? {c : Char} {i : Instruction} (h : ofChar? c = some i) :
    i.toChar = c := by
  unfold ofChar? at h
  split at h <;> simp_all [toChar]
  all_goals subst h; rfl

theorem mem_all (i : Instruction) : i ∈ all := by
  cases i <;> decide

end Instruction

end TapeLang
