import TapeLang.Instruction

/-! The shorthand dialect: instructions followed by digits that repeat them.

A digit repeats the unit before it so that the unit stands there as many times as the digit says,
with `0` for ten. The repeated text is the new unit, so a further digit multiplies. Characters that
are neither instructions nor digits disappear, and so does a digit before any instruction. -/
namespace TapeLang
set_option autoImplicit false

namespace Shorthand

/-- The number of times that a digit asks for its unit, if the character is a digit. -/
def repeats? (c : Char) : Option Nat :=
  if c.isDigit then some (if c = '0' then 10 else c.toNat - '0'.toNat) else none

/-- A text put down a number of times. -/
def copies : Nat → String → String
  | 0, _ => ""
  | n + 1, text => copies n text ++ text

@[simp] theorem toList_copies (n : Nat) (text : String) :
    (copies n text).toList = (List.replicate n text.toList).flatten := by
  induction n with
  | zero => rfl
  | succ n ih => simp [copies, ih, List.replicate_succ']

end Shorthand

/-- A reader of shorthand, which can be used again for one source after another. -/
structure Expander where
  /-- The instructions written so far. -/
  output : String := ""
  /-- The text that a digit would repeat. -/
  unit : String := ""
  deriving DecidableEq

namespace Expander

/-- Takes one character of the source. -/
def feed (e : Expander) (c : Char) : Expander :=
  match Instruction.ofChar? c with
  | some i => { output := e.output.push i.toChar, unit := String.singleton i.toChar }
  | none =>
    match Shorthand.repeats? c with
    | some n =>
      let more := Shorthand.copies (n - 1) e.unit
      { output := e.output ++ more, unit := e.unit ++ more }
    | none => e

/-- Forgets what was read before. -/
def reset (e : Expander) : Expander :=
  { e with output := "", unit := "" }

/-- Takes a whole source from a clean start and hands over its expansion; the last unit stays
behind. -/
def run (e : Expander) (source : String) : String × Expander :=
  let e := source.toList.foldl feed e.reset
  (e.output, { e with output := "" })

end Expander

/-- The plain program that a shorthand source stands for. -/
def expand (source : String) : String :=
  (Expander.run {} source).1

end TapeLang
