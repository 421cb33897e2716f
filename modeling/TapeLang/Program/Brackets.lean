import TapeLang.Fault
import TapeLang.Text.Quoted

/-! Brackets and their partners.

* `closing` and `opening` look for the partner of the bracket at an index, by counting brackets
  until the count is back at zero.
* `unmatched?` finds a bracket without a partner in one pass over the whole program, with the open
  brackets on a stack.
* `check` turns what `unmatched?` finds into a fault. -/
namespace TapeLang
set_option autoImplicit false

/-- What a character adds to the nesting depth of a text. -/
def nesting (c : Char) : Int :=
  if c = '[' then 1 else if c = ']' then -1 else 0

namespace Program

/-- What the character at an index adds to the nesting depth. -/
def nestingAt (p : Program) (index : Nat) : Int :=
  match p.get? index with
  | some c => nesting c
  | none => 0

/-! ## Looking for a partner -/

/-- Walks to the right from `index`, with `left` characters to go, until the depth is zero. -/
def scanRight (p : Program) : (left index : Nat) → (depth : Int) → Except Edge Nat
  | 0, _, _ => .error .afterEnd
  | left + 1, index, depth =>
    let depth := depth + p.nestingAt index
    if depth = 0 then .ok index else scanRight p left (index + 1) depth

/-- Walks to the left from the character before `index`, until the depth is zero. -/
def scanLeft (p : Program) : (index : Nat) → (depth : Int) → Except Edge Nat
  | 0, _ => .error .beforeStart
  | index + 1, depth =>
    let depth := depth - p.nestingAt index
    if depth = 0 then .ok index else scanLeft p index depth

/-- The index of the bracket that closes the loop opened at `index`. -/
def closing (p : Program) (index : Nat) : Except Edge Nat :=
  p.scanRight (p.length - index) index 0

/-- The index of the bracket that opens the loop closed at `index`. -/
def opening (p : Program) (index : Nat) : Except Edge Nat :=
  p.scanLeft (index + 1) 0

/-! ## Brackets without a partner -/

/-- What a place holds, as an internal message shows it. -/
def holding : Option Char → String
  | some c => "Some(" ++ Text.quote c ++ ")"
  | none => "None"

/-- The fault of the bracket at an index that has no partner. -/
def unmatchedFault (p : Program) (index radius : Nat) : Fault :=
  match p.get? index with
  | some '[' => .unmatched .opening (p.position index) (p.excerpt index radius)
  | some ']' => .unmatched .closing (p.position index) (p.excerpt index radius)
  | other =>
    .internal ("bracket error raised at offset " ++ index.repr ++ " which holds " ++ holding other)

/-- The first closing bracket that finds no open bracket, or else the earliest bracket left open at
the end. The characters start at `index`, and `opened` holds the open brackets before them, the
latest first. -/
def unmatchedFrom : List Char → (index : Nat) → (opened : List Nat) → Option Nat
  | [], _, opened => opened.getLast?
  | c :: rest, index, opened =>
    if c = '[' then unmatchedFrom rest (index + 1) (index :: opened)
    else if c = ']' then
      match opened with
      | [] => some index
      | _ :: opened => unmatchedFrom rest (index + 1) opened
    else unmatchedFrom rest (index + 1) opened

/-- The index of a bracket without a partner, if there is one. -/
def unmatched? (p : Program) : Option Nat :=
  unmatchedFrom p.chars.toList 0 []

/-- Accepts a program in which every bracket has a partner. -/
def check (p : Program) (radius : Nat := Excerpt.defaultRadius) : Except Fault Unit :=
  match p.unmatched? with
  | none => .ok ()
  | some index => .error (p.unmatchedFault index radius)

end Program

end TapeLang
