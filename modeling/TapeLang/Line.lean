import TapeLang.Numeral

/-! Lines of input and the byte that each stands for. -/
namespace TapeLang.Line
set_option autoImplicit false

/-- A line without its line ending, which is a carriage return and a newline or one of the two. -/
def content (line : List Char) : List Char :=
  match line.reverse with
  | '\n' :: '\r' :: rest => rest.reverse
  | '\n' :: rest => rest.reverse
  | '\r' :: rest => rest.reverse
  | _ => line

/-- The byte that a text stands for by its first character: the code point modulo 256, and zero for
the empty text. -/
def firstByte : List Char → UInt8
  | [] => 0
  | c :: _ => UInt8.ofNat c.toNat

/-- The byte that a line of input stores: the whole part of a numeral modulo 256, and the first
character of any other text. -/
def value (line : String) : UInt8 :=
  let text := content line.toList
  match Numeral.value? text with
  | some n => UInt8.ofInt n
  | none => firstByte text

end TapeLang.Line
