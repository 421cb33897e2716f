import TapeLang.Text.Blank

/-! Numbers as a user may type them, and the whole number that each denotes.

A numeral is an optional sign followed by either `0x` and a run of hexadecimal digits, or a run of
decimal digits with an optional fraction and an optional exponent. A run of digits may have single
underscores between its digits. Only the leading decimal digits count: a fraction and an exponent
are read and dropped, and the leading decimal digits of a hexadecimal numeral are its `0`. -/
namespace TapeLang.Numeral
set_option autoImplicit false

/-! ## Runs of digits -/

/-- Whether a character is a hexadecimal digit. -/
def isHexDigit (c : Char) : Bool :=
  c.isDigit || ('a' ≤ c && c ≤ 'f') || ('A' ≤ c && c ≤ 'F')

/-- Whether a text is one or more digits with single underscores only between two of them. -/
def isRun (isDigit : Char → Bool) : List Char → Bool
  | [] => false
  | [c] => isDigit c
  | c :: d :: rest =>
    isDigit c && if d = '_' then isRun isDigit rest else isRun isDigit (d :: rest)

/-- The number that a run of decimal digits denotes. -/
def runValue (run : List Char) : Nat :=
  (run.filter (· ≠ '_')).foldl (fun n c => 10 * n + (c.toNat - '0'.toNat)) 0

/-! ## The parts of a numeral -/

/-- The text before the first character that satisfies `p`, and the text after it if there is such
a character. -/
def cut (p : Char → Bool) (text : List Char) : List Char × Option (List Char) :=
  match text.dropWhile (!p ·) with
  | [] => (text, none)
  | _ :: after => (text.takeWhile (!p ·), some after)

/-- Whether a text starts with a minus sign, and the text without its sign. -/
def splitSign : List Char → Bool × List Char
  | '-' :: rest => (true, rest)
  | '+' :: rest => (false, rest)
  | text => (false, text)

/-- Whether a character starts the exponent of a numeral. -/
def isExponentMark (c : Char) : Bool :=
  c = 'e' || c = 'E'

/-- The whole part of an unsigned decimal numeral. -/
def decimal? (text : List Char) : Option Nat :=
  let (mantissa, exponent) := cut isExponentMark text
  let (whole, fraction) := cut (· = '.') mantissa
  if isRun Char.isDigit whole && fraction.all (isRun Char.isDigit) &&
      exponent.all (fun e => isRun Char.isDigit (splitSign e).2)
  then some (runValue whole) else none

/-- The whole part of an unsigned numeral. -/
def magnitude? (text : List Char) : Option Nat :=
  match text with
  | '0' :: 'x' :: digits => if isRun isHexDigit digits then some 0 else none
  | '0' :: 'X' :: digits => if isRun isHexDigit digits then some 0 else none
  | _ => decimal? text

/-- The whole part of a numeral with white space around it. -/
def value? (text : List Char) : Option Int :=
  let (negative, body) := splitSign (Text.trim text)
  (magnitude? body).map fun n => if negative then -(n : Int) else n

end TapeLang.Numeral
