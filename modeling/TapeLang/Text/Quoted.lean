import TapeLang.Text.Printable

/-! A character between single quotes, as messages show it. -/
namespace TapeLang.Text
set_option autoImplicit false

/-- A number in lower-case hexadecimal, without padding. -/
def hex (n : Nat) : String :=
  String.ofList (Nat.toDigits 16 n)

/-- The body of a quoted character: a backslash and a letter for the common controls, a backslash
before the quote and the backslash, the character itself if it can be shown, and otherwise its
code point in braces. -/
def escape (c : Char) : String :=
  if c = '\x00' then "\\0"
  else if c = '\t' then "\\t"
  else if c = '\r' then "\\r"
  else if c = '\n' then "\\n"
  else if c = '\x27' then "\\'"
  else if c = '\\' then "\\\\"
  else if isPrintable c then String.singleton c
  else "\\u\x7b" ++ hex c.toNat ++ "\x7d"

/-- A character between single quotes. -/
def quote (c : Char) : String :=
  "'" ++ escape c ++ "'"

end TapeLang.Text
