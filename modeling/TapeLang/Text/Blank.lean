import TapeLang.Text.Ranges

/-! White space and control characters, and trimming. White space is the Unicode property
`White_Space`; control characters are the general category `Cc`. -/
namespace TapeLang.Text
set_option autoImplicit false

/-- The code points with the Unicode property `White_Space`. -/
def whiteSpace : Ranges :=
  [(0x9, 0xD), (0x20, 0x20), (0x85, 0x85), (0xA0, 0xA0), (0x1680, 0x1680), (0x2000, 0x200A),
    (0x2028, 0x2029), (0x202F, 0x202F), (0x205F, 0x205F), (0x3000, 0x3000)]

/-- The control characters: the two blocks of code points below U+0020 and from U+007F to
U+009F. -/
def controls : Ranges :=
  [(0x0, 0x1F), (0x7F, 0x9F)]

/-- Whether a character is white space. -/
def isBlank (c : Char) : Bool :=
  whiteSpace.has c

/-- Whether a character is a control character. -/
def isControl (c : Char) : Bool :=
  controls.has c

/-- A text without the white space at its two ends. -/
def trim (text : List Char) : List Char :=
  ((text.dropWhile isBlank).reverse.dropWhile isBlank).reverse

/-- Every character that core counts as white space is white space here. -/
theorem isBlank_of_isWhitespace {c : Char} (h : c.isWhitespace = true) : isBlank c = true := by
  simp only [Char.isWhitespace, Bool.or_eq_true, decide_eq_true_eq] at h
  rcases h with ((rfl | rfl) | rfl) | rfl <;> decide

@[simp] theorem trim_nil : trim [] = [] := rfl

end TapeLang.Text
