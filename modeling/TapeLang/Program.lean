/-! Programs: a text indexed by character. -/
namespace TapeLang
set_option autoImplicit false

/-- The text of a program, indexed by character. -/
structure Program where
  /-- The characters in order, comments included. -/
  chars : Array Char := #[]
  deriving DecidableEq

namespace Program

/-- The program with a given source text. -/
def ofString (source : String) : Program :=
  ⟨source.toList.toArray⟩

/-- The source text of a program. -/
def toString (p : Program) : String :=
  String.ofList p.chars.toList

/-- The number of characters of a program. -/
def length (p : Program) : Nat :=
  p.chars.size

/-- Whether a program has no characters at all. -/
def isEmpty (p : Program) : Bool :=
  p.chars.isEmpty

/-- The character at an index, if the index lies inside the program. -/
def get? (p : Program) (index : Nat) : Option Char :=
  p.chars[index]?

@[simp] theorem toString_ofString (source : String) : (ofString source).toString = source := by
  simp [ofString, toString]

@[simp] theorem length_ofString (source : String) :
    (ofString source).length = source.toList.length := by
  simp [ofString, length]

theorem get?_ofString (source : String) (i : Nat) :
    (ofString source).get? i = source.toList[i]? := by
  simp [ofString, get?]

theorem isEmpty_iff_length_eq_zero (p : Program) : p.isEmpty = true ↔ p.length = 0 := by
  simp [isEmpty, length]

theorem get?_isSome_iff (p : Program) (i : Nat) : (p.get? i).isSome = true ↔ i < p.length := by
  simp [get?, length]

end Program

end TapeLang
