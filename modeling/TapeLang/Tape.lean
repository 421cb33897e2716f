import Std.Data.TreeMap

/-! The tape: a byte for every integer, zero where nothing was stored. A cell stays stored once an
operation has touched it, whatever its value. -/
namespace TapeLang
set_option autoImplicit false

/-- The cells that were stored, by index. -/
structure Tape where
  /-- The stored cells; all others are zero. -/
  cells : Std.TreeMap Int UInt8 := ∅

/-- A change to a tape. -/
inductive Tape.Operation where
  /-- Store a value in a cell. -/
  | set (index : Int) (value : UInt8)
  /-- Add one to a cell. -/
  | increment (index : Int)
  /-- Subtract one from a cell. -/
  | decrement (index : Int)
  /-- Forget every cell. -/
  | clear
  deriving DecidableEq

namespace Tape

/-- The tape on which nothing is stored. -/
def empty : Tape := {}

/-- The value of a cell. -/
def get (t : Tape) (index : Int) : UInt8 :=
  t.cells.getD index 0

/-- Stores a value in a cell. -/
def set (t : Tape) (index : Int) (value : UInt8) : Tape :=
  ⟨t.cells.insert index value⟩

/-- Adds one to a cell, modulo 256. -/
def increment (t : Tape) (index : Int) : Tape :=
  t.set index (t.get index + 1)

/-- Subtracts one from a cell, modulo 256. -/
def decrement (t : Tape) (index : Int) : Tape :=
  t.set index (t.get index - 1)

/-- The number of stored cells. -/
def stored (t : Tape) : Nat :=
  t.cells.size

/-- Performs one change. -/
def perform (t : Tape) : Operation → Tape
  | .set index value => t.set index value
  | .increment index => t.increment index
  | .decrement index => t.decrement index
  | .clear => empty

@[simp] theorem get_empty (i : Int) : empty.get i = 0 := by
  simp [empty, get]

@[simp] theorem stored_empty : empty.stored = 0 := by
  simp [empty, stored]

theorem get_set (t : Tape) (i j : Int) (v : UInt8) :
    (t.set i v).get j = if i = j then v else t.get j := by
  simp [get, set, Std.TreeMap.getD_insert]

@[simp] theorem get_set_self (t : Tape) (i : Int) (v : UInt8) : (t.set i v).get i = v := by
  simp [get_set]

theorem get_set_of_ne (t : Tape) {i j : Int} (h : i ≠ j) (v : UInt8) :
    (t.set i v).get j = t.get j := by
  simp [get_set, h]

theorem mem_set (t : Tape) (i j : Int) (v : UInt8) :
    j ∈ (t.set i v).cells ↔ i = j ∨ j ∈ t.cells := by
  simp [set, Std.TreeMap.mem_insert]

theorem get_of_not_mem {t : Tape} {i : Int} (h : i ∉ t.cells) : t.get i = 0 :=
  Std.TreeMap.getD_eq_fallback h

/-- Storing in a cell counts it once, however often it is stored in. -/
theorem stored_set (t : Tape) (i : Int) (v : UInt8) :
    (t.set i v).stored = if i ∈ t.cells then t.stored else t.stored + 1 := by
  simp only [stored, set, Std.TreeMap.size_insert, Std.TreeMap.contains_iff_mem]

end Tape

end TapeLang
