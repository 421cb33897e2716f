import Mathlib.Data.Finset.Card
import Mathlib.Data.List.DropRight
import TapeLang.Tape

/-! Tapes as what was done to them.

A tape keeps only the cells that were stored. It stands for a byte at every integer, together with the
set of the cells that were touched. Both can be told from the operations alone, and both forget what
was before the last `clear`. A cell that was changed back to zero reads like one that was never
touched, but it stays in the set. -/
namespace TapeLang
set_option autoImplicit false

namespace Tape

/-! ## What the operations say -/

/-- The cell that an operation works on; `clear` works on none in particular. -/
def Operation.index? : Operation → Option Int
  | .set index _ => some index
  | .increment index => some index
  | .decrement index => some index
  | .clear => none

/-- What an operation on a cell makes of its value. -/
def Operation.apply (value : Int) : Operation → Int
  | .set _ value => value.toNat
  | .increment _ => (value + 1) % 256
  | .decrement _ => (value - 1) % 256
  | .clear => 0

/-- The operations since everything was last forgotten. -/
def sinceClear (operations : List Operation) : List Operation :=
  operations.rtakeWhile (· ≠ .clear)

/-- The value of a cell, from the operations on that cell alone. -/
def replayed (operations : List Operation) (index : Int) : Int :=
  ((sinceClear operations).filter (·.index? = some index)).foldl Operation.apply 0

/-- The cells that were touched. -/
def touched (operations : List Operation) : Finset Int :=
  ((sinceClear operations).filterMap Operation.index?).toFinset

variable {operations : List Operation} {op : Operation}

theorem sinceClear_clear : sinceClear (operations ++ [.clear]) = [] := by
  simp [sinceClear]

theorem sinceClear_concat {i : Int} (h : op.index? = some i) :
    sinceClear (operations ++ [op]) = sinceClear operations ++ [op] := by
  have hne : op ≠ .clear := by
    rintro rfl
    cases h
  simp [sinceClear, hne]

theorem replayed_concat {i : Int} (h : op.index? = some i) (j : Int) :
    replayed (operations ++ [op]) j =
      if i = j then op.apply (replayed operations j) else replayed operations j := by
  unfold replayed
  rw [sinceClear_concat h, List.filter_append]
  by_cases hij : i = j <;> simp [h, hij]

theorem touched_concat {i : Int} (h : op.index? = some i) :
    touched (operations ++ [op]) = insert i (touched operations) := by
  unfold touched
  rw [sinceClear_concat h]
  ext j
  simp [h, eq_comm]

/-! ## What the tape says -/

/-- The tape says of every cell what the operations say. -/
structure Replays (operations : List Operation) (t : Tape) : Prop where
  value : ∀ i, ((t.get i).toNat : Int) = replayed operations i
  mem : ∀ i, i ∈ t.cells ↔ i ∈ touched operations
  stored : t.stored = (touched operations).card

theorem replays_empty (h : sinceClear operations = []) : empty.Replays operations where
  value i := by simp [replayed, h]
  mem i := by simp [touched, h, empty]
  stored := by simp [touched, h]

namespace Replays

variable {t : Tape}

theorem store (h : t.Replays operations) {i : Int} {value : UInt8} (hi : op.index? = some i)
    (hv : (value.toNat : Int) = op.apply (t.get i).toNat) :
    (t.set i value).Replays (operations ++ [op]) where
  value j := by
    rw [get_set, replayed_concat hi]
    split
    · rename_i hij
      rw [hv, h.value, hij]
    · exact h.value j
  mem j := by
    rw [mem_set, touched_concat hi, Finset.mem_insert, h.mem, eq_comm]
  stored := by
    rw [stored_set, touched_concat hi, Finset.card_insert_eq_ite, h.stored]
    simp only [h.mem]

theorem perform (h : t.Replays operations) (op : Operation) :
    (t.perform op).Replays (operations ++ [op]) := by
  cases op with
  | set i value => exact h.store rfl rfl
  | increment i =>
    apply h.store rfl
    rw [UInt8.toNat_add]
    exact Int.natCast_emod _ _
  | decrement i =>
    apply h.store rfl
    change _ = ((t.get i).toNat - 1 : Int) % 256
    rw [UInt8.toNat_sub, UInt8.toNat_one]
    omega
  | clear => exact replays_empty sinceClear_clear

end Replays

theorem replays_foldl (operations : List Operation) :
    (operations.foldl perform empty).Replays operations := by
  induction operations using List.reverseRecOn with
  | nil => exact replays_empty rfl
  | append_singleton operations op ih =>
    rw [List.foldl_append]
    exact ih.perform op

/-- Whatever is done to a new tape, the value of a cell is what the operations on that cell since the
last `clear` make of zero. The stored cells are those that were touched since then, each counted once,
whether or not its value is zero again. -/
theorem tape_replays_operations (operations : List Operation) :
    let t := operations.foldl perform empty
    (∀ i, ((t.get i).toNat : Int) = replayed operations i) ∧
      (∀ i, i ∈ t.cells ↔ i ∈ touched operations) ∧
      t.stored = (touched operations).card := by
  intro t
  have h : t.Replays operations := replays_foldl operations
  exact ⟨h.value, h.mem, h.stored⟩

/-- A cell that is back at zero stays stored. -/
example :
    let t := [.set 5 9, .clear, .set 3 255, .increment 3].foldl perform empty
    t.get 3 = 0 ∧ t.get 5 = 0 ∧ t.stored = 1 := by
  decide +kernel

end Tape

end TapeLang
