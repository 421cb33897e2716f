import Mathlib.Data.Nat.Count
import TapeLang.Proofs.Machine.Operations

/-! How far a program gets in a number of steps.

An effect moves the pointer by one cell, or stores in the current cell, or does neither. So each
completed step pays for one move or for one stored cell (`State.Spent.apply`), and by induction the
pointer, the cells and the number of stored cells stay within the number of completed steps. A pointer
that is kept in a signed word does not overflow in as many steps as the words can count. -/
namespace TapeLang
set_option autoImplicit false

/-! ## What a number of steps can pay for -/

/-- Each of so many steps made at most one move or stored at most one cell. A cell is stored in one
step more than it takes to get there. -/
structure State.Spent (n : Nat) (s : State) : Prop where
  reach : s.pointer.natAbs + s.tape.stored ≤ n
  cells : ∀ i ∈ s.tape.cells, i.natAbs < n

theorem State.spent_start (p : Program) : (State.start p).Spent 0 where
  reach := Nat.le_of_eq Tape.stored_empty
  cells i hi := by
    change i ∈ (∅ : Std.TreeMap Int UInt8) at hi
    simp at hi

namespace State

theorem Spent.mono {n : Nat} {s : State} (h : s.Spent n) : s.Spent (n + 1) where
  reach := Nat.le_succ_of_le h.reach
  cells i hi := Nat.lt_succ_of_lt (h.cells i hi)

theorem Spent.apply {n radius : Nat} {s s' : State} {effect : Effect} (h : s.Spent n)
    (hs : s.apply radius effect = .ok s') : s'.Spent (n + 1) := by
  have hreach := h.reach
  cases effect with
  | stay =>
    cases hs
    exact h.mono
  | right =>
    cases hs
    refine ⟨?_, h.mono.cells⟩
    change (s.pointer + 1).natAbs + s.tape.stored ≤ n + 1
    omega
  | left =>
    cases hs
    refine ⟨?_, h.mono.cells⟩
    change (s.pointer - 1).natAbs + s.tape.stored ≤ n + 1
    omega
  | store value =>
    cases hs
    constructor
    · change s.pointer.natAbs + (s.tape.set s.pointer value).stored ≤ n + 1
      rw [Tape.stored_set]
      split <;> omega
    · intro i hi
      obtain rfl | hi := (s.tape.mem_set s.pointer i value).mp hi
      · omega
      · exact h.mono.cells i hi
  | jump partner =>
    cases partner with
    | ok index =>
      cases hs
      exact ⟨h.mono.reach, h.mono.cells⟩
    | error edge => cases hs

end State

/-! ## Completed steps -/

def Step.isFail : Step → Bool
  | .fail _ => true
  | _ => false

namespace Machine

variable {η : Type} [Host η]

/-- The machine after so many steps, whatever they come to. -/
def stepped (m : Machine η) : Nat → Machine η
  | 0 => m
  | k + 1 => (m.stepped k).step.2

/-- The next step will be completed: the machine has not halted yet, and the step does not fail. -/
def completes (m : Machine η) : Bool :=
  !m.state.halted && !m.step.1.isFail

/-- How many of so many steps are completed. -/
def completed (m : Machine η) (k : Nat) : Nat :=
  Nat.count (fun j => (m.stepped j).completes) k

theorem completed_succ (m : Machine η) (k : Nat) :
    m.completed (k + 1) = m.completed k + if (m.stepped k).completes then 1 else 0 :=
  Nat.count_succ _ k

theorem reached_stepped (m : Machine η) (k : Nat) : Reached m (m.stepped k) := by
  induction k with
  | zero => exact Reached.start
  | succ k ih => exact ih.step

/-- A completed step follows an answer and is counted. An empty program asks for nothing. -/
theorem step_of_completes {m : Machine η} (h : m.completes = true) :
    m.state.due = none ∧ m.step.2.state = { m.state with halted := true } ∨
      ∃ effect s cursor halted, m.state.apply m.radius effect = .ok s ∧
        m.step.2.state = { s with cursor, halted, steps := s.steps + 1 } := by
  have hstep := m.outcome_step
  unfold completes at h
  generalize m.step = o at h hstep ⊢
  cases hstep with
  | rest hd => exact Or.inl ⟨hd, rfl⟩
  | next hs cursor host => exact Or.inr ⟨_, _, _, _, hs, rfl⟩
  | halt hs host => exact Or.inr ⟨_, _, _, _, hs, rfl⟩
  | fail fault host => simp [Step.isFail] at h

theorem step_of_not_completes {m : Machine η} (h : m.completes = false) :
    m.step.2.state = m.state := by
  cases hh : m.state.halted with
  | true => rw [step_of_halted m hh]
  | false =>
    have hfail : m.step.1.isFail = true := by simpa [completes, hh] using h
    have hstep := m.outcome_step
    generalize m.step = o at hfail hstep ⊢
    cases hstep with
    | rest | next | halt => cases hfail
    | fail fault host => rfl

theorem spent_step {m : Machine η} {n : Nat} (h : m.state.Spent n) :
    m.step.2.state.Spent (n + if m.completes then 1 else 0) := by
  cases hcomp : m.completes with
  | false =>
    rw [step_of_not_completes hcomp]
    exact h
  | true =>
    obtain ⟨-, hstate⟩ | ⟨effect, s, cursor, halted, hs, hstate⟩ := step_of_completes hcomp
    · rw [hstate]
      exact ⟨h.mono.reach, h.mono.cells⟩
    · have hspent := h.apply hs
      rw [hstate]
      exact ⟨hspent.reach, hspent.cells⟩

theorem steps_step {m : Machine η} (hw : m.state.WellPlaced) (hne : 0 < m.state.program.length) :
    m.step.2.state.steps = m.state.steps + if m.completes then 1 else 0 := by
  cases hcomp : m.completes with
  | false =>
    rw [step_of_not_completes hcomp]
    rfl
  | true =>
    obtain ⟨hnone, -⟩ | ⟨effect, s, cursor, halted, hs, hstate⟩ := step_of_completes hcomp
    · have hinside : m.state.cursor.position < m.state.program.length := by
        have hcursor := hw.cursor_inside
        omega
      have hh : m.state.halted = false := by
        cases hh : m.state.halted with
        | false => rfl
        | true => simp [completes, hh] at hcomp
      obtain ⟨c, hc⟩ := Program.exists_get? hinside
      simp [State.due, hh, hc] at hnone
    · obtain ⟨cursor', pointer, tape, rfl⟩ := State.apply_ok hs
      rw [hstate, if_pos rfl]

section

variable (m : Machine η) (source : String) (k : Nat)

theorem spent_stepped :
    ((m.load source).stepped k).state.Spent ((m.load source).completed k) := by
  induction k with
  | zero => exact State.spent_start _
  | succ k ih =>
    rw [completed_succ]
    exact spent_step ih

theorem steps_stepped (hne : source ≠ "") :
    ((m.load source).stepped k).state.steps = (m.load source).completed k := by
  have hlen : 0 < (Program.ofString source).length := by
    rw [Program.length_ofString, String.length_toList]
    exact Nat.pos_of_ne_zero (mt String.length_eq_zero_iff.mp hne)
  induction k with
  | zero => rfl
  | succ k ih =>
    obtain ⟨place, c, hs⟩ := (reached_stepped (m.load source) k).stands (m.stands_load source)
    rw [completed_succ, ← ih]
    apply steps_step hs.wellPlaced
    rwa [hs.program]

end

/-- Whatever a program does, and whatever its host answers, the pointer and the stored cells stay within
as many cells of the start as steps were completed, no more cells than that are stored, and all others
are zero. The machine counts these steps. So a pointer that is kept in a signed word of 64 bits does not
overflow, neither to the right nor to the left, while the number of steps fits into such a word. -/
theorem extent_within_steps (m : Machine η) (source : String) (k : Nat) :
    let x := (m.load source).stepped k
    let n := (m.load source).completed k
    (-(n : Int) ≤ x.state.pointer ∧ x.state.pointer ≤ n) ∧
    x.state.tape.stored ≤ n ∧
    (∀ i, i ∈ x.state.tape.cells → -(n : Int) ≤ i ∧ i ≤ n) ∧
    (∀ i, i ∉ x.state.tape.cells → x.state.tape.get i = 0) ∧
    (source ≠ "" → x.state.steps = n) ∧
    (n < 2 ^ 63 → (Int64.ofInt x.state.pointer).toInt = x.state.pointer) ∧
    (n + 1 < 2 ^ 63 →
      (Int64.ofInt x.state.pointer + 1).toInt = x.state.moveRight.pointer ∧
      (Int64.ofInt x.state.pointer - 1).toInt = x.state.moveLeft.pointer) := by
  intro x n
  have hspent : x.state.Spent n := m.spent_stepped source k
  have hreach := hspent.reach
  refine ⟨by omega, by omega, ?_, fun i => Tape.get_of_not_mem, m.steps_stepped source k, ?_, ?_⟩
  · intro i hi
    have hcell := hspent.cells i hi
    omega
  · intro hn
    exact Int64.toInt_ofInt_of_le (by omega) (by omega)
  · intro hn
    have hone : (1 : Int64) = Int64.ofInt 1 := rfl
    rw [hone, ← Int64.ofInt_add, ← Int64.ofInt_sub]
    constructor
    · exact Int64.toInt_ofInt_of_le (by omega) (by omega)
    · exact Int64.toInt_ofInt_of_le (by omega) (by omega)

theorem extent_within_steps_after_failed_read :
    let m : Machine (Devices Buffer LineScript) := { host := { input := some ⟨[none, some "7"]⟩ } }
    ∃ x, (m.load "<-<,").stepped 6 = x ∧ (m.load "<-<,").completed 6 = 4 ∧
      x.state.pointer = -2 ∧ x.state.tape.stored = 2 ∧ x.state.steps = 4 ∧
      (∀ i ∈ x.state.tape.cells, -4 ≤ i ∧ i ≤ 4) ∧
      (Int64.ofInt x.state.pointer - 1).toInt = x.state.moveLeft.pointer := by
  intro m
  have hcount : (m.load "<-<,").completed 6 = 4 := by decide +kernel
  have hpointer : ((m.load "<-<,").stepped 6).state.pointer = -2 := by decide +kernel
  have hstored : ((m.load "<-<,").stepped 6).state.tape.stored = 2 := by decide +kernel
  obtain ⟨-, -, hcells, -, hsteps, -, hwords⟩ := extent_within_steps m "<-<," 6
  rw [hcount] at hcells hsteps hwords
  generalize (m.load "<-<,").stepped 6 = x at hpointer hstored hcells hsteps hwords
  exact ⟨x, rfl, hcount, hpointer, hstored, hsteps (by decide), hcells, (hwords (by omega)).2⟩

end Machine

end TapeLang
