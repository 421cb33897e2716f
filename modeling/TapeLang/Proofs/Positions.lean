import TapeLang.Proofs.Brackets.Balanced

/-! The order of places in a program.

From one character to the next, the line goes up if the next character is a newline (`line_succ`), and
the column starts again if the character before it is one (`column_succ`). So a newline is placed on
the line that it opens, but in the column in which it ends the line before. All other characters are
placed before the characters that follow them (`before_of_not_opensLine`); a newline comes before those
characters of its new line only that stand further to the right. -/
namespace TapeLang
set_option autoImplicit false

/-- One place is on an earlier line than another, or to the left of it on the same line. -/
def Position.Before (a b : Position) : Prop :=
  a.line < b.line ∨ a.line = b.line ∧ a.column < b.column

instance (a b : Position) : Decidable (a.Before b) :=
  inferInstanceAs (Decidable (_ ∨ _))

namespace Program

variable {p : Program} {i j : Nat}

/-! ## From one character to the next -/

theorem position_of_lt (h : i < p.length) : p.position i =
    ⟨(p.chars.toList.take (i + 1)).count '\n' + 1,
      ((p.chars.toList.take i).reverse.takeWhile (· ≠ '\n')).length + 1, i⟩ := by
  have hmin : min i (p.length - 1) = i := by omega
  simp only [position, hmin]

theorem line_succ {c : Char} (h : p.get? (i + 1) = some c) :
    (p.position (i + 1)).line = (p.position i).line + if c = '\n' then 1 else 0 := by
  have hlt := lt_length_of_get? h
  rw [position_of_lt hlt, position_of_lt (by omega), toList_eq_of_get? h, List.count_append,
    List.count_singleton]
  simp only [beq_iff_eq]
  omega

theorem column_succ {c : Char} (h : p.get? i = some c) (hlt : i + 1 < p.length) :
    (p.position (i + 1)).column = if c = '\n' then 1 else (p.position i).column + 1 := by
  rw [position_of_lt hlt, position_of_lt (by omega), toList_eq_of_get? h, List.reverse_append,
    List.reverse_singleton, List.singleton_append, List.takeWhile_cons]
  by_cases hc : c = '\n'
  · simp [hc]
  · simp [hc]

/-! ## Over a stretch of text -/

theorem line_le (h : i ≤ j) (hj : j < p.length) : (p.position i).line ≤ (p.position j).line := by
  induction h with
  | refl => exact Nat.le_refl _
  | @step j _ ih =>
    obtain ⟨c, hc⟩ := exists_get? hj
    have hle := ih (by omega)
    rw [line_succ hc]
    omega

theorem line_lt_of_newline {k : Nat} (hik : i < k) (hkj : k ≤ j) (hj : j < p.length)
    (hk : p.get? k = some '\n') : (p.position i).line < (p.position j).line := by
  obtain ⟨l, rfl⟩ : ∃ l, k = l + 1 := ⟨k - 1, by omega⟩
  calc (p.position i).line ≤ (p.position l).line := line_le (by omega) (by omega)
    _ < (p.position (l + 1)).line := by
      rw [line_succ hk, if_pos rfl]
      omega
    _ ≤ (p.position j).line := line_le hkj hj

theorem line_eq_of_no_newline (h : i ≤ j) (hj : j < p.length)
    (hnone : ∀ k, i < k → k ≤ j → p.get? k ≠ some '\n') :
    (p.position j).line = (p.position i).line := by
  induction h with
  | refl => rfl
  | @step j hle ih =>
    have hij : i ≤ j := hle
    obtain ⟨c, hc⟩ := exists_get? hj
    have hne : c ≠ '\n' := by
      rintro rfl
      exact hnone (j + 1) (by omega) (Nat.le_refl _) hc
    rw [line_succ hc, if_neg hne, Nat.add_zero]
    exact ih (by omega) fun k hk hkj => hnone k hk (by omega)

theorem column_add_of_no_newline (h : i ≤ j) (hj : j < p.length)
    (hnone : ∀ k, i ≤ k → k < j → p.get? k ≠ some '\n') :
    (p.position j).column = (p.position i).column + (j - i) := by
  induction h with
  | refl => omega
  | @step j hle ih =>
    have hij : i ≤ j := hle
    obtain ⟨c, hc⟩ : ∃ c, p.get? j = some c := exists_get? (by omega)
    have hne : c ≠ '\n' := by
      rintro rfl
      exact hnone j hij (Nat.lt_succ_self j) hc
    have hcolumn := ih (by omega) fun k hk hkj => hnone k hk (by omega)
    rw [column_succ hc hj, if_neg hne, hcolumn]
    omega

/-! ## Newlines -/

/-- A newline opens the line that a later character stands on. -/
def OpensLineOf (p : Program) (i j : Nat) : Prop :=
  p.get? i = some '\n' ∧ ∀ k, i < k → k ≤ j → p.get? k ≠ some '\n'

theorem OpensLineOf.line_eq (h : p.OpensLineOf i j) (hij : i < j) (hj : j < p.length) :
    (p.position j).line = (p.position i).line :=
  line_eq_of_no_newline (Nat.le_of_lt hij) hj h.2

theorem OpensLineOf.column_eq (h : p.OpensLineOf i j) (hij : i < j) (hj : j < p.length) :
    (p.position j).column = j - i := by
  have hfirst : (p.position (i + 1)).column = 1 := by
    rw [column_succ h.1 (by omega), if_pos rfl]
  rw [column_add_of_no_newline hij hj fun k hk hkj => h.2 k hk (by omega), hfirst]
  omega

theorem before_of_not_opensLine (h : ¬ p.OpensLineOf i j) (hij : i < j) (hj : j < p.length) :
    (p.position i).Before (p.position j) := by
  -- without a newline between them the columns decide, and otherwise the lines
  by_cases hnone : ∀ k, i < k → k ≤ j → p.get? k ≠ some '\n'
  · have hi : p.get? i ≠ some '\n' := fun hi => h ⟨hi, hnone⟩
    have hcolumn := column_add_of_no_newline (Nat.le_of_lt hij) hj fun k hk hkj => by
      obtain rfl | hlt := Nat.eq_or_lt_of_le hk
      · exact hi
      · exact hnone k hlt (Nat.le_of_lt hkj)
    refine Or.inr ⟨(line_eq_of_no_newline (Nat.le_of_lt hij) hj hnone).symm, ?_⟩
    rw [hcolumn]
    omega
  · simp only [Classical.not_forall, Decidable.not_not] at hnone
    obtain ⟨k, hik, hkj, hk⟩ := hnone
    exact Or.inl (line_lt_of_newline hik hkj hj hk)

/-- Places follow the text, except around newlines. Of two characters the earlier one has the earlier
place, unless it is a newline that opens the line of the later one and ends a line of at least as many
characters as there are up to the later one. If there are just as many, both have the same place. -/
theorem positions_follow_text (p : Program) (i j : Nat) (hij : i < j) (hj : j < p.length) :
    let a := p.position i
    let b := p.position j
    (p.get? i ≠ some '\n' → a.Before b) ∧
    (a.Before b ↔ ¬ (p.OpensLineOf i j ∧ j - i ≤ a.column)) ∧
    (a.line = b.line ∧ a.column = b.column ↔ p.OpensLineOf i j ∧ j - i = a.column) := by
  intro a b
  by_cases hopens : p.OpensLineOf i j
  · have hline : b.line = a.line := hopens.line_eq hij hj
    have hcolumn : b.column = j - i := hopens.column_eq hij hj
    refine ⟨fun hi => absurd hopens.1 hi, ?_, ?_⟩
    · simp only [Position.Before, hline, hcolumn, hopens, true_and]
      omega
    · simp only [hline, hcolumn, hopens, true_and]
      omega
  · have hbefore := before_of_not_opensLine hopens hij hj
    refine ⟨fun _ => hbefore, ?_, ?_⟩
    · simp only [hopens, false_and, not_false_eq_true, iff_true]
      exact hbefore
    · simp only [hopens, false_and, iff_false]
      have hlex : a.line < b.line ∨ a.line = b.line ∧ a.column < b.column := hbefore
      omega

theorem positions_follow_text_after_empty_line :
    let p := Program.ofString "ab\n\n+["
    p.OpensLineOf 3 5 ∧ (p.position 3).Before (p.position 5) ∧
      (p.position 3).line = (p.position 4).line ∧ (p.position 3).column = (p.position 4).column := by
  intro p
  have hopens : p.OpensLineOf 3 5 := by
    refine ⟨rfl, fun k hk hkj => ?_⟩
    obtain rfl | rfl : k = 4 ∨ k = 5 := by omega
    · decide
    · decide
  obtain ⟨-, horder, -⟩ := positions_follow_text p 3 5 (by decide) (by decide)
  obtain ⟨-, -, hsame⟩ := positions_follow_text p 3 4 (by decide) (by decide)
  refine ⟨hopens, horder.mpr fun h => absurd h.2 (by decide), hsame.mpr ⟨?_, by decide⟩⟩
  exact ⟨rfl, fun k hk hkj => hopens.2 k hk (by omega)⟩

/-- A newline stands behind the first character of the line after it, and shares the place of the
second. -/
theorem newline_out_of_order :
    let p := Program.ofString "a\nbc"
    ¬ (p.position 1).Before (p.position 2) ∧
      (p.position 1).line = (p.position 3).line ∧ (p.position 1).column = (p.position 3).column := by
  decide

end Program

end TapeLang
