import Mathlib
import TapeLang.Proofs.Brackets.Reports

/-! What the window of an excerpt shows.

A window is the text around a centre, with a space for all that cannot be shown (`Renders`). The
centre is the index read as a signed word, so in the lower half of the words it is the index itself.
In the upper half it lies before the start of the program, and a window that is wide enough reaches
into the first characters, although the index is far past the last one (`renders_of_ge_iff`). Windows
around one centre lie inside each other (`window_within`). -/
namespace TapeLang.Program
set_option autoImplicit false

/-- The program has a character at a position that a window can show. -/
def Visible (p : Program) (position : Int) (c : Char) : Prop :=
  ∃ i : Nat, position = i ∧ p.get? i = some c ∧ Text.isBlank c = false ∧ Text.isControl c = false

/-- A window shows the text around a centre: as many characters on each side as the radius says, each
the one that the program has there, and a space where it has none that can be shown. -/
structure Renders (p : Program) (centre : Int) (radius : Nat) (window : List Char) : Prop where
  width : window.length = 2 * radius + 1
  character : ∀ k c, k < 2 * radius + 1 → p.Visible (centre - radius + k) c → window[k]? = some c
  space : ∀ k, k < 2 * radius + 1 → (∀ c, ¬ p.Visible (centre - radius + k) c) →
    window[k]? = some ' '

variable {p : Program}

/-! ## Single characters -/

theorem Visible.inside {position : Int} {c : Char} (h : p.Visible position c) :
    0 ≤ position ∧ position < p.length := by
  obtain ⟨i, rfl, hget, -, -⟩ := h
  have hlt := lt_length_of_get? hget
  omega

theorem Visible.shown_eq {position : Int} {c : Char} (h : p.Visible position c) :
    p.shown position = c := by
  obtain ⟨i, rfl, hget, hblank, hcontrol⟩ := h
  exact shown_of_get? hget (by simp [hblank, hcontrol])

theorem Visible.ne_space {position : Int} {c : Char} (h : p.Visible position c) : c ≠ ' ' := by
  obtain ⟨i, -, -, hblank, -⟩ := h
  rintro rfl
  exact absurd hblank (by decide)

theorem shown_of_not_visible {position : Int} (h : ∀ c, ¬ p.Visible position c) :
    p.shown position = ' ' := by
  cases position with
  | negSucc i => rfl
  | ofNat i =>
    cases hget : p.get? i with
    | none => simp only [shown, hget]
    | some c =>
      have hc : (Text.isBlank c || Text.isControl c) = true := by
        by_contra hne
        rw [Bool.not_eq_true, Bool.or_eq_false_iff] at hne
        exact h c ⟨i, rfl, hget, hne⟩
      simp only [shown, hget, hc, if_true]

/-! ## Stretches of text -/

/-- What is shown of so many positions in a row. -/
def stretch (p : Program) (first : Int) (n : Nat) : List Char :=
  (List.range n).map fun (k : Nat) => p.shown (first + k)

theorem length_stretch (p : Program) (first : Int) (n : Nat) : (p.stretch first n).length = n := by
  simp [stretch]

theorem getElem?_stretch (p : Program) (first : Int) {n k : Nat} (h : k < n) :
    (p.stretch first n)[k]? = some (p.shown (first + k)) := by
  rw [stretch, List.getElem?_map, List.getElem?_range h, Option.map_some]

theorem stretch_add (p : Program) (first : Int) (m n : Nat) :
    p.stretch first (m + n) = p.stretch first m ++ p.stretch (first + m) n := by
  unfold stretch
  rw [List.range_add, List.map_append, List.map_map]
  congr 1
  apply List.map_congr_left
  intro k _
  simp only [Function.comp_apply, Nat.cast_add, add_assoc]

theorem renders_stretch (p : Program) (centre : Int) (radius : Nat) :
    p.Renders centre radius (p.stretch (centre - radius) (2 * radius + 1)) where
  width := p.length_stretch _ _
  character k c hk hc := by rw [getElem?_stretch p _ hk, hc.shown_eq]
  space k hk hv := by rw [getElem?_stretch p _ hk, shown_of_not_visible hv]

/-! ## Windows -/

theorem window_eq_stretch (p : Program) (index radius : Nat) :
    (p.excerpt index radius).window.toList =
      p.stretch (Int.bmod index UInt64.size - radius) (2 * radius + 1) :=
  window_excerpt p index radius

/-- Around one index, the window with the smaller radius is the middle of the one with the larger. -/
theorem window_within (p : Program) (index : Nat) {r s : Nat} (h : r ≤ s) :
    ∃ left right, left.length = s - r ∧ right.length = s - r ∧
      (p.excerpt index s).window.toList = left ++ (p.excerpt index r).window.toList ++ right := by
  have hwidth : 2 * s + 1 = s - r + (2 * r + 1) + (s - r) := by omega
  have hfirst : ∀ centre : Int, centre - s + (s - r : Nat) = centre - r := by omega
  rw [window_eq_stretch, window_eq_stretch, hwidth, stretch_add, stretch_add, hfirst]
  exact ⟨_, _, p.length_stretch _ _, p.length_stretch _ _, rfl⟩

/-! ## Indexes as signed words -/

/-- The first and the last position of a window are signed words. -/
def FitsWords (index radius : Nat) : Prop :=
  -2 ^ 63 ≤ Int.bmod index UInt64.size - radius ∧ Int.bmod index UInt64.size + radius < 2 ^ 63

instance (index radius : Nat) : Decidable (FitsWords index radius) :=
  inferInstanceAs (Decidable (_ ∧ _))

/-- An index in the upper half of the words stands for a position before the start. -/
theorem bmod_of_ge {k : Nat} (h : 2 ^ 63 ≤ k) (hk : k < UInt64.size) :
    Int.bmod k UInt64.size = k - UInt64.size := by
  have hsize : UInt64.size = 2 * 2 ^ 63 := rfl
  have hwrap := Int.add_bmod_right ((k : Int) - UInt64.size) UInt64.size
  rw [Int.sub_add_cancel] at hwrap
  rw [hwrap]
  apply Int.bmod_eq_of_le
  · rw [hsize]
    omega
  · rw [hsize]
    omega

theorem renders_excerpt (p : Program) (index radius : Nat) :
    p.Renders (Int.bmod index UInt64.size) radius (p.excerpt index radius).window.toList := by
  rw [window_eq_stretch]
  exact p.renders_stretch _ radius

theorem renders_of_ge_iff {index radius : Nat} {window : List Char} (hlow : 2 ^ 63 + radius ≤ index)
    (hindex : index < UInt64.size) (hlen : p.length ≤ 2 ^ 63)
    (hw : p.Renders (index - UInt64.size) radius window) :
    p.Renders index radius window ↔
      ∀ (i : Nat) (c : Char), i + UInt64.size ≤ index + radius → ¬ p.Visible i c := by
  -- around the index itself there is no text at all
  have hblank : ∀ (k : Nat) (c : Char), ¬ p.Visible (index - radius + k) c := by
    intro k c hc
    have hinside := hc.inside
    omega
  constructor
  · intro hr i c hreach hc
    have hk : i + UInt64.size + radius - index < 2 * radius + 1 := by omega
    have hposition : (index : Int) - UInt64.size - radius +
        (i + UInt64.size + radius - index : Nat) = i := by omega
    have hchar := hw.character _ c hk (by rwa [hposition])
    rw [hr.space _ hk (hblank _), Option.some.injEq] at hchar
    exact hc.ne_space hchar.symm
  · intro hnone
    refine ⟨hw.width, ?_, ?_⟩
    · intro k c _ hc
      exact absurd hc (hblank k c)
    · intro k hk _
      apply hw.space k hk
      intro c hc
      obtain ⟨i, hi⟩ := Int.eq_ofNat_of_zero_le hc.inside.1
      rw [hi] at hc
      exact hnone i c (by omega) hc

/-- The window of an index is the text around the position that the index is as a signed word. So it
is the text around the index in the lower half of the words. In the upper half the text around the
index is blank, and so is the window exactly if no visible character at the start of the program is in
its reach. -/
theorem excerpt_renders_word (p : Program) (index radius : Nat) (hindex : index < UInt64.size)
    (hfits : FitsWords index radius) :
    let window := (p.excerpt index radius).window.toList
    p.Renders (Int.bmod index UInt64.size) radius window ∧
    (index < 2 ^ 63 → p.Renders index radius window) ∧
    (2 ^ 63 ≤ index → p.length ≤ 2 ^ 63 →
      (p.Renders index radius window ↔
        ∀ (i : Nat) (c : Char), i + UInt64.size ≤ index + radius → ¬ p.Visible i c)) := by
  intro window
  have hw : p.Renders (Int.bmod index UInt64.size) radius window := p.renders_excerpt index radius
  refine ⟨hw, ?_, ?_⟩
  · intro hlow
    rwa [bmod_of_lt hlow] at hw
  · intro hhigh hlen
    have hcentre := bmod_of_ge hhigh hindex
    have hsize : UInt64.size = 2 * 2 ^ 63 := rfl
    have hfirst := hfits.1
    rw [hcentre] at hw hfirst
    exact renders_of_ge_iff (by omega) hindex hlen hw

theorem excerpt_renders_word_of_last_index :
    let p := Program.ofString "\t a"
    FitsWords (UInt64.size - 1) 2 ∧
      p.Renders (UInt64.size - 1 : Nat) 2 (p.excerpt (UInt64.size - 1) 2).window.toList := by
  intro p
  have hfits : FitsWords (UInt64.size - 1) 2 := by decide
  refine ⟨hfits, ((excerpt_renders_word p (UInt64.size - 1) 2 (by decide) hfits).2.2 (by decide)
    (by decide)).mpr ?_⟩
  intro i c hi hc
  obtain ⟨j, hj, hget, hblank, -⟩ := hc
  have hreach : i ≤ 1 := by
    have hsize : UInt64.size = 2 * 2 ^ 63 := rfl
    omega
  obtain rfl | rfl : j = 0 ∨ j = 1 := by omega
  · cases hget
    exact absurd hblank (by decide)
  · cases hget
    exact absurd hblank (by decide)

/-- Although the last index lies past the end of every program, its window may show text: the first
character of the program, right of the caret. -/
theorem excerpt_shows_start_at_last_index :
    let p := Program.ofString "ab"
    FitsWords (UInt64.size - 1) 1 ∧
      (p.excerpt (UInt64.size - 1) 1).window = "  a" ∧
      ¬ p.Renders (UInt64.size - 1 : Nat) 1 (p.excerpt (UInt64.size - 1) 1).window.toList := by
  intro p
  have hwindow : (p.excerpt (UInt64.size - 1) 1).window = "  a" := by decide
  refine ⟨by decide, hwindow, ?_⟩
  intro hr
  have hpast : ∀ c, ¬ p.Visible ((UInt64.size - 1 : Nat) - (1 : Nat) + (2 : Nat)) c := by
    intro c hc
    exact absurd hc.inside.2 (by decide)
  have hspace := hr.space 2 (by decide) hpast
  rw [hwindow] at hspace
  exact absurd hspace (by decide)

end TapeLang.Program
