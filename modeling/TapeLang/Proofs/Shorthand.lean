import TapeLang.Shorthand

/-! The closed form of expansion.

A source is a head without instructions and then groups, each an instruction with the characters up
to the next one (`Cut`). While a group is read, what was written for it and the unit are the same
text: copies of its instruction, as many as the product of the digits read so far (`Holding`). A head
leaves the unit empty, which is this invariant with no copies. -/
namespace TapeLang
set_option autoImplicit false

namespace Shorthand

/-! ## Digits -/

/-- The factor by which a digit multiplies. -/
def weight : Char → Nat
  | '0' => 10
  | '1' => 1
  | '2' => 2
  | '3' => 3
  | '4' => 4
  | '5' => 5
  | '6' => 6
  | '7' => 7
  | '8' => 8
  | '9' => 9
  | _ => 1

/-- The product of the digits of a text, with ten for a zero. -/
def factor (text : List Char) : Nat :=
  ((text.filter Char.isDigit).map weight).foldr (· * ·) 1

theorem eq_of_toNat {c : Char} {n : Nat} (h : c.toNat = n) : c = Char.ofNat n := by
  rw [← h, Char.ofNat_toNat]

theorem repeats?_of_isDigit {c : Char} (h : c.isDigit = true) :
    repeats? c = some (weight c) ∧ 0 < weight c := by
  have hrange : 48 ≤ c.toNat ∧ c.toNat ≤ 57 := Char.isDigit_iff_toNat.mp h
  have hcases : c.toNat = 48 ∨ c.toNat = 49 ∨ c.toNat = 50 ∨ c.toNat = 51 ∨ c.toNat = 52 ∨
      c.toNat = 53 ∨ c.toNat = 54 ∨ c.toNat = 55 ∨ c.toNat = 56 ∨ c.toNat = 57 := by omega
  rcases hcases with hc | hc | hc | hc | hc | hc | hc | hc | hc | hc <;>
    rw [eq_of_toNat hc] <;> decide

theorem repeats?_of_not_isDigit {c : Char} (h : c.isDigit = false) : repeats? c = none := by
  simp [repeats?, h]

theorem factor_cons_of_isDigit {c : Char} (h : c.isDigit = true) (text : List Char) :
    factor (c :: text) = weight c * factor text := by
  simp [factor, h]

theorem factor_cons_of_not_isDigit {c : Char} (h : c.isDigit = false) (text : List Char) :
    factor (c :: text) = factor text := by
  simp [factor, h]

/-! ## Groups -/

/-- A source cut before each instruction. -/
structure Cut (source head : List Char) (groups : List (Instruction × List Char)) : Prop where
  source_eq : source = head ++ groups.flatMap fun g => g.1.toChar :: g.2
  head : ∀ c ∈ head, Instruction.ofChar? c = none
  body : ∀ g ∈ groups, ∀ c ∈ g.2, Instruction.ofChar? c = none

theorem exists_cut (source : List Char) : ∃ head groups, Cut source head groups := by
  induction source with
  | nil => exact ⟨[], [], rfl, by simp, by simp⟩
  | cons c source ih =>
    obtain ⟨head, groups, hsource, hhead, hbody⟩ := ih
    cases hc : Instruction.ofChar? c with
    | none =>
      refine ⟨c :: head, groups, ?_, ?_, hbody⟩
      · rw [hsource, List.cons_append]
      · simpa [hc] using hhead
    | some i =>
      refine ⟨[], (i, head) :: groups, ?_, by simp, ?_⟩
      · rw [hsource, ← Instruction.toChar_of_ofChar? hc]
        simp
      · intro g hg
        obtain rfl | hg := List.mem_cons.mp hg
        · exact hhead
        · exact hbody g hg

end Shorthand

/-! ## Reading a group -/

namespace Expander

open Shorthand

/-- What was written after a first part are copies of one character, and they are the unit. -/
structure Holding (e : Expander) (before : List Char) (n : Nat) (c : Char) : Prop where
  output : e.output.toList = before ++ List.replicate n c
  unit : e.unit.toList = List.replicate n c

variable {e : Expander} {before : List Char} {n : Nat} {c : Char}

theorem Holding.feed_digit (h : e.Holding before n c) {d : Char} (hd : d.isDigit = true)
    (hi : Instruction.ofChar? d = none) : (e.feed d).Holding before (n * weight d) c := by
  obtain ⟨hrepeats, hpos⟩ := repeats?_of_isDigit hd
  have hmore : (copies (weight d - 1) e.unit).toList = List.replicate ((weight d - 1) * n) c := by
    rw [toList_copies, h.unit, List.flatten_replicate_replicate]
  have hall : List.replicate n c ++ List.replicate ((weight d - 1) * n) c =
      List.replicate (n * weight d) c := by
    rw [List.replicate_append_replicate]
    congr 1
    obtain ⟨k, hk⟩ := Nat.exists_eq_add_of_lt hpos
    rw [hk, Nat.zero_add, Nat.add_sub_cancel, Nat.mul_add, Nat.mul_one, Nat.add_comm, Nat.mul_comm]
  simp only [feed, hi, hrepeats]
  constructor
  · rw [String.toList_append, h.output, hmore, List.append_assoc, hall]
  · rw [String.toList_append, h.unit, hmore, hall]

theorem Holding.feed_other (h : e.Holding before n c) {d : Char} (hd : d.isDigit = false)
    (hi : Instruction.ofChar? d = none) : (e.feed d).Holding before n c := by
  simpa only [feed, hi, repeats?_of_not_isDigit hd] using h

theorem Holding.feed_body (h : e.Holding before n c) {body : List Char}
    (hbody : ∀ d ∈ body, Instruction.ofChar? d = none) :
    (body.foldl feed e).Holding before (n * factor body) c := by
  induction body generalizing e n with
  | nil => simpa [factor] using h
  | cons d body ih =>
    have hd : Instruction.ofChar? d = none := hbody d List.mem_cons_self
    have hrest : ∀ d ∈ body, Instruction.ofChar? d = none :=
      fun x hx => hbody x (List.mem_cons_of_mem d hx)
    rw [List.foldl_cons]
    cases hdigit : d.isDigit with
    | true =>
      rw [factor_cons_of_isDigit hdigit, ← Nat.mul_assoc]
      exact ih (h.feed_digit hdigit hd) hrest
    | false =>
      rw [factor_cons_of_not_isDigit hdigit]
      exact ih (h.feed_other hdigit hd) hrest

theorem holding_feed_instruction (e : Expander) (i : Instruction) :
    (e.feed i.toChar).Holding e.output.toList 1 i.toChar := by
  simp only [feed, Instruction.ofChar?_toChar]
  exact ⟨String.toList_push .., String.toList_singleton ..⟩

theorem foldl_feed_groups (groups : List (Instruction × List Char))
    (h : ∀ g ∈ groups, ∀ c ∈ g.2, Instruction.ofChar? c = none) (e : Expander) :
    ((groups.flatMap fun g => g.1.toChar :: g.2).foldl feed e).output.toList =
      e.output.toList ++ groups.flatMap fun g => List.replicate (factor g.2) g.1.toChar := by
  induction groups generalizing e with
  | nil => simp
  | cons g groups ih =>
    have hgroup := (holding_feed_instruction e g.1).feed_body (h g List.mem_cons_self)
    rw [Nat.one_mul] at hgroup
    rw [List.flatMap_cons, List.foldl_append, List.foldl_cons,
      ih (fun x hx => h x (List.mem_cons_of_mem g hx)), hgroup.output, List.flatMap_cons,
      List.append_assoc]

/-- What an expander read before has no part in what it gives. -/
theorem run_fst (e : Expander) (source : String) : (e.run source).1 = expand source := by
  have hreset : e.reset = ({} : Expander).reset := rfl
  simp only [expand, run, hreset]

end Expander

/-- A source expands to copies of its instructions: it is cut before each instruction, and the
instruction of each group stands as often as the product of the group's digits says, with ten for a
zero and one for no digits. All else disappears, and so does what stands before the first
instruction. An expander that was used for other sources before gives the same. -/
theorem expansion_repeats_groups (source : String) :
    (∃ head groups, Shorthand.Cut source.toList head groups) ∧
    (∀ head groups, Shorthand.Cut source.toList head groups →
      (expand source).toList =
        groups.flatMap fun g => List.replicate (Shorthand.factor g.2) g.1.toChar) ∧
    ∀ earlier : List String,
      ((earlier.foldl (fun e s => (e.run s).2) ({} : Expander)).run source).1 = expand source := by
  refine ⟨Shorthand.exists_cut source.toList, ?_, fun earlier => Expander.run_fst _ source⟩
  intro head groups hcut
  have hempty : ({} : Expander).Holding [] 0 '+' := ⟨rfl, rfl⟩
  have hhead := (hempty.feed_body hcut.head).output
  rw [Nat.zero_mul] at hhead
  have hgroups := Expander.foldl_feed_groups groups hcut.body (head.foldl Expander.feed {})
  rw [hhead, ← List.foldl_append, ← hcut.source_eq] at hgroups
  exact hgroups

theorem expansion_repeats_groups_of_digit_chain :
    Shorthand.Cut "7 x+ 2é3[0,".toList "7 x".toList
        [(.increment, " 2é3".toList), (.openLoop, "0".toList), (.read, [])] ∧
      (expand "7 x+ 2é3[0,").toList = "++++++[[[[[[[[[[,".toList := by
  have hcut : Shorthand.Cut "7 x+ 2é3[0,".toList "7 x".toList
      [(.increment, " 2é3".toList), (.openLoop, "0".toList), (.read, [])] :=
    ⟨by decide, by simp [Instruction.ofChar?], by simp [Instruction.ofChar?]⟩
  obtain ⟨-, hexpand, -⟩ := expansion_repeats_groups "7 x+ 2é3[0,"
  exact ⟨hcut, (hexpand _ _ hcut).trans (by decide)⟩

end TapeLang
