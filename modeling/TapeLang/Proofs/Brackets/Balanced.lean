import TapeLang.Program.Brackets

/-! The grammar of balanced texts, and the two bracket searches on them.

* `Balanced`: the texts in which brackets nest.
* `Program.Holds p i text`: the text stands in the program at index `i`.
* `Program.Partners p i j`: the brackets at `i` and `j` enclose a balanced text.
* `closing_of_partners`, `opening_of_partners`: each search finds the partner that the grammar gives
  to its bracket. Both rest on one fact each: a search passes a balanced text at the depth at which
  it came to it. -/
namespace TapeLang
set_option autoImplicit false

/-! ## The grammar -/

/-- Texts in which brackets nest; all other characters may stand anywhere. -/
inductive Balanced : List Char → Prop
  | nil : Balanced []
  | other {c : Char} {text : List Char} (hopen : c ≠ '[') (hclose : c ≠ ']')
      (rest : Balanced text) : Balanced (c :: text)
  | loop {body text : List Char} (inner : Balanced body) (rest : Balanced text) :
      Balanced ('[' :: (body ++ ']' :: text))

theorem Balanced.append {a b : List Char} (ha : Balanced a) (hb : Balanced b) :
    Balanced (a ++ b) := by
  induction ha with
  | nil => exact hb
  | other hopen hclose _ ih => exact Balanced.other hopen hclose ih
  | loop inner _ _ ih =>
    rw [List.cons_append, List.append_assoc, List.cons_append]
    exact Balanced.loop inner ih

@[simp] theorem nesting_open : nesting '[' = 1 := rfl

@[simp] theorem nesting_close : nesting ']' = -1 := rfl

theorem nesting_of_ne {c : Char} (hopen : c ≠ '[') (hclose : c ≠ ']') : nesting c = 0 := by
  rw [nesting, if_neg hopen, if_neg hclose]

namespace Program

/-! ## Texts inside a program -/

/-- The text stands in the program, with its first character at the given index. -/
def Holds (p : Program) : (index : Nat) → (text : List Char) → Prop
  | _, [] => True
  | index, c :: text => p.get? index = some c ∧ p.Holds (index + 1) text

theorem end_cons (i : Nat) (c : Char) (text : List Char) :
    i + 1 + text.length = i + (c :: text).length := by
  rw [List.length_cons]
  omega

theorem end_loop (i : Nat) (body text : List Char) :
    i + 1 + body.length + 1 + text.length = i + ('[' :: (body ++ ']' :: text)).length := by
  simp only [List.length_cons, List.length_append]
  omega

theorem holds_append (p : Program) (i : Nat) (a b : List Char) :
    p.Holds i (a ++ b) ↔ p.Holds i a ∧ p.Holds (i + a.length) b := by
  induction a generalizing i with
  | nil => simp [Holds]
  | cons c a ih =>
    rw [List.cons_append, Holds, Holds, ih, end_cons i c a, and_assoc]

theorem holds_loop (p : Program) (i : Nat) (body text : List Char) :
    p.Holds i ('[' :: (body ++ ']' :: text)) ↔
      p.get? i = some '[' ∧ p.Holds (i + 1) body ∧ p.get? (i + 1 + body.length) = some ']' ∧
        p.Holds (i + 1 + body.length + 1) text := by
  rw [Holds, holds_append, Holds]

theorem holds_iff (p : Program) (i : Nat) (text : List Char) :
    p.Holds i text ↔ ∀ k < text.length, p.get? (i + k) = text[k]? := by
  induction text generalizing i with
  | nil => simp [Holds]
  | cons c text ih =>
    rw [Holds, ih]
    constructor
    · rintro ⟨hc, htext⟩ k hk
      cases k with
      | zero => exact hc
      | succ k =>
        have e : i + (k + 1) = i + 1 + k := by omega
        rw [e, List.getElem?_cons_succ]
        exact htext k (Nat.lt_of_succ_lt_succ hk)
    · intro h
      refine ⟨h 0 (Nat.succ_pos _), fun k hk => ?_⟩
      have e : i + 1 + k = i + (k + 1) := by omega
      rw [e, h (k + 1) (Nat.succ_lt_succ hk), List.getElem?_cons_succ]

theorem get?_eq_toList (p : Program) (i : Nat) : p.get? i = p.chars.toList[i]? := by
  simp [get?]

theorem length_toList (p : Program) : p.chars.toList.length = p.length := by
  simp [length]

theorem toList_eq_of_get? {p : Program} {k : Nat} {ch : Char} (h : p.get? k = some ch) :
    p.chars.toList.take (k + 1) = p.chars.toList.take k ++ [ch] := by
  rw [get?_eq_toList] at h
  rw [List.take_add_one, h]
  rfl

/-- A character stands among those of its kind after as many as there are before it. -/
theorem getElem?_filter_of_get? {p : Program} {k : Nat} {ch : Char} {kind : Char → Bool}
    (h : p.get? k = some ch) (hk : kind ch = true) :
    (p.chars.toList.filter kind)[(p.chars.toList.take k).countP kind]? = some ch := by
  have hsplit : p.chars.toList = p.chars.toList.take k ++ [ch] ++ p.chars.toList.drop (k + 1) := by
    rw [← toList_eq_of_get? h, List.take_append_drop]
  have hfilter := congrArg (List.filter kind) hsplit
  rw [List.filter_append, List.filter_append] at hfilter
  rw [hfilter, List.countP_eq_length_filter]
  simp [hk]

theorem holds_toList (p : Program) : p.Holds 0 p.chars.toList := by
  rw [holds_iff]
  intro k _
  rw [Nat.zero_add, get?_eq_toList]

theorem lt_length_of_get? {p : Program} {i : Nat} {c : Char} (h : p.get? i = some c) :
    i < p.length := by
  rw [← get?_isSome_iff, h]
  rfl

theorem exists_get? {p : Program} {i : Nat} (h : i < p.length) : ∃ ch, p.get? i = some ch :=
  Option.isSome_iff_exists.mp ((p.get?_isSome_iff i).mpr h)

/-! ## The searches on a balanced text -/

theorem nestingAt_of_get? {p : Program} {i : Nat} {c : Char} (h : p.get? i = some c) :
    p.nestingAt i = nesting c := by
  rw [nestingAt, h]

theorem scanRight_succ {p : Program} {i : Nat} {c : Char} (h : p.get? i = some c) (left : Nat)
    (depth : Int) (hne : depth + nesting c ≠ 0) :
    p.scanRight (left + 1) i depth = p.scanRight left (i + 1) (depth + nesting c) := by
  simp only [scanRight, nestingAt_of_get? h, if_neg hne]

theorem scanLeft_succ {p : Program} {i : Nat} {c : Char} (h : p.get? i = some c) (depth : Int)
    (hne : depth - nesting c ≠ 0) :
    p.scanLeft (i + 1) depth = p.scanLeft i (depth - nesting c) := by
  simp only [scanLeft, nestingAt_of_get? h, if_neg hne]

theorem scanRight_bounds {p : Program} {left i j : Nat} {depth : Int}
    (h : p.scanRight left i depth = .ok j) : i ≤ j ∧ j < i + left := by
  induction left generalizing i depth with
  | zero => cases h
  | succ left ih =>
    simp only [scanRight] at h
    split at h
    · cases h
      omega
    · have := ih h
      omega

theorem scanLeft_lt {p : Program} {i j : Nat} {depth : Int} (h : p.scanLeft i depth = .ok j) :
    j < i := by
  induction i generalizing depth with
  | zero => cases h
  | succ i ih =>
    simp only [scanLeft] at h
    split at h
    · cases h
      exact Nat.lt_succ_self _
    · exact Nat.lt_succ_of_lt (ih h)

theorem closing_lt_length {p : Program} {i j : Nat} (hi : i < p.length) (h : p.closing i = .ok j) :
    j < p.length := by
  have := scanRight_bounds h
  omega

theorem opening_le {p : Program} {i j : Nat} (h : p.opening i = .ok j) : j ≤ i :=
  Nat.le_of_lt_succ (scanLeft_lt h)

/-- A search to the right passes a balanced text at the depth at which it came to it. -/
theorem scanRight_balanced {p : Program} {text : List Char} (hb : Balanced text) (left i : Nat)
    (depth : Int) (hd : 0 < depth) (h : p.Holds i text) :
    p.scanRight (left + text.length) i depth = p.scanRight left (i + text.length) depth := by
  induction hb generalizing left i depth with
  | nil => rfl
  | @other c text hopen hclose _ ih =>
    have hn := nesting_of_ne hopen hclose
    have s1 := scanRight_succ h.1 (left + text.length) depth (by omega)
    rw [hn, Int.add_zero] at s1
    have s2 := ih left (i + 1) depth hd h.2
    rw [end_cons i c text] at s2
    exact s1.trans s2
  | @loop body text _ _ ihBody ihText =>
    obtain ⟨hopen, hbody, hclose, htext⟩ := (p.holds_loop _ _ _).mp h
    have s1 := scanRight_succ hopen (left + text.length + 1 + body.length) depth
      (by rw [nesting_open]; omega)
    have s2 := ihBody (left + text.length + 1) (i + 1) (depth + 1) (by omega) hbody
    have s3 := scanRight_succ hclose (left + text.length) (depth + 1)
      (by rw [nesting_close]; omega)
    rw [nesting_close, Int.add_neg_cancel_right] at s3
    have s4 := ihText left (i + 1 + body.length + 1) depth hd htext
    have hs := ((s1.trans s2).trans s3).trans s4
    have e : left + text.length + 1 + body.length + 1
        = left + ('[' :: (body ++ ']' :: text)).length := by
      simp only [List.length_cons, List.length_append]
      omega
    rwa [e, end_loop i body text] at hs

theorem scanLeft_balanced {p : Program} {text : List Char} (hb : Balanced text) (i : Nat)
    (depth : Int) (hd : 0 < depth) (h : p.Holds i text) :
    p.scanLeft (i + text.length) depth = p.scanLeft i depth := by
  induction hb generalizing i depth with
  | nil => rfl
  | @other c text hopen hclose _ ih =>
    have hn := nesting_of_ne hopen hclose
    have s1 := ih (i + 1) depth hd h.2
    have s2 := scanLeft_succ h.1 depth (by omega)
    rw [hn, Int.sub_zero] at s2
    rw [end_cons i c text] at s1
    exact s1.trans s2
  | @loop body text _ _ ihBody ihText =>
    obtain ⟨hopen, hbody, hclose, htext⟩ := (p.holds_loop _ _ _).mp h
    have s1 := ihText (i + 1 + body.length + 1) depth hd htext
    have s2 := scanLeft_succ hclose depth (by rw [nesting_close]; omega)
    rw [nesting_close, Int.sub_neg] at s2
    have s3 := ihBody (i + 1) (depth + 1) (by omega) hbody
    have s4 := scanLeft_succ hopen (depth + 1) (by rw [nesting_open]; omega)
    rw [nesting_open, Int.add_sub_cancel] at s4
    have hs := ((s1.trans s2).trans s3).trans s4
    rwa [end_loop i body text] at hs

/-! ## Partners -/

/-- The brackets at `i` and `j` are partners: the text between them is balanced. -/
def Partners (p : Program) (i j : Nat) : Prop :=
  ∃ body, Balanced body ∧ j = i + 1 + body.length ∧ p.Holds i ('[' :: (body ++ [']']))

/-- The bracket at an index, if there is one, has no partner. -/
def Partnerless (p : Program) (index : Nat) : Prop :=
  ∀ i j, p.Partners i j → index ≠ i ∧ index ≠ j

theorem Partners.bounds {p : Program} {i j : Nat} (h : p.Partners i j) :
    i < j ∧ p.get? i = some '[' ∧ p.get? j = some ']' := by
  obtain ⟨body, -, rfl, hloop⟩ := h
  obtain ⟨hopen, -, hclose, -⟩ := (p.holds_loop _ _ _).mp hloop
  exact ⟨by omega, hopen, hclose⟩

theorem closing_of_open {p : Program} {i : Nat} (hi : p.get? i = some '[') :
    p.closing i = p.scanRight (p.length - (i + 1)) (i + 1) 1 := by
  have e : p.length - i = p.length - (i + 1) + 1 := by
    have := lt_length_of_get? hi
    omega
  rw [closing, e, scanRight_succ hi _ 0 (by decide)]
  rfl

theorem opening_of_close {p : Program} {j : Nat} (hj : p.get? j = some ']') :
    p.opening j = p.scanLeft j 1 := by
  rw [opening, scanLeft_succ hj 0 (by decide)]
  rfl

theorem closing_of_partners {p : Program} {i j : Nat} (h : p.Partners i j) :
    p.closing i = .ok j := by
  obtain ⟨body, hb, rfl, hloop⟩ := h
  obtain ⟨hopen, hbody, hclose, -⟩ := (p.holds_loop _ _ _).mp hloop
  obtain ⟨left, hleft⟩ : ∃ left, p.length - (i + 1) = left + 1 + body.length :=
    ⟨p.length - (i + 1 + body.length + 1), by have := lt_length_of_get? hclose; omega⟩
  rw [closing_of_open hopen, hleft, scanRight_balanced hb (left + 1) (i + 1) _ (by decide) hbody,
    scanRight, nestingAt_of_get? hclose]
  rfl

theorem opening_of_partners {p : Program} {i j : Nat} (h : p.Partners i j) :
    p.opening j = .ok i := by
  obtain ⟨body, hb, rfl, hloop⟩ := h
  obtain ⟨hopen, hbody, hclose, -⟩ := (p.holds_loop _ _ _).mp hloop
  rw [opening_of_close hclose, scanLeft_balanced hb (i + 1) _ (by decide) hbody, scanLeft,
    nestingAt_of_get? hopen]
  rfl

theorem partnerless_of_closing {p : Program} {k : Nat} {edge : Edge} (hc : p.get? k = some '[')
    (h : p.closing k = .error edge) : p.Partnerless k := by
  intro i j hp
  constructor
  · rintro rfl
    rw [closing_of_partners hp] at h
    cases h
  · rintro rfl
    obtain ⟨-, -, hclose⟩ := hp.bounds
    rw [hc] at hclose
    cases hclose

theorem partnerless_of_opening {p : Program} {k : Nat} {edge : Edge} (hc : p.get? k = some ']')
    (h : p.opening k = .error edge) : p.Partnerless k := by
  intro i j hp
  constructor
  · rintro rfl
    obtain ⟨-, hopen, -⟩ := hp.bounds
    rw [hc] at hopen
    cases hopen
  · rintro rfl
    rw [opening_of_partners hp] at h
    cases h

end Program

end TapeLang
