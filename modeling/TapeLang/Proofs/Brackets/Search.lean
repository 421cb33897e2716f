import TapeLang.Proofs.Brackets.Balanced

/-! The two bracket searches on any text.

A search that has come to some depth ends where the text has closed as many brackets as the depth
says (`Closes`), or, towards the left, has opened them (`Opens`). At depth one that is the partner
of the grammar, so the searches find partners and nothing else (`closing_eq_ok_iff`,
`opening_eq_ok_iff`) and are inverse to each other.

`tallyRight` and `tallyLeft` are the searches with a natural number for a counter. They have no
outcome if the counter would go below zero, which never happens from a bracket. -/
namespace TapeLang
set_option autoImplicit false

/-! ## Texts that change the depth -/

/-- Texts that close as many brackets as the number says, the last of them with their last
character. -/
inductive Closes : Nat → List Char → Prop
  | nil : Closes 0 []
  | close {depth : Nat} {body text : List Char} (inner : Balanced body) (rest : Closes depth text) :
      Closes (depth + 1) (body ++ ']' :: text)

/-- Texts that open as many brackets as the number says, the first of them with their first
character. -/
inductive Opens : Nat → List Char → Prop
  | nil : Opens 0 []
  | opened {depth : Nat} {body text : List Char} (rest : Opens depth text) (inner : Balanced body) :
      Opens (depth + 1) (text ++ '[' :: body)

theorem Closes.append {depth : Nat} {body text : List Char} (hb : Balanced body)
    (h : Closes (depth + 1) text) : Closes (depth + 1) (body ++ text) := by
  cases h with
  | close inner rest =>
    rw [← List.append_assoc]
    exact Closes.close (hb.append inner) rest

theorem Closes.loop {depth : Nat} {text : List Char} (h : Closes (depth + 2) text) :
    Closes (depth + 1) ('[' :: text) := by
  cases h with
  | @close _ body text inner rest =>
    have e : '[' :: (body ++ ']' :: text) = '[' :: (body ++ [']']) ++ text := by simp
    rw [e]
    exact rest.append (Balanced.loop inner Balanced.nil)

theorem Opens.append {depth : Nat} {body text : List Char} (h : Opens (depth + 1) text)
    (hb : Balanced body) : Opens (depth + 1) (text ++ body) := by
  cases h with
  | opened rest inner =>
    rw [List.append_assoc, List.cons_append]
    exact Opens.opened rest (inner.append hb)

theorem Opens.loop {depth : Nat} {text : List Char} (h : Opens (depth + 2) text) :
    Opens (depth + 1) (text ++ [']']) := by
  cases h with
  | @opened _ body text rest inner =>
    rw [List.append_assoc, List.cons_append]
    exact rest.append (Balanced.loop inner Balanced.nil)

namespace Program

/-! ## What a search has passed when it ends -/

theorem Holds.snoc {p : Program} {i : Nat} {text : List Char} {c : Char} (h : p.Holds i text)
    (hc : p.get? (i + text.length) = some c) : p.Holds i (text ++ [c]) :=
  (p.holds_append i text [c]).mpr ⟨h, hc, True.intro⟩

theorem closes_of_scanRight {p : Program} {left i j : Nat} (depth : Nat)
    (hlen : i + left = p.length) (h : p.scanRight left i ((depth + 1 : Nat) : Int) = .ok j) :
    ∃ text, Closes (depth + 1) text ∧ p.Holds i text ∧ i + text.length = j + 1 := by
  -- The induction hypothesis is about the text after this character, at the depth after it. An
  -- opening bracket in front uses up one closing of that text, a closing bracket adds one.
  induction left generalizing i depth with
  | zero => cases h
  | succ left ih =>
    obtain ⟨c, hc⟩ := exists_get? (show i < p.length by omega)
    have hlen' : i + 1 + left = p.length := by omega
    simp only [scanRight, nestingAt_of_get? hc] at h
    by_cases hopen : c = '['
    · subst hopen
      have e : ((depth + 1 : Nat) : Int) + nesting '[' = ((depth + 1 + 1 : Nat) : Int) := rfl
      rw [e, if_neg (by omega)] at h
      obtain ⟨text, ht, hh, hj⟩ := ih _ hlen' h
      exact ⟨'[' :: text, ht.loop, ⟨hc, hh⟩, by rw [List.length_cons]; omega⟩
    by_cases hclose : c = ']'
    · subst hclose
      have e : ((depth + 1 : Nat) : Int) + nesting ']' = (depth : Int) := by
        rw [nesting_close]; omega
      rw [e] at h
      cases depth with
      | zero =>
        cases h
        exact ⟨[']'], Closes.close Balanced.nil Closes.nil, ⟨hc, True.intro⟩, rfl⟩
      | succ depth =>
        rw [if_neg (by omega)] at h
        obtain ⟨text, ht, hh, hj⟩ := ih _ hlen' h
        exact ⟨']' :: text, Closes.close Balanced.nil ht, ⟨hc, hh⟩, by rw [List.length_cons]; omega⟩
    · rw [nesting_of_ne hopen hclose, Int.add_zero, if_neg (by omega)] at h
      obtain ⟨text, ht, hh, hj⟩ := ih _ hlen' h
      have hother : Balanced [c] := Balanced.other hopen hclose Balanced.nil
      exact ⟨c :: text, ht.append hother, ⟨hc, hh⟩, by rw [List.length_cons]; omega⟩

theorem opens_of_scanLeft {p : Program} {i j : Nat} (depth : Nat) (hi : i ≤ p.length)
    (h : p.scanLeft i ((depth + 1 : Nat) : Int) = .ok j) :
    ∃ text, Opens (depth + 1) text ∧ p.Holds j text ∧ j + text.length = i := by
  induction i generalizing depth with
  | zero => cases h
  | succ i ih =>
    obtain ⟨c, hc⟩ := exists_get? (show i < p.length by omega)
    have hi' : i ≤ p.length := by omega
    simp only [scanLeft, nestingAt_of_get? hc] at h
    by_cases hclose : c = ']'
    · subst hclose
      have e : ((depth + 1 : Nat) : Int) - nesting ']' = ((depth + 1 + 1 : Nat) : Int) := rfl
      rw [e, if_neg (by omega)] at h
      obtain ⟨text, ht, hh, rfl⟩ := ih _ hi' h
      exact ⟨text ++ [']'], ht.loop, hh.snoc hc, by simp; omega⟩
    by_cases hopen : c = '['
    · subst hopen
      have e : ((depth + 1 : Nat) : Int) - nesting '[' = (depth : Int) := by
        rw [nesting_open]; omega
      rw [e] at h
      cases depth with
      | zero =>
        cases h
        exact ⟨['['], Opens.opened Opens.nil Balanced.nil, ⟨hc, True.intro⟩, rfl⟩
      | succ depth =>
        rw [if_neg (by omega)] at h
        obtain ⟨text, ht, hh, rfl⟩ := ih _ hi' h
        exact ⟨text ++ ['['], Opens.opened ht Balanced.nil, hh.snoc hc, by simp; omega⟩
    · rw [nesting_of_ne hopen hclose, Int.sub_zero, if_neg (by omega)] at h
      obtain ⟨text, ht, hh, rfl⟩ := ih _ hi' h
      have hother : Balanced [c] := Balanced.other hopen hclose Balanced.nil
      exact ⟨text ++ [c], ht.append hother, hh.snoc hc, by simp; omega⟩

/-! ## Searches from a bracket -/

theorem closing_eq_ok_iff {p : Program} {i : Nat} (hi : p.get? i = some '[') (j : Nat) :
    p.closing i = .ok j ↔ p.Partners i j := by
  refine ⟨fun h => ?_, closing_of_partners⟩
  rw [closing_of_open hi] at h
  have hlen : i + 1 + (p.length - (i + 1)) = p.length := by
    have := lt_length_of_get? hi
    omega
  obtain ⟨text, ht, hh, hj⟩ := closes_of_scanRight 0 hlen h
  cases ht with
  | @close _ body _ inner rest =>
    cases rest
    refine ⟨body, inner, ?_, hi, hh⟩
    simp only [List.length_append, List.length_cons, List.length_nil] at hj
    omega

theorem opening_eq_ok_iff {p : Program} {j : Nat} (hj : p.get? j = some ']') (i : Nat) :
    p.opening j = .ok i ↔ p.Partners i j := by
  refine ⟨fun h => ?_, opening_of_partners⟩
  rw [opening_of_close hj] at h
  have hle := Nat.le_of_lt (lt_length_of_get? hj)
  obtain ⟨text, ht, hh, hlen⟩ := opens_of_scanLeft 0 hle h
  cases ht with
  | @opened _ body _ rest inner =>
    cases rest
    subst hlen
    refine ⟨body, inner, ?_, ?_⟩
    · simp only [List.nil_append, List.length_cons]
      omega
    · exact hh.snoc hj

theorem scanRight_edge {p : Program} {left i : Nat} {depth : Int} {edge : Edge}
    (h : p.scanRight left i depth = .error edge) : edge = .afterEnd := by
  induction left generalizing i depth with
  | zero =>
    cases h
    rfl
  | succ left ih =>
    simp only [scanRight] at h
    split at h
    · cases h
    · exact ih h

theorem scanLeft_edge {p : Program} {i : Nat} {depth : Int} {edge : Edge}
    (h : p.scanLeft i depth = .error edge) : edge = .beforeStart := by
  induction i generalizing depth with
  | zero =>
    cases h
    rfl
  | succ i ih =>
    simp only [scanLeft] at h
    split at h
    · cases h
    · exact ih h

theorem closing_eq_error_iff {p : Program} {i : Nat} (hi : p.get? i = some '[') :
    p.closing i = .error .afterEnd ↔ ∀ j, ¬ p.Partners i j := by
  constructor
  · intro h j hp
    rw [closing_of_partners hp] at h
    cases h
  · intro hnone
    rcases h : p.closing i with edge | j
    · rw [scanRight_edge h]
    · exact absurd ((closing_eq_ok_iff hi j).mp h) (hnone j)

theorem opening_eq_error_iff {p : Program} {j : Nat} (hj : p.get? j = some ']') :
    p.opening j = .error .beforeStart ↔ ∀ i, ¬ p.Partners i j := by
  constructor
  · intro h i hp
    rw [opening_of_partners hp] at h
    cases h
  · intro hnone
    rcases h : p.opening j with edge | i
    · rw [scanLeft_edge h]
    · exact absurd ((opening_eq_ok_iff hj i).mp h) (hnone i)

/-! ## The text between two brackets -/

/-- The text strictly between two places. -/
def between (p : Program) (i j : Nat) : List Char :=
  (p.chars.toList.take j).drop (i + 1)

theorem length_between {p : Program} {i j : Nat} (hj : j ≤ p.length) :
    (p.between i j).length = j - (i + 1) := by
  rw [between, List.length_drop, List.length_take, length_toList, Nat.min_eq_left hj]

theorem holds_between {p : Program} {i j : Nat} (hj : j ≤ p.length) :
    p.Holds (i + 1) (p.between i j) := by
  rw [holds_iff]
  intro k hk
  rw [length_between hj] at hk
  have hlt : i + 1 + k < j := by omega
  rw [get?_eq_toList, between, List.getElem?_drop, List.getElem?_take_of_lt hlt]

theorem Holds.eq_of_length {p : Program} {i : Nat} {a b : List Char} (ha : p.Holds i a)
    (hb : p.Holds i b) (hlen : a.length = b.length) : a = b := by
  rw [holds_iff] at ha hb
  apply List.ext_getElem?
  intro k
  by_cases hk : k < a.length
  · rw [← ha k hk, hb k (hlen ▸ hk)]
  · rw [List.getElem?_eq_none (by omega), List.getElem?_eq_none (by omega)]

theorem partners_iff_between {p : Program} {i j : Nat} :
    p.Partners i j ↔
      i < j ∧ p.get? i = some '[' ∧ p.get? j = some ']' ∧ Balanced (p.between i j) := by
  constructor
  · intro h
    obtain ⟨hij, hi, hj⟩ := h.bounds
    refine ⟨hij, hi, hj, ?_⟩
    obtain ⟨body, hb, rfl, hloop⟩ := h
    have hle := Nat.le_of_lt (lt_length_of_get? hj)
    have hbody := ((p.holds_loop _ _ _).mp hloop).2.1
    have hlen : body.length = (p.between i (i + 1 + body.length)).length := by
      rw [length_between hle]
      omega
    rwa [← hbody.eq_of_length (holds_between hle) hlen]
  · rintro ⟨hij, hi, hj, hb⟩
    have hle := Nat.le_of_lt (lt_length_of_get? hj)
    have hlen := length_between (i := i) hle
    have e : j = i + 1 + (p.between i j).length := by omega
    refine ⟨p.between i j, hb, e, (p.holds_loop _ _ _).mpr ⟨hi, holds_between hle, ?_, True.intro⟩⟩
    rwa [← e]

/-! ## Counters that stay natural numbers -/

/-- The counter of a search after a character: a bracket like the first one counts up, its opposite
counts down, and there is no counter below zero. -/
def tally (same opposite c : Char) (count : Nat) : Option Nat :=
  if c = same then some (count + 1)
  else if c = opposite then
    match count with
    | 0 => none
    | count + 1 => some count
  else some count

/-- The search to the right with a natural number for a counter. -/
def tallyRight (p : Program) : (left index count : Nat) → Option (Except Edge Nat)
  | 0, _, _ => some (.error .afterEnd)
  | left + 1, index, count =>
    match (p.get? index).elim (some count) (tally '[' ']' · count) with
    | none => none
    | some 0 => some (.ok index)
    | some (count + 1) => tallyRight p left (index + 1) (count + 1)

/-- The search to the left with a natural number for a counter. -/
def tallyLeft (p : Program) : (index count : Nat) → Option (Except Edge Nat)
  | 0, _ => some (.error .beforeStart)
  | index + 1, count =>
    match (p.get? index).elim (some count) (tally ']' '[' · count) with
    | none => none
    | some 0 => some (.ok index)
    | some (count + 1) => tallyLeft p index (count + 1)

theorem tally_succ (same opposite c : Char) (count : Nat) :
    ∃ count', tally same opposite c (count + 1) = some count' ∧
      (count' : Int) = ((count + 1 : Nat) : Int) +
        if c = same then 1 else if c = opposite then -1 else 0 := by
  unfold tally
  by_cases hsame : c = same
  · exact ⟨count + 2, if_pos hsame, by rw [if_pos hsame]; omega⟩
  by_cases hopposite : c = opposite
  · exact ⟨count, by rw [if_neg hsame, if_pos hopposite],
      by rw [if_neg hsame, if_pos hopposite]; omega⟩
  · exact ⟨count + 1, by rw [if_neg hsame, if_neg hopposite],
      by rw [if_neg hsame, if_neg hopposite, Int.add_zero]⟩

theorem neg_nesting (c : Char) :
    -nesting c = if c = ']' then 1 else if c = '[' then -1 else 0 := by
  by_cases hopen : c = '['
  · subst hopen
    rfl
  by_cases hclose : c = ']'
  · subst hclose
    rfl
  · rw [nesting_of_ne hopen hclose, if_neg hclose, if_neg hopen]
    rfl

theorem tallyRight_eq {p : Program} {left i : Nat} (count : Nat) (hlen : i + left = p.length) :
    p.tallyRight left i (count + 1) = some (p.scanRight left i ((count + 1 : Nat) : Int)) := by
  induction left generalizing i count with
  | zero => rfl
  | succ left ih =>
    obtain ⟨c, hc⟩ := exists_get? (show i < p.length by omega)
    obtain ⟨count', htally, hcount⟩ := tally_succ '[' ']' c count
    rw [← nesting] at hcount
    simp only [tallyRight, scanRight, hc, Option.elim_some, htally, nestingAt_of_get? hc, ← hcount]
    cases count' with
    | zero => rfl
    | succ count' =>
      rw [if_neg (by omega)]
      exact ih count' (by omega)

theorem tallyLeft_eq {p : Program} {i : Nat} (count : Nat) (hi : i ≤ p.length) :
    p.tallyLeft i (count + 1) = some (p.scanLeft i ((count + 1 : Nat) : Int)) := by
  induction i generalizing count with
  | zero => rfl
  | succ i ih =>
    obtain ⟨c, hc⟩ := exists_get? (show i < p.length by omega)
    obtain ⟨count', htally, hcount⟩ := tally_succ ']' '[' c count
    rw [← neg_nesting, ← Int.sub_eq_add_neg] at hcount
    simp only [tallyLeft, scanLeft, hc, Option.elim_some, htally, nestingAt_of_get? hc, ← hcount]
    cases count' with
    | zero => rfl
    | succ count' =>
      rw [if_neg (by omega)]
      exact ih count' (by omega)

theorem tallyRight_of_open {p : Program} {i : Nat} (hi : p.get? i = some '[') :
    p.tallyRight (p.length - i) i 0 = some (p.closing i) := by
  have hlt := lt_length_of_get? hi
  have e : p.length - i = p.length - (i + 1) + 1 := by omega
  rw [closing_of_open hi, e, tallyRight, hi]
  exact tallyRight_eq 0 (by omega)

theorem tallyLeft_of_close {p : Program} {j : Nat} (hj : p.get? j = some ']') :
    p.tallyLeft (j + 1) 0 = some (p.opening j) := by
  rw [opening_of_close hj, tallyLeft, hj]
  exact tallyLeft_eq 0 (Nat.le_of_lt (lt_length_of_get? hj))

/-! ## What the searches find -/

/-- The searches find the partners of the grammar, in any text. An opening bracket and a later
closing one find each other exactly if the text between them is balanced. A search from a bracket
finds an opposite bracket or comes to the edge of the program, the latter exactly if no bracket is
such a partner, and its counter never goes below zero. -/
theorem searches_find_partners (p : Program) :
    (∀ i j, i < j → p.get? i = some '[' → p.get? j = some ']' →
      (p.closing i = .ok j ↔ Balanced (p.between i j)) ∧
      (Balanced (p.between i j) ↔ p.opening j = .ok i)) ∧
    (∀ i, p.get? i = some '[' →
      (∀ j, p.closing i = .ok j → i < j ∧ p.get? j = some ']') ∧
      (p.closing i = .error .afterEnd ↔
        ¬ ∃ j, i < j ∧ p.get? j = some ']' ∧ Balanced (p.between i j)) ∧
      p.tallyRight (p.length - i) i 0 = some (p.closing i)) ∧
    ∀ j, p.get? j = some ']' →
      (∀ i, p.opening j = .ok i → i < j ∧ p.get? i = some '[') ∧
      (p.opening j = .error .beforeStart ↔
        ¬ ∃ i, i < j ∧ p.get? i = some '[' ∧ Balanced (p.between i j)) ∧
      p.tallyLeft (j + 1) 0 = some (p.opening j) := by
  refine ⟨?_, ?_, ?_⟩
  · intro i j hij hi hj
    rw [closing_eq_ok_iff hi, opening_eq_ok_iff hj, partners_iff_between]
    simp only [hij, hi, hj, true_and, iff_self, and_self]
  · intro i hi
    refine ⟨?_, ?_, tallyRight_of_open hi⟩
    · intro j h
      obtain ⟨hij, -, hj⟩ := ((closing_eq_ok_iff hi j).mp h).bounds
      exact ⟨hij, hj⟩
    · rw [closing_eq_error_iff hi, not_exists]
      simp only [partners_iff_between, hi, true_and]
  · intro j hj
    refine ⟨?_, ?_, tallyLeft_of_close hj⟩
    · intro i h
      obtain ⟨hij, hi, -⟩ := ((opening_eq_ok_iff hj i).mp h).bounds
      exact ⟨hij, hi⟩
    · rw [opening_eq_error_iff hj, not_exists]
      simp only [partners_iff_between, hj, true_and]

theorem searches_find_partners_of_surplus_brackets :
    let p := Program.ofString "[]]a[b[c]]d[[]"
    Balanced (p.between 4 9) ∧ p.opening 9 = .ok 4 ∧
      (¬ ∃ j, 11 < j ∧ p.get? j = some ']' ∧ Balanced (p.between 11 j)) ∧
      ¬ ∃ i, i < 2 ∧ p.get? i = some '[' ∧ Balanced (p.between i 2) := by
  intro p
  obtain ⟨hpair, hright, hleft⟩ := searches_find_partners p
  obtain ⟨hclosing, hopening⟩ := hpair 4 9 (by decide) rfl rfl
  have hb : Balanced (p.between 4 9) := hclosing.mp rfl
  exact ⟨hb, hopening.mp hb, (hright 11 rfl).2.1.mp rfl, (hleft 2 rfl).2.1.mp rfl⟩

end Program

end TapeLang
