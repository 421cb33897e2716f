import TapeLang.Proofs.Brackets.Balanced

/-! What the check of a whole program finds.

Every text is either a balanced text before a surplus closing bracket, or has open brackets only
(`closed_or_unclosed`). The check follows these two shapes: a balanced text leaves its stack as it
was, and an open bracket at the bottom of the stack stays there. So the check accepts the balanced
texts and no others (`check_eq_ok_iff`), and before the bracket that it reports every bracket has a
partner (`partner_before_unmatched`). The search from the reported bracket leaves the program, so
the check and the searches agree (`check_finds_leftmost`). -/
namespace TapeLang
set_option autoImplicit false

/-! ## The shape of a text -/

/-- Texts without a surplus closing bracket: balanced texts with open brackets between them. -/
inductive Unclosed : List Char → Prop
  | balanced {text : List Char} (h : Balanced text) : Unclosed text
  | opened {before text : List Char} (h : Balanced before) (rest : Unclosed text) :
      Unclosed (before ++ '[' :: text)

theorem Unclosed.append {a b : List Char} (ha : Balanced a) (hb : Unclosed b) :
    Unclosed (a ++ b) := by
  cases hb with
  | balanced h => exact Unclosed.balanced (ha.append h)
  | opened h rest =>
    rw [← List.append_assoc]
    exact Unclosed.opened (ha.append h) rest

/-- A text starts with a balanced text and a surplus closing bracket, or it has none. -/
theorem closed_or_unclosed (text : List Char) :
    (∃ before rest, Balanced before ∧ text = before ++ ']' :: rest) ∨ Unclosed text := by
  -- An opening bracket takes the text up to its partner away at once, so the induction is on the
  -- length and not on the tail.
  induction hn : text.length using Nat.strongRecOn generalizing text with
  | ind n ih =>
    subst hn
    cases text with
    | nil => exact Or.inr (Unclosed.balanced Balanced.nil)
    | cons c text =>
      have htext := ih text.length (Nat.lt_succ_self _) text rfl
      by_cases hclose : c = ']'
      · subst hclose
        exact Or.inl ⟨[], text, Balanced.nil, rfl⟩
      by_cases hopen : c = '['
      · subst hopen
        obtain ⟨body, rest, hbody, rfl⟩ | hun := htext
        · have hloop : Balanced ('[' :: (body ++ [']'])) := Balanced.loop hbody Balanced.nil
          have e : '[' :: (body ++ ']' :: rest) = '[' :: (body ++ [']']) ++ rest := by simp
          have hrest := ih rest.length (by simp only [List.length_cons, List.length_append]; omega)
            rest rfl
          rw [e]
          obtain ⟨before, rest, hbefore, rfl⟩ | hun := hrest
          · exact Or.inl ⟨_, rest, hloop.append hbefore, (List.append_assoc _ _ _).symm⟩
          · exact Or.inr (Unclosed.append hloop hun)
        · exact Or.inr (Unclosed.opened Balanced.nil hun)
      · have hc : Balanced [c] := Balanced.other hopen hclose Balanced.nil
        obtain ⟨before, rest, hbefore, rfl⟩ | hun := htext
        · exact Or.inl ⟨c :: before, rest, hc.append hbefore, rfl⟩
        · exact Or.inr (Unclosed.append hc hun)

namespace Program

/-! ## The pass over a text -/

theorem unmatchedFrom_open (rest : List Char) (i : Nat) (opened : List Nat) :
    unmatchedFrom ('[' :: rest) i opened = unmatchedFrom rest (i + 1) (i :: opened) := rfl

theorem unmatchedFrom_close (rest : List Char) (i k : Nat) (opened : List Nat) :
    unmatchedFrom (']' :: rest) i (k :: opened) = unmatchedFrom rest (i + 1) opened := rfl

theorem unmatchedFrom_surplus (rest : List Char) (i : Nat) :
    unmatchedFrom (']' :: rest) i [] = some i := rfl

theorem unmatchedFrom_other {c : Char} (hopen : c ≠ '[') (hclose : c ≠ ']') (rest : List Char)
    (i : Nat) (opened : List Nat) :
    unmatchedFrom (c :: rest) i opened = unmatchedFrom rest (i + 1) opened := by
  cases opened <;> rw [unmatchedFrom, if_neg hopen, if_neg hclose]

theorem unmatchedFrom_balanced {text : List Char} (hb : Balanced text) (rest : List Char) (i : Nat)
    (opened : List Nat) :
    unmatchedFrom (text ++ rest) i opened = unmatchedFrom rest (i + text.length) opened := by
  induction hb generalizing rest i opened with
  | nil => rfl
  | @other c text hopen hclose _ ih =>
    rw [List.cons_append, unmatchedFrom_other hopen hclose, ih, List.length_cons]
    congr 1
    omega
  | @loop body text _ _ ihBody ihText =>
    have e : '[' :: (body ++ ']' :: text) ++ rest = '[' :: (body ++ (']' :: (text ++ rest))) := by
      simp
    rw [e, unmatchedFrom_open, ihBody, unmatchedFrom_close]
    have e : i + 1 + body.length + 1 + text.length
        = i + ('[' :: (body ++ ']' :: text)).length := by
      simp only [List.length_cons, List.length_append]; omega
    rw [ihText, e]

theorem unmatchedFrom_unclosed {text : List Char} (hu : Unclosed text) (i k : Nat)
    (opened : List Nat) :
    unmatchedFrom text i (k :: opened) = (k :: opened).getLast? := by
  induction hu generalizing i k opened with
  | @balanced text h =>
    have hs := unmatchedFrom_balanced h [] i (k :: opened)
    rwa [List.append_nil] at hs
  | opened h _ ih =>
    rw [unmatchedFrom_balanced h, unmatchedFrom_open, ih, List.getLast?_cons_cons]

/-- What the check finds: nothing in a balanced text, and otherwise the bracket after the longest
balanced start that leaves it without a partner. -/
theorem unmatched?_cases (p : Program) :
    (p.unmatched? = none ∧ Balanced p.chars.toList) ∨
      ∃ before c rest, Balanced before ∧ p.chars.toList = before ++ c :: rest ∧
        p.unmatched? = some before.length ∧ (c = ']' ∨ c = '[' ∧ Unclosed rest) := by
  obtain ⟨before, rest, hb, he⟩ | hu := closed_or_unclosed p.chars.toList
  · refine Or.inr ⟨before, ']', rest, hb, he, ?_, Or.inl rfl⟩
    rw [unmatched?, he, unmatchedFrom_balanced hb, unmatchedFrom_surplus, Nat.zero_add]
  · generalize he : p.chars.toList = text at hu ⊢
    cases hu with
    | balanced h =>
      refine Or.inl ⟨?_, h⟩
      have hs := unmatchedFrom_balanced h [] 0 []
      rw [List.append_nil] at hs
      rw [unmatched?, he, hs]
      rfl
    | @opened before text h hu =>
      refine Or.inr ⟨before, '[', text, h, rfl, ?_, Or.inr ⟨rfl, hu⟩⟩
      rw [unmatched?, he, unmatchedFrom_balanced h, unmatchedFrom_open, unmatchedFrom_unclosed hu,
        Nat.zero_add]
      rfl

theorem check_eq_ok_iff (p : Program) (radius : Nat) :
    p.check radius = .ok () ↔ Balanced p.chars.toList := by
  obtain ⟨hnone, hb⟩ | ⟨before, c, rest, hb, he, hsome, hc⟩ := p.unmatched?_cases
  · simp only [check, hnone, hb]
  · simp only [check, hsome, reduceCtorEq, false_iff]
    intro hall
    have hs := unmatchedFrom_balanced hall [] 0 []
    rw [List.append_nil] at hs
    rw [unmatched?, hs] at hsome
    cases hsome

/-! ## Brackets before the reported one -/

theorem Partners.of_loop {p : Program} {i : Nat} {body text : List Char} (hb : Balanced body)
    (h : p.Holds i ('[' :: (body ++ ']' :: text))) : p.Partners i (i + 1 + body.length) := by
  obtain ⟨hopen, hbody, hclose, -⟩ := (p.holds_loop _ _ _).mp h
  exact ⟨body, hb, rfl, (p.holds_loop _ _ _).mpr ⟨hopen, hbody, hclose, True.intro⟩⟩

/-- Every bracket of a balanced text has a partner. -/
theorem not_partnerless_of_balanced {p : Program} {text : List Char} (hb : Balanced text) {i k : Nat}
    (h : p.Holds i text) (hik : i ≤ k) (hk : k < i + text.length)
    (hc : p.get? k = some '[' ∨ p.get? k = some ']') : ¬ p.Partnerless k := by
  induction hb generalizing i with
  | nil => simp only [List.length_nil] at hk; omega
  | @other c text hopen hclose _ ih =>
    by_cases hki : k = i
    · subst hki
      rw [h.1] at hc
      obtain hc | hc := hc <;> cases hc <;> contradiction
    · simp only [List.length_cons] at hk
      exact ih h.2 (by omega) (by omega)
  | @loop body text hbody _ ihBody ihText =>
    have hp := Partners.of_loop hbody h
    obtain ⟨-, hinner, -, htext⟩ := (p.holds_loop _ _ _).mp h
    simp only [List.length_cons, List.length_append] at hk
    by_cases h1 : k = i
    · exact fun hless => (hless _ _ hp).1 h1
    by_cases h2 : k < i + 1 + body.length
    · exact ihBody hinner (by omega) h2
    by_cases h3 : k = i + 1 + body.length
    · exact fun hless => (hless _ _ hp).2 h3
    · exact ihText htext (by omega) (by omega)

theorem partner_before_unmatched {p : Program} {k l : Nat} (h : p.unmatched? = some k) (hl : l < k)
    (hc : p.get? l = some '[' ∨ p.get? l = some ']') : ¬ p.Partnerless l := by
  obtain ⟨hnone, -⟩ | ⟨before, c, rest, hb, he, hsome, -⟩ := p.unmatched?_cases
  · rw [hnone] at h
    cases h
  · rw [hsome] at h
    cases h
    have hholds := p.holds_toList
    rw [he, holds_append] at hholds
    exact not_partnerless_of_balanced hb hholds.1 (Nat.zero_le l) (by omega) hc

/-- A program with a bracket that has no partner is refused, for that bracket or an earlier one. -/
theorem unmatched?_le_of_partnerless {p : Program} {k : Nat} (h : p.Partnerless k)
    (hc : p.get? k = some '[' ∨ p.get? k = some ']') :
    ∃ l, p.unmatched? = some l ∧ l ≤ k ∧ (p.get? l = some '[' ∨ p.get? l = some ']') := by
  obtain ⟨-, hb⟩ | ⟨before, c, rest, hb, he, hsome, hbracket⟩ := p.unmatched?_cases
  · have hk : k < p.length := by rcases hc with hc | hc <;> exact lt_length_of_get? hc
    rw [← length_toList] at hk
    exact absurd h (not_partnerless_of_balanced hb p.holds_toList (Nat.zero_le k) (by omega) hc)
  · refine ⟨before.length, hsome, ?_, ?_⟩
    · by_cases hlt : k < before.length
      · exact absurd h (partner_before_unmatched hsome hlt hc)
      · omega
    · have hget : p.get? before.length = some c := by
        rw [get?_eq_toList, he]
        simp
      rw [hget]
      obtain rfl | ⟨rfl, -⟩ := hbracket
      · exact Or.inr rfl
      · exact Or.inl rfl

theorem unmatchedFault_of_bracket {p : Program} {k : Nat} (radius : Nat)
    (hc : p.get? k = some '[' ∨ p.get? k = some ']') :
    ∃ bracket excerpt, p.unmatchedFault k radius = .unmatched bracket (p.position k) excerpt := by
  obtain hc | hc := hc
  · exact ⟨.opening, p.excerpt k radius, by simp only [unmatchedFault, hc]⟩
  · exact ⟨.closing, p.excerpt k radius, by simp only [unmatchedFault, hc]⟩

/-! ## The leftmost bracket without a partner -/

/-- The place holds a bracket, and the search for its partner leaves the program. -/
def SearchFails (p : Program) (index : Nat) : Prop :=
  (p.get? index = some '[' ∧ ∃ edge, p.closing index = .error edge) ∨
    (p.get? index = some ']' ∧ ∃ edge, p.opening index = .error edge)

theorem SearchFails.bracket {p : Program} {k : Nat} (h : p.SearchFails k) :
    p.get? k = some '[' ∨ p.get? k = some ']' := by
  obtain ⟨hc, -⟩ | ⟨hc, -⟩ := h
  · exact Or.inl hc
  · exact Or.inr hc

theorem SearchFails.partnerless {p : Program} {k : Nat} (h : p.SearchFails k) :
    p.Partnerless k := by
  obtain ⟨hc, edge, he⟩ | ⟨hc, edge, he⟩ := h
  · exact partnerless_of_closing hc he
  · exact partnerless_of_opening hc he

theorem forall_not_searchFails_iff (p : Program) :
    (∀ k, ¬ p.SearchFails k) ↔
      (∀ i, p.get? i = some '[' → ∃ j, p.closing i = .ok j) ∧
        ∀ j, p.get? j = some ']' → ∃ i, p.opening j = .ok i := by
  constructor
  · intro hnone
    constructor
    · intro i hi
      rcases h : p.closing i with edge | j
      · exact absurd (Or.inl ⟨hi, edge, h⟩) (hnone i)
      · exact ⟨j, rfl⟩
    · intro j hj
      rcases h : p.opening j with edge | i
      · exact absurd (Or.inr ⟨hj, edge, h⟩) (hnone j)
      · exact ⟨i, rfl⟩
  · rintro ⟨hclosing, hopening⟩ k (⟨hc, edge, he⟩ | ⟨hc, edge, he⟩)
    · obtain ⟨j, hj⟩ := hclosing k hc
      rw [hj] at he
      cases he
    · obtain ⟨i, hi⟩ := hopening k hc
      rw [hi] at he
      cases he

theorem scanRight_unclosed {p : Program} {text : List Char} (hu : Unclosed text) (i : Nat)
    (depth : Int) (hd : 0 < depth) (h : p.Holds i text) :
    p.scanRight text.length i depth = .error .afterEnd := by
  induction hu generalizing i depth with
  | @balanced text hb =>
    have hs := scanRight_balanced hb 0 i depth hd h
    rwa [Nat.zero_add] at hs
  | @opened before text hb _ ih =>
    obtain ⟨hbefore, hopen, htext⟩ := (p.holds_append _ _ _).mp h
    have e : (before ++ '[' :: text).length = text.length + 1 + before.length := by
      simp only [List.length_append, List.length_cons]
      omega
    have hne : depth + nesting '[' ≠ 0 := by
      rw [nesting_open]
      omega
    rw [e, scanRight_balanced hb (text.length + 1) i depth hd hbefore,
      scanRight_succ hopen text.length depth hne]
    exact ih _ (depth + 1) (by omega) htext

theorem searchFails_of_unmatched {p : Program} {k : Nat} (h : p.unmatched? = some k) :
    p.SearchFails k := by
  obtain ⟨hnone, -⟩ | ⟨before, c, rest, hb, he, hsome, hc⟩ := p.unmatched?_cases
  · rw [hnone] at h
    cases h
  · rw [hsome] at h
    cases h
    have hlen : p.length = before.length + (rest.length + 1) := by
      rw [← length_toList, he, List.length_append, List.length_cons]
    have hholds := p.holds_toList
    rw [he, holds_append, Nat.zero_add] at hholds
    obtain ⟨hbefore, hget, hrest⟩ := hholds
    obtain rfl | ⟨rfl, hu⟩ := hc
    · have hs := scanLeft_balanced hb 0 1 (by decide) hbefore
      rw [Nat.zero_add] at hs
      exact Or.inr ⟨hget, .beforeStart, (opening_of_close hget).trans hs⟩
    · have hs := scanRight_unclosed hu (before.length + 1) 1 (by decide) hrest
      have e : p.length - (before.length + 1) = rest.length := by omega
      rw [← e] at hs
      exact Or.inl ⟨hget, .afterEnd, (closing_of_open hget).trans hs⟩

theorem not_searchFails_of_unmatched?_eq_none {p : Program} (h : p.unmatched? = none) (k : Nat) :
    ¬ p.SearchFails k := by
  intro hk
  obtain ⟨l, hl, -, -⟩ := unmatched?_le_of_partnerless hk.partnerless hk.bracket
  rw [h] at hl
  cases hl

/-- The check and the searches agree. The check accepts a program exactly if every search from a
bracket succeeds. Otherwise it reports the leftmost bracket whose search fails, whichever bracket
that is, as a bracket without a partner. -/
theorem check_finds_leftmost (p : Program) (radius : Nat) :
    (p.check radius = .ok () ↔
      (∀ i, p.get? i = some '[' → ∃ j, p.closing i = .ok j) ∧
        ∀ j, p.get? j = some ']' → ∃ i, p.opening j = .ok i) ∧
    (p.check radius ≠ .ok () → ∃ k, p.SearchFails k ∧ (∀ l, l < k → ¬ p.SearchFails l) ∧
      p.check radius = .error (p.unmatchedFault k radius) ∧
      ∃ bracket position excerpt,
        p.unmatchedFault k radius = .unmatched bracket position excerpt) := by
  rw [← forall_not_searchFails_iff]
  cases hfound : p.unmatched? with
  | none =>
    have hok : p.check radius = .ok () := by rw [check, hfound]
    exact ⟨iff_of_true hok (not_searchFails_of_unmatched?_eq_none hfound), absurd hok⟩
  | some k =>
    have herror : p.check radius = .error (p.unmatchedFault k radius) := by rw [check, hfound]
    have hfails := searchFails_of_unmatched hfound
    have hleast : ∀ l, l < k → ¬ p.SearchFails l := fun l hl hl' =>
      partner_before_unmatched hfound hl hl'.bracket hl'.partnerless
    refine ⟨iff_of_false ?_ fun hnone => hnone k hfails, fun _ => ?_⟩
    · rw [herror]
      intro h
      cases h
    · obtain ⟨bracket, excerpt, hfault⟩ := unmatchedFault_of_bracket radius hfails.bracket
      exact ⟨k, hfails, hleast, herror, bracket, p.position k, excerpt, hfault⟩

theorem check_finds_leftmost_of_two_lost_brackets :
    let p := Program.ofString "[]]+[[]"
    p.check 2 ≠ .ok () ∧ ∃ k, p.SearchFails k ∧ (∀ l, l < k → ¬ p.SearchFails l) ∧
      p.check 2 = .error (p.unmatchedFault k 2) ∧ ∃ bracket position excerpt,
        p.unmatchedFault k 2 = .unmatched bracket position excerpt := by
  intro p
  have hne : p.check 2 ≠ .ok () := fun h => by cases h
  exact ⟨hne, (check_finds_leftmost p 2).2 hne⟩

end Program

end TapeLang
