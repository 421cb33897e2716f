import TapeLang.Proofs.Brackets.Check
import TapeLang.Proofs.Machine.Walk

/-! A newline after a program changes nothing that can be seen.

The newline is a comment. A run visits it before it ends, and a search to the right may pass it
before it leaves the program. The positions of the characters before it are counted from the start,
and a window shows it as it shows a place outside the program, so the faults of these characters stay
the same. Visits before the newline are the same (`visit_withNewline`), and walks to the end differ by
the one visit of the newline. -/
namespace TapeLang
set_option autoImplicit false

namespace Program

/-- A program with a newline after it. -/
def withNewline (p : Program) : Program :=
  ⟨p.chars.push '\n'⟩

theorem ofString_newline (source : String) :
    ofString (source ++ "\n") = (ofString source).withNewline := by
  simp [ofString, withNewline]

theorem toList_withNewline (p : Program) :
    p.withNewline.chars.toList = p.chars.toList ++ ['\n'] :=
  Array.toList_push

theorem length_withNewline (p : Program) : p.withNewline.length = p.length + 1 := by
  simp [withNewline, length]

theorem get?_withNewline {p : Program} {i : Nat} (h : i < p.length) :
    p.withNewline.get? i = p.get? i := by
  rw [← length_toList] at h
  rw [get?_eq_toList, toList_withNewline, List.getElem?_append_left h, get?_eq_toList]

theorem get?_withNewline_length (p : Program) : p.withNewline.get? p.length = some '\n' := by
  rw [get?_eq_toList, toList_withNewline, ← length_toList, List.getElem?_concat_length]

/-- A place is the same with the newline, or it is that of the newline. -/
theorem get?_withNewline_cases (p : Program) (i : Nat) :
    p.withNewline.get? i = p.get? i ∨ p.withNewline.get? i = some '\n' ∧ p.get? i = none := by
  obtain hlt | rfl | hgt := Nat.lt_trichotomy i p.length
  · exact Or.inl (get?_withNewline hlt)
  · refine Or.inr ⟨p.get?_withNewline_length, ?_⟩
    rw [← Option.not_isSome_iff_eq_none, get?_isSome_iff]
    omega
  · left
    have hnone : ∀ q : Program, q.length ≤ i → q.get? i = none := by
      intro q hq
      rw [← Option.not_isSome_iff_eq_none, get?_isSome_iff]
      omega
    rw [hnone p (by omega), hnone p.withNewline (by rw [length_withNewline]; omega)]

/-! ## Searches -/

theorem nestingAt_withNewline (p : Program) (i : Nat) :
    p.withNewline.nestingAt i = p.nestingAt i := by
  obtain h | ⟨hnewline, hnone⟩ := p.get?_withNewline_cases i
  · rw [nestingAt, h, nestingAt]
  · rw [nestingAt_of_get? hnewline, nestingAt, hnone]
    rfl

theorem scanLeft_withNewline (p : Program) (i : Nat) (depth : Int) :
    p.withNewline.scanLeft i depth = p.scanLeft i depth := by
  induction i generalizing depth with
  | zero => rfl
  | succ i ih => simp only [scanLeft, nestingAt_withNewline, ih]

theorem opening_withNewline (p : Program) (i : Nat) : p.withNewline.opening i = p.opening i :=
  p.scanLeft_withNewline (i + 1) 0

/-- A search that is under way passes the newline without a change. -/
theorem scanRight_withNewline (p : Program) (left i : Nat) (depth : Int) (hlen : i + left = p.length)
    (hd : depth ≠ 0) : p.withNewline.scanRight (left + 1) i depth = p.scanRight left i depth := by
  induction left generalizing i depth with
  | zero =>
    obtain rfl : i = p.length := hlen
    rw [scanRight_succ p.get?_withNewline_length 0 depth]
    · rfl
    · rwa [show nesting '\n' = 0 from rfl, Int.add_zero]
  | succ left ih =>
    have hlt : i < p.length := by omega
    obtain ⟨c, hc⟩ := exists_get? hlt
    have hc' := (get?_withNewline hlt).trans hc
    by_cases hz : depth + nesting c = 0
    · simp only [scanRight, nestingAt_of_get? hc, nestingAt_of_get? hc', if_pos hz]
    · rw [scanRight_succ hc' (left + 1) depth hz, scanRight_succ hc left depth hz]
      exact ih (i + 1) _ (by omega) hz

theorem closing_withNewline {p : Program} {i : Nat} (h : p.get? i = some '[') :
    p.withNewline.closing i = p.closing i := by
  have hlt := lt_length_of_get? h
  have e : p.withNewline.length - (i + 1) = p.length - (i + 1) + 1 := by
    rw [length_withNewline]
    omega
  rw [closing_of_open ((get?_withNewline hlt).trans h), closing_of_open h, e]
  exact p.scanRight_withNewline _ (i + 1) 1 (by omega) (by decide)

/-! ## Faults -/

theorem shown_withNewline (p : Program) (i : Int) : p.withNewline.shown i = p.shown i := by
  cases i with
  | negSucc i => rfl
  | ofNat i =>
    obtain h | ⟨hnewline, hnone⟩ := p.get?_withNewline_cases i
    · simp only [shown, h]
    · simp only [shown, hnewline, hnone]
      rfl

theorem excerpt_withNewline (p : Program) (i radius : Nat) :
    p.withNewline.excerpt i radius = p.excerpt i radius := by
  have h : p.withNewline.shown = p.shown := funext p.shown_withNewline
  simp only [excerpt, h]

theorem position_withNewline {p : Program} {i : Nat} (h : i < p.length) :
    p.withNewline.position i = p.position i := by
  have hlist : i < p.chars.toList.length := by rwa [length_toList]
  have e : min i (p.withNewline.length - 1) = i := by
    rw [length_withNewline]
    omega
  have e' : min i (p.length - 1) = i := by omega
  rw [position, position, e, e', toList_withNewline, List.take_append_of_le_length (by omega),
    List.take_append_of_le_length (by omega)]

theorem unmatchedFault_withNewline {p : Program} {i : Nat} (h : i < p.length) (radius : Nat) :
    p.withNewline.unmatchedFault i radius = p.unmatchedFault i radius := by
  rw [unmatchedFault, get?_withNewline h, position_withNewline h, excerpt_withNewline, unmatchedFault]

theorem leap_withNewline {p : Program} {i : Nat} (h : i < p.length) (radius : Nat)
    (partner : Except Edge Nat) : p.withNewline.leap radius i partner = p.leap radius i partner := by
  cases partner with
  | ok j => rfl
  | error edge => rw [leap, unmatchedFault_withNewline h, leap]

/-! ## The check -/

theorem unmatchedFrom_newline (text : List Char) (i : Nat) (opened : List Nat) :
    unmatchedFrom (text ++ ['\n']) i opened = unmatchedFrom text i opened := by
  induction text generalizing i opened with
  | nil => cases opened <;> rfl
  | cons c text ih =>
    rw [List.cons_append]
    by_cases hopen : c = '['
    · rw [hopen, unmatchedFrom_open, unmatchedFrom_open, ih]
    by_cases hclose : c = ']'
    · subst hclose
      cases opened with
      | nil => rfl
      | cons k opened => rw [unmatchedFrom_close, unmatchedFrom_close, ih]
    · rw [unmatchedFrom_other hopen hclose, unmatchedFrom_other hopen hclose, ih]

theorem check_withNewline (p : Program) (radius : Nat) :
    p.withNewline.check radius = p.check radius := by
  have hfound : p.withNewline.unmatched? = p.unmatched? := by
    rw [unmatched?, toList_withNewline, unmatchedFrom_newline, unmatched?]
  rw [check, check, hfound]
  cases h : p.unmatched? with
  | none => rfl
  | some k =>
    have hk : k < p.length := by
      obtain hc | hc := (searchFails_of_unmatched h).bracket <;> exact lt_length_of_get? hc
    simp only [unmatchedFault_withNewline hk]

/-! ## Walks -/

variable {η : Type} [Host η]

theorem visit_withNewline {p : Program} {k : Nat} (h : k < p.length) (radius : Nat) (c : Config η) :
    p.withNewline.visit radius k c = p.visit radius k c := by
  obtain ⟨ch, hc⟩ := exists_get? h
  have hc' := (get?_withNewline h).trans hc
  cases ht : Token.ofChar ch with
  | comment => rw [visit_comment hc' ht, visit_comment hc ht]
  | action a => rw [visit_action hc' ht, visit_action hc ht]
  | bracket b =>
    cases b with
    | opening =>
      obtain rfl := Token.eq_open_of_ofChar ht
      rw [visit_open hc', visit_open hc, closing_withNewline hc, leap_withNewline h]
    | closing =>
      obtain rfl := Token.eq_close_of_ofChar ht
      rw [visit_close hc', visit_close hc, opening_withNewline, leap_withNewline h]

theorem visit_newline (p : Program) (radius : Nat) (c : Config η) :
    p.withNewline.visit radius p.length c = (.ok p.withNewline.length, c) := by
  rw [visit_comment p.get?_withNewline_length rfl, length_withNewline]

theorem Walk.withNewline {p : Program} {radius n k : Nat} {c c' : Config η} {r : Except Fault Unit}
    (h : p.Walk radius n k c (r.map fun _ => p.length, c')) :
    ∃ n', p.withNewline.Walk radius n' k c (r.map fun _ => p.withNewline.length, c') := by
  have hlen := p.length_withNewline
  generalize ho : (r.map (fun _ => p.length), c') = o at h
  induction h with
  | stay k c =>
    cases r with
    | error f => cases ho
    | ok u =>
      cases ho
      have hend : p.length < p.withNewline.length := by omega
      exact ⟨1, Walk.single hend (p.visit_newline radius c')⟩
  | fault hk hv =>
    cases r with
    | ok u => cases ho
    | error f =>
      cases ho
      exact ⟨1, Walk.fault (by omega) ((visit_withNewline hk radius _).trans hv)⟩
  | next hk hv _ ih =>
    obtain ⟨n', hw⟩ := ih ho
    exact ⟨n' + 1, Walk.next (by omega) ((visit_withNewline hk radius _).trans hv) hw⟩

theorem Walk.of_withNewline {p : Program} {radius n k : Nat} {c c' : Config η}
    {r : Except Fault Unit} (hk : k ≤ p.length)
    (h : p.withNewline.Walk radius n k c (r.map fun _ => p.withNewline.length, c')) :
    ∃ n', p.Walk radius n' k c (r.map fun _ => p.length, c') := by
  have hlen := p.length_withNewline
  -- the walk stands in the program, or on the newline, which is its last visit
  generalize ho : (r.map (fun _ => p.withNewline.length), c') = o at h
  induction h with
  | stay k c =>
    cases r with
    | error f => cases ho
    | ok u =>
      cases ho
      have hend : p.withNewline.length ≤ p.length := hk
      omega
  | @fault k c c₁ f _ hv =>
    obtain hlt | rfl := Nat.lt_or_eq_of_le hk
    · rw [visit_withNewline hlt] at hv
      cases r with
      | ok u => cases ho
      | error f =>
        cases ho
        exact ⟨1, Walk.fault hlt hv⟩
    · rw [visit_newline] at hv
      cases hv
  | @next n k k₁ c c₁ o _ hv rest ih =>
    obtain hlt | rfl := Nat.lt_or_eq_of_le hk
    · rw [visit_withNewline hlt] at hv
      obtain ⟨n', hw⟩ := ih (visit_le hlt hv) ho
      exact ⟨n' + 1, Walk.next hlt hv hw⟩
    · rw [visit_newline] at hv
      cases hv
      rw [← ho] at rest
      obtain ⟨rfl, rfl⟩ := rest.ok_of_end (Nat.le_refl _)
      exact ⟨0, Walk.stay _ _⟩

end Program

/-! ## Runs -/

/-- A source with and without a newline after it ends with the same result and the same host. -/
theorem Machine.executes_newline {η : Type} [Host η] (m : Machine η) (source : String)
    (r : Except Fault Unit) (host : η) :
    (∃ m', m.Executes (source ++ "\n") (r, m') ∧ m'.host = host) ↔
      ∃ m', m.Executes source (r, m') ∧ m'.host = host := by
  have hs := m.stands_load source
  have hs' := m.stands_load (source ++ "\n")
  rw [Program.ofString_newline] at hs'
  constructor
  · intro h
    obtain ⟨n, result, c, hw, hset⟩ := (hs'.runs_iff_walk r host).mp h
    obtain ⟨n', hw'⟩ := Program.Walk.of_withNewline (Nat.zero_le _) hw
    exact (hs.runs_iff_walk r host).mpr ⟨n', result, c, hw', hset⟩
  · intro h
    obtain ⟨n, result, c, hw, hset⟩ := (hs.runs_iff_walk r host).mp h
    obtain ⟨n', hw'⟩ := hw.withNewline
    exact (hs'.runs_iff_walk r host).mpr ⟨n', result, c, hw', hset⟩

end TapeLang
