import TapeLang.Host.Buffer
import TapeLang.Host.LineScript
import TapeLang.Proofs.Machine.Walk
import TapeLang.Shorthand

/-! Comments do not matter: a program and the program without its comments run alike.

`Program.rank p k` counts the instructions before index `k`, and so is the place in the stripped
program that corresponds to place `k`. A visit of a comment has no counterpart, and all other visits
correspond (`visit_stripped`), the bracket searches included (`scanRight_stripped`,
`scanLeft_stripped`). A place may be followed by any number of comments, which a walk passes without
changing anything (`exists_walk_to_instruction`), so each walk of one program has a walk of the other.
Only the place that a bracket without a partner is reported at differs, and it is moved by `rank`. -/
namespace TapeLang
set_option autoImplicit false

/-! ## Results up to a change of places -/

/-- The same fault, except that the place of a bracket is moved and its excerpt may differ. -/
def Fault.Relocated (move : Nat → Nat) : Fault → Fault → Prop
  | .unmatched bracket position _, .unmatched bracket' position' _ =>
    bracket' = bracket ∧ position'.offset = move position.offset
  | fault, fault' => fault' = fault

/-- Two results that are both a success with related values, or both a fault up to its place. -/
def Alike {α β : Type} (related : α → β → Prop) (move : Nat → Nat) :
    Except Fault α → Except Fault β → Prop
  | .ok a, .ok b => related a b
  | .error fault, .error fault' => fault.Relocated move fault'
  | _, _ => False

theorem Fault.relocated_of_not_bracket {move : Nat → Nat} {fault : Fault}
    (h : fault = .output ∨ fault = .input) : fault.Relocated move fault := by
  obtain rfl | rfl := h <;> rfl

/-! ## The stripped program -/

def isInstruction (c : Char) : Bool :=
  (Instruction.ofChar? c).isSome

namespace Program

def stripped (p : Program) : Program :=
  ⟨(p.chars.toList.filter isInstruction).toArray⟩

/-- The number of instructions before an index. -/
def rank (p : Program) (index : Nat) : Nat :=
  (p.chars.toList.take index).countP isInstruction

theorem toList_stripped (p : Program) :
    p.stripped.chars.toList = p.chars.toList.filter isInstruction := rfl

theorem rank_succ {p : Program} {k : Nat} {ch : Char} (h : p.get? k = some ch) :
    p.rank (k + 1) = p.rank k + if isInstruction ch then 1 else 0 := by
  rw [rank, toList_eq_of_get? h, List.countP_append, List.countP_singleton, rank]

theorem rank_succ_of_instruction {p : Program} {k : Nat} {ch : Char} (h : p.get? k = some ch)
    (hi : isInstruction ch = true) : p.rank (k + 1) = p.rank k + 1 := by
  rw [rank_succ h, if_pos hi]

theorem rank_succ_of_comment {p : Program} {k : Nat} {ch : Char} (h : p.get? k = some ch)
    (hi : isInstruction ch = false) : p.rank (k + 1) = p.rank k := by
  rw [rank_succ h, hi, if_neg Bool.false_ne_true, Nat.add_zero]

theorem rank_length (p : Program) : p.rank p.length = p.stripped.length := by
  rw [rank, ← length_toList, List.take_length, ← length_toList, toList_stripped,
    List.countP_eq_length_filter]

theorem get?_rank {p : Program} {k : Nat} {ch : Char} (h : p.get? k = some ch)
    (hi : isInstruction ch = true) : p.stripped.get? (p.rank k) = some ch := by
  rw [get?_eq_toList, toList_stripped, rank]
  exact getElem?_filter_of_get? h hi

theorem rank_lt_of_instruction {p : Program} {k : Nat} {ch : Char} (h : p.get? k = some ch)
    (hi : isInstruction ch = true) : p.rank k < p.stripped.length :=
  lt_length_of_get? (get?_rank h hi)

/-! ## The bracket searches -/

theorem nesting_of_comment {ch : Char} (hi : isInstruction ch = false) : nesting ch = 0 := by
  apply nesting_of_ne
  · rintro rfl
    cases hi
  · rintro rfl
    cases hi

/-- The search to the right in both programs, from places that correspond. The search is under way,
or starts at an instruction. -/
theorem scanRight_stripped (p : Program) (left k : Nat) (depth : Int) (hk : k + left = p.length)
    (hd : depth ≠ 0 ∨ ∃ ch, p.get? k = some ch ∧ isInstruction ch = true) :
    (p.scanRight left k depth).map (fun j => p.rank (j + 1)) =
      (p.stripped.scanRight (p.stripped.length - p.rank k) (p.rank k) depth).map (· + 1) := by
  induction left generalizing k depth with
  | zero =>
    obtain rfl : k = p.length := by omega
    rw [rank_length, Nat.sub_self]
    rfl
  | succ left ih =>
    have hlt : k < p.length := by omega
    obtain ⟨ch, hc⟩ := exists_get? hlt
    cases hi : isInstruction ch with
    | false =>
      have hdepth : depth ≠ 0 := by
        obtain hd | ⟨ch', hc', hi'⟩ := hd
        · exact hd
        · rw [hc] at hc'
          cases hc'
          rw [hi] at hi'
          cases hi'
      have hn := nesting_of_comment hi
      rw [scanRight_succ hc left depth (by omega), hn, Int.add_zero,
        ih (k + 1) depth (by omega) (Or.inl hdepth), rank_succ_of_comment hc hi]
    | true =>
      have hr := rank_succ_of_instruction hc hi
      have hrank := rank_lt_of_instruction hc hi
      obtain ⟨left', hleft'⟩ : ∃ left', p.stripped.length - p.rank k = left' + 1 :=
        ⟨p.stripped.length - p.rank (k + 1), by omega⟩
      have e : left' = p.stripped.length - p.rank (k + 1) := by omega
      rw [hleft']
      by_cases hz : depth + nesting ch = 0
      · simp only [scanRight, nestingAt_of_get? hc, nestingAt_of_get? (get?_rank hc hi), if_pos hz,
          Except.map, hr]
      · rw [scanRight_succ hc left depth hz, scanRight_succ (get?_rank hc hi) left' depth hz,
          ih (k + 1) _ (by omega) (Or.inl hz), e, hr]

theorem scanLeft_stripped (p : Program) (k : Nat) (depth : Int) (hk : k ≤ p.length)
    (hd : depth ≠ 0 ∨ ∃ l ch, k = l + 1 ∧ p.get? l = some ch ∧ isInstruction ch = true) :
    (p.scanLeft k depth).map (fun j => p.rank (j + 1)) =
      (p.stripped.scanLeft (p.rank k) depth).map (· + 1) := by
  induction k generalizing depth with
  | zero => rfl
  | succ k ih =>
    have hlt : k < p.length := by omega
    obtain ⟨ch, hc⟩ := exists_get? hlt
    cases hi : isInstruction ch with
    | false =>
      have hdepth : depth ≠ 0 := by
        obtain hd | ⟨l, ch', hl, hc', hi'⟩ := hd
        · exact hd
        · cases hl
          rw [hc] at hc'
          cases hc'
          rw [hi] at hi'
          cases hi'
      have hn := nesting_of_comment hi
      rw [scanLeft_succ hc depth (by omega), hn, Int.sub_zero, ih depth (by omega) (Or.inl hdepth),
        rank_succ_of_comment hc hi]
    | true =>
      have hr := rank_succ_of_instruction hc hi
      by_cases hz : depth - nesting ch = 0
      · simp only [hr, scanLeft, nestingAt_of_get? hc, nestingAt_of_get? (get?_rank hc hi), if_pos hz,
          Except.map]
      · rw [scanLeft_succ hc depth hz, hr, scanLeft_succ (get?_rank hc hi) depth hz,
          ih _ (by omega) (Or.inl hz)]

theorem closing_stripped {p : Program} {k : Nat} (h : p.get? k = some '[') :
    (p.closing k).map (fun j => p.rank (j + 1)) = (p.stripped.closing (p.rank k)).map (· + 1) :=
  p.scanRight_stripped _ k 0 (by have := lt_length_of_get? h; omega) (Or.inr ⟨'[', h, rfl⟩)

theorem opening_stripped {p : Program} {k : Nat} (h : p.get? k = some ']') :
    (p.opening k).map (fun j => p.rank (j + 1)) = (p.stripped.opening (p.rank k)).map (· + 1) := by
  have hs := p.scanLeft_stripped (k + 1) 0 (lt_length_of_get? h) (Or.inr ⟨k, ']', rfl, h, rfl⟩)
  rwa [rank_succ_of_instruction h rfl] at hs

theorem unmatchedFault_stripped {p : Program} {k : Nat} {ch : Char} (h : p.get? k = some ch)
    (hb : ch = '[' ∨ ch = ']') (radius : Nat) :
    (p.unmatchedFault k radius).Relocated p.rank (p.stripped.unmatchedFault (p.rank k) radius) := by
  obtain rfl | rfl := hb
  · simp only [unmatchedFault, h, get?_rank h rfl]
    exact ⟨rfl, rfl⟩
  · simp only [unmatchedFault, h, get?_rank h rfl]
    exact ⟨rfl, rfl⟩

theorem leap_stripped {p : Program} {k : Nat} {ch : Char} (h : p.get? k = some ch)
    (hb : ch = '[' ∨ ch = ']') (radius : Nat) {partner partner' : Except Edge Nat}
    (hp : partner.map (fun j => p.rank (j + 1)) = partner'.map (· + 1)) :
    Alike (fun j j' => j' = p.rank j) p.rank (p.leap radius k partner)
      (p.stripped.leap radius (p.rank k) partner') := by
  cases partner with
  | ok j =>
    cases partner' with
    | ok j' => exact (Except.ok.inj hp).symm
    | error edge' => cases hp
  | error edge =>
    cases partner' with
    | ok j' => cases hp
    | error edge' => exact unmatchedFault_stripped h hb radius

/-! ## Visits and walks -/

variable {η : Type} [Host η]

/-- At an instruction, both programs do the same. -/
theorem visit_stripped {p : Program} {k : Nat} {ch : Char} (h : p.get? k = some ch)
    (hi : isInstruction ch = true) (radius : Nat) (c : Config η) :
    Alike (fun j j' => j' = p.rank j) p.rank (p.visit radius k c).1
        (p.stripped.visit radius (p.rank k) c).1 ∧
      (p.stripped.visit radius (p.rank k) c).2 = (p.visit radius k c).2 := by
  have h' := get?_rank h hi
  have hr := rank_succ_of_instruction h hi
  cases ht : Token.ofChar ch with
  | comment =>
    have hnone := Token.ofChar_eq_comment ht
    rw [isInstruction, hnone] at hi
    cases hi
  | action a =>
    rw [visit_action h ht, visit_action h' ht]
    rcases ha : Action.perform c a with ⟨fault | _, c'⟩
    · exact ⟨Fault.relocated_of_not_bracket (Action.fault_of_perform ha), rfl⟩
    · exact ⟨hr.symm, rfl⟩
  | bracket b =>
    cases b with
    | opening =>
      obtain rfl := Token.eq_open_of_ofChar ht
      rw [visit_open h, visit_open h']
      refine ⟨?_, rfl⟩
      by_cases hz : c.cell = 0
      · rw [if_pos hz, if_pos hz]
        exact leap_stripped h (Or.inl rfl) radius (closing_stripped h)
      · rw [if_neg hz, if_neg hz]
        exact hr.symm
    | closing =>
      obtain rfl := Token.eq_close_of_ofChar ht
      rw [visit_close h, visit_close h']
      refine ⟨?_, rfl⟩
      by_cases hz : c.cell = 0
      · rw [if_pos hz, if_pos hz]
        exact hr.symm
      · rw [if_neg hz, if_neg hz]
        exact leap_stripped h (Or.inr rfl) radius (opening_stripped h)

theorem visit_stripped_ok {p : Program} {radius k k₁ : Nat} {ch : Char} {c c₁ : Config η}
    (h : p.get? k = some ch) (hi : isInstruction ch = true)
    (hv : p.visit radius k c = (.ok k₁, c₁)) :
    p.stripped.visit radius (p.rank k) c = (.ok (p.rank k₁), c₁) := by
  obtain ⟨ha, hc⟩ := visit_stripped h hi radius c
  rw [hv] at ha hc
  rcases hv' : p.stripped.visit radius (p.rank k) c with ⟨f | j, c₂⟩
  · rw [hv'] at ha
    exact ha.elim
  · rw [hv'] at ha hc
    obtain rfl : c₂ = c₁ := hc
    obtain rfl : j = p.rank k₁ := ha
    rfl

theorem visit_stripped_error {p : Program} {radius k : Nat} {ch : Char} {c c₁ : Config η} {f : Fault}
    (h : p.get? k = some ch) (hi : isInstruction ch = true)
    (hv : p.visit radius k c = (.error f, c₁)) :
    ∃ f', p.stripped.visit radius (p.rank k) c = (.error f', c₁) ∧ f.Relocated p.rank f' := by
  obtain ⟨ha, hc⟩ := visit_stripped h hi radius c
  rw [hv] at ha hc
  rcases hv' : p.stripped.visit radius (p.rank k) c with ⟨f' | j, c₂⟩
  · rw [hv'] at ha hc
    obtain rfl : c₂ = c₁ := hc
    exact ⟨f', rfl, ha⟩
  · rw [hv'] at ha
    exact ha.elim

theorem token_of_not_instruction {ch : Char} (hi : isInstruction ch = false) :
    Token.ofChar ch = .comment := by
  rw [isInstruction, Option.isSome_eq_false_iff, Option.isNone_iff_eq_none] at hi
  rw [Token.ofChar, hi]

/-- A walk passes the comments at a place without a change. -/
theorem exists_walk_to_instruction (p : Program) (radius : Nat) (c : Config η) (k : Nat)
    (hk : k ≤ p.length) :
    ∃ n k', p.Walk radius n k c (.ok k', c) ∧ p.rank k' = p.rank k ∧
      (k' = p.length ∨ ∃ ch, p.get? k' = some ch ∧ isInstruction ch = true) := by
  induction hd : p.length - k generalizing k with
  | zero => exact ⟨0, k, Walk.stay k c, rfl, Or.inl (by omega)⟩
  | succ d ih =>
    have hlt : k < p.length := by omega
    obtain ⟨ch, hc⟩ := exists_get? hlt
    cases hi : isInstruction ch with
    | true => exact ⟨0, k, Walk.stay k c, rfl, Or.inr ⟨ch, hc, hi⟩⟩
    | false =>
      obtain ⟨n, k', hw, hr, hend⟩ := ih (k + 1) hlt (by omega)
      have hv := visit_comment hc (token_of_not_instruction hi) radius c
      exact ⟨n + 1, k', Walk.next hlt hv hw, hr.trans (rank_succ_of_comment hc hi), hend⟩

/-- A walk to the end of a program has a walk to the end of the stripped program. -/
theorem Walk.stripped {p : Program} {radius n k : Nat} {c c' : Config η} {r : Except Fault Unit}
    (h : p.Walk radius n k c (r.map fun _ => p.length, c')) :
    ∃ (n' : Nat) (r' : Except Fault Unit),
      p.stripped.Walk radius n' (p.rank k) c (r'.map fun _ => p.stripped.length, c') ∧
        Alike Eq p.rank r r' := by
  generalize ho : (r.map (fun _ => p.length), c') = o at h
  induction h with
  | stay k c =>
    cases r with
    | error f => cases ho
    | ok u =>
      cases ho
      rw [rank_length]
      exact ⟨0, .ok (), Walk.stay _ c', rfl⟩
  | @fault k c c₁ f hk hv =>
    cases r with
    | ok u => cases ho
    | error f =>
      cases ho
      obtain ⟨ch, hc⟩ := exists_get? hk
      cases hi : isInstruction ch with
      | false =>
        rw [visit_comment hc (token_of_not_instruction hi)] at hv
        cases hv
      | true =>
        obtain ⟨f', hv', hf'⟩ := visit_stripped_error hc hi hv
        exact ⟨1, .error f', Walk.fault (rank_lt_of_instruction hc hi) hv', hf'⟩
  | @next n k k₁ c c₁ o hk hv _ ih =>
    obtain ⟨n', r', hw', hr'⟩ := ih ho
    obtain ⟨ch, hc⟩ := exists_get? hk
    cases hi : isInstruction ch with
    | false =>
      rw [visit_comment hc (token_of_not_instruction hi)] at hv
      cases hv
      rw [rank_succ_of_comment hc hi] at hw'
      exact ⟨n', r', hw', hr'⟩
    | true =>
      have hv' := visit_stripped_ok hc hi hv
      exact ⟨n' + 1, r', Walk.next (rank_lt_of_instruction hc hi) hv' hw', hr'⟩

/-- A walk to the end of the stripped program has a walk to the end of the program, which passes the
comments before each instruction first. -/
theorem Walk.of_stripped {p : Program} {radius n' k : Nat} {c c' : Config η}
    {r' : Except Fault Unit} (hk : k ≤ p.length)
    (h : p.stripped.Walk radius n' (p.rank k) c (r'.map fun _ => p.stripped.length, c')) :
    ∃ (n : Nat) (r : Except Fault Unit), p.Walk radius n k c (r.map fun _ => p.length, c') ∧
      Alike Eq p.rank r r' := by
  -- the place is any that corresponds, so comments are passed before each visit
  generalize hq : p.rank k = q at h
  generalize ho : (r'.map (fun _ => p.stripped.length), c') = o at h
  induction h generalizing k with
  | stay q c =>
    cases r' with
    | error f => cases ho
    | ok u =>
      cases ho
      obtain ⟨n, k₂, hw, hr, rfl | ⟨ch, hc, hi⟩⟩ := exists_walk_to_instruction p radius c' k hk
      · exact ⟨n, .ok (), hw, rfl⟩
      · have hlt := rank_lt_of_instruction hc hi
        have hend : p.rank k = p.stripped.length := hq
        omega
  | @fault q c c₁ f hlt hv =>
    cases r' with
    | ok u => cases ho
    | error f =>
      cases ho
      obtain ⟨n, k₂, hw, hr, rfl | ⟨ch, hc, hi⟩⟩ := exists_walk_to_instruction p radius c k hk
      · rw [rank_length] at hr
        omega
      · obtain rfl : q = p.rank k₂ := by omega
        rcases hv₂ : p.visit radius k₂ c with ⟨f₂ | k₃, c₂⟩
        · obtain ⟨f', hv', hf'⟩ := visit_stripped_error hc hi hv₂
          rw [hv] at hv'
          cases hv'
          exact ⟨n + 1, .error f₂, hw.trans (Walk.fault (lt_length_of_get? hc) hv₂), hf'⟩
        · rw [visit_stripped_ok hc hi hv₂] at hv
          cases hv
  | @next n' q q₁ c c₁ o hlt hv _ ih =>
    obtain ⟨n, k₂, hw, hr, rfl | ⟨ch, hc, hi⟩⟩ := exists_walk_to_instruction p radius c k hk
    · rw [rank_length] at hr
      omega
    · obtain rfl : q = p.rank k₂ := by omega
      have hk₂ := lt_length_of_get? hc
      rcases hv₂ : p.visit radius k₂ c with ⟨f₂ | k₃, c₂⟩
      · obtain ⟨f', hv', -⟩ := visit_stripped_error hc hi hv₂
        rw [hv] at hv'
        cases hv'
      · rw [visit_stripped_ok hc hi hv₂] at hv
        cases hv
        obtain ⟨n₂, r, hw₂, hr₂⟩ := ih (visit_le hk₂ hv₂) rfl ho
        exact ⟨n + (n₂ + 1), r, hw.trans (Walk.next hk₂ hv₂ hw₂), hr₂⟩

end Program

/-! ## Expansion without digits -/

theorem Expander.foldl_feed_output (text : List Char) (h : ∀ ch ∈ text, ch.isDigit = false)
    (e : Expander) :
    (text.foldl Expander.feed e).output.toList = e.output.toList ++ text.filter isInstruction := by
  induction text generalizing e with
  | nil => simp
  | cons ch text ih =>
    have hd : ch.isDigit = false := h ch List.mem_cons_self
    rw [List.foldl_cons, ih fun c hc => h c (List.mem_cons_of_mem ch hc)]
    cases hi : Instruction.ofChar? ch with
    | none =>
      have hfeed : e.feed ch = e := by simp [Expander.feed, hi, Shorthand.repeats?, hd]
      simp [hfeed, isInstruction, hi]
    | some i =>
      have hch : i.toChar = ch := Instruction.toChar_of_ofChar? hi
      simp [Expander.feed, hi, isInstruction, hch]

theorem ofString_expand {source : String} (h : ∀ ch ∈ source.toList, ch.isDigit = false) :
    Program.ofString (expand source) = (Program.ofString source).stripped := by
  have hexp : (expand source).toList = source.toList.filter isInstruction := by
    rw [expand, Expander.run, Expander.foldl_feed_output _ h]
    rfl
  rw [Program.ofString, hexp]
  rfl

/-! ## Runs -/

variable {η : Type} [Host η]

theorem alike_settle {move : Nat → Nat} {r r' : Except Fault Unit}
    (h : Alike Eq move r r') (host : η) :
    Alike Eq move (Machine.settle host r).1 (Machine.settle host r').1 ∧
      (Machine.settle host r').2 = (Machine.settle host r).2 := by
  obtain f | _ := r <;> rcases r' with f' | _
  · exact ⟨h, rfl⟩
  · exact h.elim
  · exact h.elim
  · refine ⟨?_, rfl⟩
    simp only [Machine.settle]
    split
    · exact (rfl : () = ())
    · exact @Fault.relocated_of_not_bracket move .output (Or.inl rfl)

namespace Machine

/-- A source without digits and its expansion run alike: one run comes to an end exactly if the other
does, and then the devices end alike, with the same calls made to them, and the result is the same. A
bracket without a partner is the same bracket, reported at the number of instructions before it. -/
theorem executes_expand {ω ι : Type} [Sink ω] [Source ι] (m : Machine (Devices ω ι))
    (source : String) (h : ∀ ch ∈ source.toList, ch.isDigit = false) :
    (∀ r m₁, m.Executes source (r, m₁) → ∃ r' m₂, m.Executes (expand source) (r', m₂) ∧
        m₂.host = m₁.host ∧
        Alike Eq (fun k => (source.toList.take k).countP isInstruction) r r') ∧
      ∀ r' m₂, m.Executes (expand source) (r', m₂) → ∃ r m₁, m.Executes source (r, m₁) ∧
        m₂.host = m₁.host ∧
        Alike Eq (fun k => (source.toList.take k).countP isInstruction) r r' := by
  have hs := m.stands_load source
  have hs' := m.stands_load (expand source)
  rw [ofString_expand h] at hs'
  constructor
  · intro r m₁ hr
    obtain ⟨n, r₀, c, hw, hset⟩ := (hs.runs_iff_walk r m₁.host).mp ⟨m₁, hr, rfl⟩
    obtain ⟨n', r₀', hw', ha⟩ := hw.stripped
    obtain ⟨ha', hhost⟩ := alike_settle ha c.host
    rw [hset] at ha' hhost
    obtain ⟨m₂, hr', hm₂⟩ := (hs'.runs_iff_walk _ _).mpr ⟨n', r₀', c, hw', rfl⟩
    exact ⟨_, m₂, hr', hm₂.trans hhost, ha'⟩
  · intro r' m₂ hr'
    obtain ⟨n', r₀', c, hw', hset⟩ := (hs'.runs_iff_walk r' m₂.host).mp ⟨m₂, hr', rfl⟩
    obtain ⟨n, r₀, hw, ha⟩ := Program.Walk.of_stripped (Nat.zero_le _) hw'
    obtain ⟨ha', hhost⟩ := alike_settle ha c.host
    rw [hset] at ha' hhost
    obtain ⟨m₁, hr, hm₁⟩ := (hs.runs_iff_walk _ _).mpr ⟨n, r₀, c, hw, rfl⟩
    exact ⟨_, m₁, hr, hhost.trans hm₁.symm, ha'⟩

theorem executes_expand_of_stray_bracket :
    (∀ ch ∈ "a +. stray ]".toList, ch.isDigit = false) ∧
      ∃ (position : Position) (excerpt : Excerpt) (m : Machine (Devices Buffer LineScript)),
        ({ host := { output := some {} } } : Machine (Devices Buffer LineScript)).Executes
          (expand "a +. stray ]") (.error (.unmatched .closing position excerpt), m) ∧
        position.offset = 2 ∧ m.host.calls = #[.write 1 true, .flush true] := by
  have h : ∀ ch ∈ "a +. stray ]".toList, ch.isDigit = false := by simp
  let m : Machine (Devices Buffer LineScript) := { host := { output := some {} } }
  obtain ⟨r', m₂, hr, hhost, ha⟩ := (executes_expand m "a +. stray ]" h).1 _ _ ⟨20, rfl⟩
  obtain fault | _ := r'
  · cases fault with
    | unmatched bracket position excerpt =>
      obtain ⟨rfl, hoffset⟩ := ha
      exact ⟨h, position, excerpt, m₂, hr, hoffset, hhost ▸ rfl⟩
    | _ => cases ha
  · exact ha.elim

end Machine

end TapeLang
