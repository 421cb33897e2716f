import TapeLang.Proofs.Brackets.Check
import TapeLang.Proofs.Brackets.Search
import TapeLang.Proofs.Comments

/-! Programs inside longer programs.

`Embeds q p a` says that `q` stands in `p` from index `a` on and that its brackets find the same
partners there, or none. It holds of both parts of a text whose first part is balanced: a bracket of
the first part has its partner there, and so cannot be the partner of a bracket of the second part
(`embeds_left`, `embeds_right`). -/
namespace TapeLang.Program
set_option autoImplicit false

variable {p q : Program} {a i j k : Nat}

/-! ## Partners that are moved -/

theorem Holds.moved (hget : ∀ k, k < q.length → p.get? (a + k) = q.get? k) {text : List Char}
    (h : q.Holds i text) : p.Holds (a + i) text := by
  induction text generalizing i with
  | nil => exact True.intro
  | cons c text ih => exact ⟨(hget i (lt_length_of_get? h.1)).trans h.1, ih h.2⟩

theorem Holds.of_moved (hget : ∀ k, k < q.length → p.get? (a + k) = q.get? k)
    (hlen : a + q.length = p.length) {text : List Char} (h : p.Holds (a + i) text) :
    q.Holds i text := by
  induction text generalizing i with
  | nil => exact True.intro
  | cons c text ih =>
    have hi : i < q.length := by
      have := lt_length_of_get? h.1
      omega
    exact ⟨(hget i hi).symm.trans h.1, ih h.2⟩

theorem Partners.moved (hget : ∀ k, k < q.length → p.get? (a + k) = q.get? k)
    (h : q.Partners i j) : p.Partners (a + i) (a + j) := by
  obtain ⟨body, hb, rfl, hloop⟩ := h
  exact ⟨body, hb, by omega, hloop.moved hget⟩

theorem Partners.of_moved (hget : ∀ k, k < q.length → p.get? (a + k) = q.get? k)
    (hlen : a + q.length = p.length) (h : p.Partners (a + i) (a + j)) : q.Partners i j := by
  obtain ⟨body, hb, hj, hloop⟩ := h
  exact ⟨body, hb, by omega, hloop.of_moved hget hlen⟩

theorem exists_closing_of_balanced (hb : Balanced p.chars.toList) (hi : p.get? i = some '[') :
    ∃ j, p.Partners i j := by
  have hlt := lt_length_of_get? hi
  rw [← length_toList] at hlt
  have hpartner := not_partnerless_of_balanced hb p.holds_toList (Nat.zero_le i) (by omega)
    (Or.inl hi)
  apply Classical.byContradiction
  intro hnone
  apply hpartner
  intro l j hp
  constructor
  · rintro rfl
    exact hnone ⟨j, hp⟩
  · rintro rfl
    rw [hp.bounds.2.2] at hi
    cases hi

theorem exists_opening_of_balanced (hb : Balanced p.chars.toList) (hj : p.get? j = some ']') :
    ∃ i, p.Partners i j := by
  have hlt := lt_length_of_get? hj
  rw [← length_toList] at hlt
  have hpartner := not_partnerless_of_balanced hb p.holds_toList (Nat.zero_le j) (by omega)
    (Or.inr hj)
  apply Classical.byContradiction
  intro hnone
  apply hpartner
  intro i l hp
  constructor
  · rintro rfl
    rw [hp.bounds.2.1] at hj
    cases hj
  · rintro rfl
    exact hnone ⟨i, hp⟩

/-! ## Embeddings -/

/-- A program stands inside another from an index on, and the searches from its brackets end there as
they do in the program alone. -/
structure Embeds (q p : Program) (a : Nat) : Prop where
  length_le : a + q.length ≤ p.length
  get? : ∀ k, k < q.length → p.get? (a + k) = q.get? k
  closing : ∀ k, q.get? k = some '[' → p.closing (a + k) = (q.closing k).map (a + ·)
  opening : ∀ k, q.get? k = some ']' → p.opening (a + k) = (q.opening k).map (a + ·)

def append (p q : Program) : Program :=
  ⟨p.chars ++ q.chars⟩

theorem ofString_append (first second : String) :
    ofString (first ++ second) = (ofString first).append (ofString second) := by
  simp [ofString, append]

theorem length_append (p q : Program) : (p.append q).length = p.length + q.length := by
  simp [append, length]

theorem get?_append_left (h : k < p.length) (q : Program) : (p.append q).get? k = p.get? k := by
  simp only [Program.get?, append, length] at h ⊢
  exact Array.getElem?_append_left h

theorem get?_append_right (p q : Program) (k : Nat) :
    (p.append q).get? (p.length + k) = q.get? k := by
  simp only [Program.get?, append, length]
  rw [Array.getElem?_append_right (Nat.le_add_right _ _), Nat.add_sub_cancel_left]

theorem embeds_left (hb : Balanced p.chars.toList) (q : Program) : p.Embeds (p.append q) 0 := by
  have hget : ∀ k, k < p.length → (p.append q).get? (0 + k) = p.get? k := by
    intro k hk
    rw [Nat.zero_add, get?_append_left hk]
  refine ⟨?_, hget, ?_, ?_⟩
  · rw [length_append]
    omega
  · intro i hi
    obtain ⟨j, hp⟩ := exists_closing_of_balanced hb hi
    rw [closing_of_partners (hp.moved hget), closing_of_partners hp]
    rfl
  · intro j hj
    obtain ⟨i, hp⟩ := exists_opening_of_balanced hb hj
    rw [opening_of_partners (hp.moved hget), opening_of_partners hp]
    rfl

theorem embeds_right (hb : Balanced p.chars.toList) (q : Program) :
    q.Embeds (p.append q) p.length := by
  have hget : ∀ k, k < q.length → (p.append q).get? (p.length + k) = q.get? k :=
    fun k _ => get?_append_right p q k
  have hlen := length_append p q
  refine ⟨Nat.le_of_eq hlen.symm, hget, ?_, ?_⟩
  · intro i hi
    rcases h : q.closing i with edge | j
    · obtain rfl := scanRight_edge h
      have hnone := (closing_eq_error_iff hi).mp h
      apply (closing_eq_error_iff ((get?_append_right p q i).trans hi)).mpr
      intro j hp
      obtain ⟨l, rfl⟩ : ∃ l, j = p.length + l := ⟨j - p.length, by have := hp.bounds.1; omega⟩
      exact hnone l (hp.of_moved hget hlen.symm)
    · exact closing_of_partners (((closing_eq_ok_iff hi j).mp h).moved hget)
  · intro j hj
    rcases h : q.opening j with edge | i
    · obtain rfl := scanLeft_edge h
      have hnone := (opening_eq_error_iff hj).mp h
      apply (opening_eq_error_iff ((get?_append_right p q j).trans hj)).mpr
      intro i hp
      by_cases hi : i < p.length
      · -- a bracket of the balanced part has its partner there
        have hopen := hp.bounds.2.1
        rw [get?_append_left hi] at hopen
        obtain ⟨l, hl⟩ := exists_closing_of_balanced hb hopen
        have hl' : (p.append q).Partners i l := by
          have hm := hl.moved (embeds_left hb q).get?
          rwa [Nat.zero_add, Nat.zero_add] at hm
        have hsame := closing_of_partners hp
        rw [closing_of_partners hl'] at hsame
        have hlt := lt_length_of_get? hl.bounds.2.2
        have := Except.ok.inj hsame
        omega
      · obtain ⟨l, rfl⟩ : ∃ l, i = p.length + l := ⟨i - p.length, by omega⟩
        exact hnone l (hp.of_moved hget hlen.symm)
    · exact opening_of_partners (((opening_eq_ok_iff hj i).mp h).moved hget)

/-- A bracket without a partner is reported as it is in the program alone, so many characters further
on. -/
theorem Embeds.unmatchedFault (h : q.Embeds p a)
    (hk : q.get? k = some '[' ∨ q.get? k = some ']') (radius : Nat) :
    (q.unmatchedFault k radius).Relocated (a + ·) (p.unmatchedFault (a + k) radius) := by
  obtain hc | hc := hk
  · have hc' := (h.get? k (lt_length_of_get? hc)).trans hc
    simp only [Program.unmatchedFault, hc, hc']
    exact ⟨rfl, rfl⟩
  · have hc' := (h.get? k (lt_length_of_get? hc)).trans hc
    simp only [Program.unmatchedFault, hc, hc']
    exact ⟨rfl, rfl⟩

end TapeLang.Program
