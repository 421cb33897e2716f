import TapeLang.Host.Buffer
import TapeLang.Host.LineScript
import TapeLang.Proofs.Brackets.Check
import TapeLang.Proofs.Machine.Walk

/-! Bracket faults of running programs.

A running program meets its brackets in any order, and looks for a partner only when it jumps. The
check passes over the text once. The two agree: where a run finds no partner there is none, and then
the check refuses the program, for that bracket or an earlier one. -/
namespace TapeLang
set_option autoImplicit false

namespace Program

theorem leap_eq_error {p : Program} {radius k : Nat} {partner : Except Edge Nat} {fault : Fault}
    (h : p.leap radius k partner = .error fault) :
    fault = p.unmatchedFault k radius ∧ ∃ edge, partner = .error edge := by
  cases partner with
  | ok j => cases h
  | error edge =>
    cases h
    exact ⟨rfl, edge, rfl⟩

theorem fault_of_visit {η : Type} [Host η] {p : Program} {radius k : Nat} {c c' : Config η}
    {fault : Fault} (hk : k < p.length) (h : p.visit radius k c = (.error fault, c')) :
    (fault = .output ∨ fault = .input) ∨ fault = p.unmatchedFault k radius ∧ p.Partnerless k ∧
      (p.get? k = some '[' ∨ p.get? k = some ']') := by
  obtain ⟨ch, hc⟩ := exists_get? hk
  cases ht : Token.ofChar ch with
  | comment =>
    rw [visit_comment hc ht] at h
    cases h
  | action a =>
    rw [visit_action hc ht] at h
    rcases ha : Action.perform c a with ⟨f | _, c₁⟩
    · rw [ha] at h
      cases h
      exact Or.inl (Action.fault_of_perform ha)
    · rw [ha] at h
      cases h
  | bracket b =>
    right
    cases b with
    | opening =>
      obtain rfl := Token.eq_open_of_ofChar ht
      rw [visit_open hc] at h
      split at h
      · obtain ⟨hf, edge, he⟩ := leap_eq_error (Prod.mk.inj h).1
        exact ⟨hf, partnerless_of_closing hc he, Or.inl hc⟩
      · cases h
    | closing =>
      obtain rfl := Token.eq_close_of_ofChar ht
      rw [visit_close hc] at h
      split at h
      · cases h
      · obtain ⟨hf, edge, he⟩ := leap_eq_error (Prod.mk.inj h).1
        exact ⟨hf, partnerless_of_opening hc he, Or.inr hc⟩

theorem check_of_partnerless {p : Program} {k : Nat} (h : p.Partnerless k)
    (hc : p.get? k = some '[' ∨ p.get? k = some ']') (radius : Nat) :
    ∃ bracket position excerpt,
      p.check radius = .error (.unmatched bracket position excerpt) ∧ position.offset ≤ k := by
  obtain ⟨l, hl, hle, hbracket⟩ := unmatched?_le_of_partnerless h hc
  obtain ⟨bracket, excerpt, hf⟩ := unmatchedFault_of_bracket radius hbracket
  refine ⟨bracket, p.position l, excerpt, ?_, hle⟩
  rw [check, hl, ← hf]

end Program

namespace Machine

variable {η : Type} [Host η]

/-- The machines that steps lead to, whether or not they fail. -/
inductive Reached (start : Machine η) : Machine η → Prop
  | start : Reached start start
  | step {x : Machine η} (hx : Reached start x) : Reached start x.step.2

theorem Reached.trans {m₁ m₂ m₃ : Machine η} (h₁ : Reached m₁ m₂) (h₂ : Reached m₂ m₃) :
    Reached m₁ m₃ := by
  induction h₂ with
  | start => exact h₁
  | step _ ih => exact ih.step

theorem Stops.reached {m m' : Machine η} {s : Step} (h : m.Stops s m') :
    ∃ x, Reached m x ∧ x.step = (s, m') := by
  induction h with
  | @last m m' s h _ => exact ⟨m, Reached.start, h⟩
  | @more m m₁ m' s h _ ih =>
    obtain ⟨x, hx, hs⟩ := ih
    have h₁ : Reached m m.step.2 := Reached.start.step
    rw [h] at h₁
    exact ⟨x, h₁.trans hx, hs⟩

theorem Stands.step_stands {m : Machine η} {p : Program} {radius k : Nat} {c : Config η}
    (h : m.Stands p radius k c) : ∃ k' c', m.step.2.Stands p radius k' c' := by
  by_cases hk : k < p.length
  · obtain ⟨m', k', c', hm, -, hs, -⟩ | ⟨m', f, c', hm, -, hs, -⟩ := h.step_cases hk
    · exact ⟨k', c', by rwa [hm]⟩
    · exact ⟨k, c', by rwa [hm]⟩
  · obtain ⟨m', hm, hs⟩ := h.step_end (Nat.le_of_not_lt hk)
    exact ⟨k, c, by rwa [hm]⟩

theorem Reached.stands {m x : Machine η} {p : Program} {radius k : Nat} {c : Config η}
    (hx : Reached m x) (h : m.Stands p radius k c) : ∃ k' c', x.Stands p radius k' c' := by
  induction hx with
  | start => exact ⟨k, c, h⟩
  | step _ ih =>
    obtain ⟨k', c', hs⟩ := ih
    exact hs.step_stands

theorem Stands.fault_of_step {m : Machine η} {p : Program} {radius k : Nat} {c : Config η}
    {fault : Fault} (h : m.Stands p radius k c) (hf : m.step.1 = .fail fault) :
    (fault = .output ∨ fault = .input) ∨
      fault = p.unmatchedFault m.state.cursor.position radius ∧
        p.Partnerless m.state.cursor.position ∧
        (p.get? m.state.cursor.position = some '[' ∨ p.get? m.state.cursor.position = some ']') := by
  by_cases hk : k < p.length
  · obtain ⟨m', k', c', hm, -, -, -⟩ | ⟨m', f, c', hm, -, -, hv⟩ := h.step_cases hk
    · rw [hm] at hf
      simp only at hf
      split at hf <;> cases hf
    · rw [hm] at hf
      cases hf
      rw [h.position_eq hk]
      exact Program.fault_of_visit hk hv
  · obtain ⟨m', hm, -⟩ := h.step_end (Nat.le_of_not_lt hk)
    rw [hm] at hf
    cases hf

theorem Runs.reached_fault {m m' : Machine η} {fault : Fault} (h : m.Runs (.error fault, m')) :
    fault = .output ∨ ∃ x, Reached m x ∧ x.step.1 = .fail fault := by
  obtain ⟨result, m₁, hstop, hc⟩ := (m.runs_iff_stops _).mp h
  have hset := m₁.conclude_settle result
  rw [← hc] at hset
  have hresult : Except.error fault = (settle m₁.host result).1 := (Prod.mk.inj hset).1
  obtain f | _ := result
  · cases hresult
    obtain ⟨x, hx, hs⟩ := hstop.reached
    exact Or.inr ⟨x, hx, congrArg Prod.fst hs⟩
  · simp only [settle] at hresult
    split at hresult <;> cases hresult
    exact Or.inl rfl

theorem Reached.bracket_fault {m x : Machine η} {source : String} (hx : Reached (m.load source) x)
    {bracket : Bracket} {position : Position} {excerpt : Excerpt}
    (hf : x.step.1 = .fail (.unmatched bracket position excerpt)) :
    .unmatched bracket position excerpt =
        (Program.ofString source).unmatchedFault x.state.cursor.position m.radius ∧
      (Program.ofString source).Partnerless x.state.cursor.position ∧
      ∀ radius, ∃ bracket' position' excerpt',
        (Program.ofString source).check radius = .error (.unmatched bracket' position' excerpt') ∧
        position'.offset ≤ x.state.cursor.position := by
  obtain ⟨k, c, hs⟩ := hx.stands (m.stands_load source)
  obtain (hf | hf) | ⟨hf, hless, hbracket⟩ := hs.fault_of_step hf
  · cases hf
  · cases hf
  · exact ⟨hf, hless, Program.check_of_partnerless hless hbracket⟩

theorem Reached.no_bracket_fault {m x : Machine η} {source : String} (hx : Reached (m.load source) x)
    {radius : Nat} (hok : (Program.ofString source).check radius = .ok ()) (bracket : Bracket)
    (position : Position) (excerpt : Excerpt) :
    x.step.1 ≠ .fail (.unmatched bracket position excerpt) := by
  intro hf
  obtain ⟨-, -, hcheck⟩ := hx.bracket_fault hf
  obtain ⟨bracket', position', excerpt', herror, -⟩ := hcheck radius
  rw [hok] at herror
  cases herror

/-- Bracket faults of a run agree with the check. A step that is reached from the start of a program
and reports a bracket reports the one under the cursor, which has no partner, and the check refuses
the program there or before. So no step and no run of a program that passes the check reports a
bracket. -/
theorem bracket_faults_checked (m : Machine η) (source : String) :
    let p := Program.ofString source
    (∀ x, Reached (m.load source) x → ∀ bracket position excerpt,
      x.step.1 = .fail (.unmatched bracket position excerpt) →
        .unmatched bracket position excerpt = p.unmatchedFault x.state.cursor.position m.radius ∧
        p.Partnerless x.state.cursor.position ∧
        ∀ radius, ∃ bracket' position' excerpt',
          p.check radius = .error (.unmatched bracket' position' excerpt') ∧
          position'.offset ≤ x.state.cursor.position) ∧
    ∀ radius, p.check radius = .ok () →
      (∀ x, Reached (m.load source) x → ∀ bracket position excerpt,
        x.step.1 ≠ .fail (.unmatched bracket position excerpt)) ∧
      ∀ bracket position excerpt m',
        ¬ m.Executes source (.error (.unmatched bracket position excerpt), m') := by
  intro p
  refine ⟨fun x hx bracket position excerpt hf => hx.bracket_fault hf, ?_⟩
  intro radius hok
  refine ⟨fun x hx => hx.no_bracket_fault hok, ?_⟩
  intro bracket position excerpt m' hexec
  obtain hf | ⟨x, hx, hf⟩ := Runs.reached_fault hexec
  · cases hf
  · exact hx.no_bracket_fault hok bracket position excerpt hf

theorem bracket_faults_checked_of_second_stray_bracket :
    ∃ m x : Machine (Devices Buffer LineScript), Reached (m.load "]+]") x ∧
      x.step.1 = .fail ((Program.ofString "]+]").unmatchedFault 2 m.radius) ∧
      (Program.ofString "]+]").Partnerless 2 ∧ ∃ bracket position excerpt,
        (Program.ofString "]+]").check m.radius = .error (.unmatched bracket position excerpt) ∧
        position.offset ≤ 2 := by
  refine ⟨{ host := {} }, _, Reached.start.step.step, ?_⟩
  have hagree := bracket_faults_checked ({ host := {} } : Machine (Devices Buffer LineScript)) "]+]"
  obtain ⟨hf, hless, hcheck⟩ := hagree.1 _ Reached.start.step.step _ _ _ rfl
  exact ⟨congrArg Step.fail hf, hless, hcheck _⟩

end Machine

end TapeLang
