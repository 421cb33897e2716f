import TapeLang.Proofs.Brackets.Embedding
import TapeLang.Proofs.Machine.Setbacks

/-! A balanced text and the text after it.

A program that stands inside a longer one asks for the same there, with the partners of its brackets moved
(`State.requestChar_lodged`), and the same comes of it (`State.apply_lodged`). So a machine takes the same
steps there (`Stands.step_lodged`), so many characters further on. This is used twice: for the balanced
text, which starts at the same place and where the step that halts goes on to the second text instead
(`advance_lodged_last`), and for the second text, which ends at the same place
(`Stands.step_lodged_end`). -/
namespace TapeLang
set_option autoImplicit false

/-- The same step, except that the place of a bracket is moved. -/
def Step.Relocated (move : Nat → Nat) : Step → Step → Prop
  | .next, .next => True
  | .halt, .halt => True
  | .fail fault, .fail fault' => fault.Relocated move fault'
  | _, _ => False

theorem Program.length_ofString_pos {source : String} (h : source ≠ "") :
    0 < (Program.ofString source).length := by
  rw [Program.length_ofString, List.length_pos_iff]
  exact mt String.toList_eq_nil_iff.mp h

/-! ## Requests and effects that are moved -/

def Effect.moved (a : Nat) : Effect → Effect
  | .jump partner => .jump (partner.map (a + ·))
  | effect => effect

def Request.moved (a : Nat) : Request → Request
  | .nothing effect => .nothing (effect.moved a)
  | request => request

theorem Request.Called.map_moved {answer : Except Fault Effect} (h : Called answer) (a : Nat) :
    answer.map (Effect.moved a) = answer := by
  cases h <;> rfl

/-- A partner bracket is nothing to the host. -/
theorem Request.answer_moved {η : Type} [Host η] (a : Nat) (host : η) (request : Request) :
    (request.moved a).answer host =
      ((request.answer host).1.map (Effect.moved a), (request.answer host).2) := by
  cases request with
  | nothing effect => rfl
  | write byte => exact Prod.ext ((called_write byte).map_moved a).symm rfl
  | read => exact Prod.ext (called_read.map_moved a).symm rfl

namespace State

/-- The state with its program replaced by a longer one, so many characters and steps further on. -/
def lodged (p : Program) (a d : Nat) (s : State) : State :=
  { s with program := p, cursor := ⟨p.length, a + s.cursor.position⟩, steps := d + s.steps }

variable {s : State} {p q : Program} {a : Nat} {ch : Char}

theorem requestChar_lodged (he : q.Embeds p a) (hq : s.program = q)
    (hc : q.get? s.cursor.position = some ch) (d : Nat) :
    (s.lodged p a d).requestChar ch = (s.requestChar ch).moved a := by
  have hcell : (s.lodged p a d).cell = s.cell := rfl
  unfold requestChar
  cases hi : Instruction.ofChar? ch with
  | none => rfl
  | some i =>
    obtain rfl := Instruction.toChar_of_ofChar? hi
    cases i with
    | right | left | increment | decrement | write | read => rfl
    | openLoop =>
      have hmoved := he.closing _ hc
      rw [← hq] at hmoved
      simp only [request, hcell]
      split
      · exact congrArg (fun partner => Request.nothing (.jump partner)) hmoved
      · rfl
    | closeLoop =>
      have hmoved := he.opening _ hc
      rw [← hq] at hmoved
      simp only [request, hcell]
      split
      · rfl
      · exact congrArg (fun partner => Request.nothing (.jump partner)) hmoved

theorem apply_lodged (he : q.Embeds p a) (hq : s.program = q) (d radius : Nat) (effect : Effect)
    (hc : ∀ partner, effect = .jump partner →
      q.get? s.cursor.position = some '[' ∨ q.get? s.cursor.position = some ']') :
    Alike (fun s₁ s₂ => s₂ = s₁.lodged p a d) (a + ·) (s.apply radius effect)
      ((s.lodged p a d).apply radius (effect.moved a)) := by
  cases effect with
  | stay | right | left | store => exact rfl
  | jump partner =>
    cases partner with
    | ok j => exact rfl
    | error edge =>
      subst hq
      exact he.unmatchedFault (hc _ rfl) radius

end State

theorem State.bracket_of_requestChar {s : State} {ch : Char} {partner : Except Edge Nat}
    (h : s.requestChar ch = .nothing (.jump partner)) : ch = '[' ∨ ch = ']' := by
  unfold requestChar at h
  cases hi : Instruction.ofChar? ch with
  | none =>
    rw [hi] at h
    cases h
  | some i =>
    obtain rfl := Instruction.toChar_of_ofChar? hi
    rw [hi] at h
    cases i with
    | openLoop => exact Or.inl rfl
    | closeLoop => exact Or.inr rfl
    | right | left | increment | decrement | write | read => cases h

/-- A call is not answered with a jump. -/
theorem Request.eq_of_answer_jump {η : Type} [Host η] {host : η} {request : Request}
    {partner : Except Edge Nat} (h : (request.answer host).1 = .ok (.jump partner)) :
    request = .nothing (.jump partner) := by
  cases request with
  | nothing effect =>
    cases h
    rfl
  | write byte =>
    have hcalled : Called ((write byte).answer host).1 := called_write byte
    rw [h] at hcalled
    cases hcalled
  | read =>
    have hcalled : Called (read.answer host).1 := called_read
    rw [h] at hcalled
    cases hcalled

namespace Machine

variable {η : Type}

/-- The machine with its program replaced by a longer one, so many characters and steps further on. -/
def lodged (p : Program) (a d : Nat) (m : Machine η) : Machine η :=
  m.update (State.lodged p a d)

variable {m m' : Machine η} {p q : Program} {a d k radius : Nat} {c : Config η}

/-! ## Moving on inside the longer program -/

theorem Stands.cursor_length (h : m.Stands q radius k c) : m.state.cursor.length = q.length := by
  rw [h.wellPlaced.cursor_length, h.program]

theorem advance_lodged_of_lt (he : q.Embeds p a) (hlen : m.state.cursor.length = q.length)
    (hlt : m.state.cursor.position + 1 < m.state.cursor.length) (d : Nat) :
    (m.lodged p a d).advance = (m.advance.1, m.advance.2.lodged p a d) := by
  have hlt' : (m.lodged p a d).state.cursor.position + 1 < (m.lodged p a d).state.cursor.length := by
    change a + m.state.cursor.position + 1 < p.length
    have := he.length_le
    omega
  rw [advance_of_lt hlt', advance_of_lt hlt]
  rfl

theorem advance_lodged_of_next (he : q.Embeds p a) (hlen : m.state.cursor.length = q.length)
    (hnext : m.advance = (.next, m')) (d : Nat) :
    (m.lodged p a d).advance = (.next, m'.lodged p a d) := by
  by_cases hlt : m.state.cursor.position + 1 < m.state.cursor.length
  · rw [advance_lodged_of_lt he hlen hlt, hnext]
  · rw [advance_of_last hlt] at hnext
    cases hnext

/-- Where both programs end, both machines halt. -/
theorem advance_lodged_end (he : q.Embeds p a) (hlen : m.state.cursor.length = q.length)
    (hend : a + q.length = p.length) (d : Nat) :
    (m.lodged p a d).advance = (m.advance.1, m.advance.2.lodged p a d) := by
  by_cases hlt : m.state.cursor.position + 1 < m.state.cursor.length
  · exact advance_lodged_of_lt he hlen hlt d
  · have hlast : ¬ (m.lodged p a d).state.cursor.position + 1 <
        (m.lodged p a d).state.cursor.length := by
      change ¬ a + m.state.cursor.position + 1 < p.length
      omega
    rw [advance_of_last hlast, advance_of_last hlt]
    rfl

/-- The machine at the start of another program, on the tape that it has now. -/
def continuedWith (m : Machine η) (source : String) : Machine η :=
  (m.load source).update fun s => { s with pointer := m.state.pointer, tape := m.state.tape }

theorem stands_continuedWith (m : Machine η) (source : String) :
    (m.continuedWith source).Stands (Program.ofString source) m.radius 0
      (m.continuedWith source).config :=
  ⟨rfl, rfl, rfl, rfl, (State.wellPlaced_start _).withTape _ _⟩

/-- Where the first of two programs ends and the second goes on, the machine of the first halts and
that of both goes on. -/
theorem advance_lodged_last (h : m.Stands q radius k c) (hk : k < q.length)
    (hhalt : m.advance = (.halt, m')) {source : String} (hne : 0 < (Program.ofString source).length)
    (hp : p = q.append (Program.ofString source)) :
    (m.lodged p 0 0).advance =
      (.next, (m'.continuedWith source).lodged p q.length m'.state.steps) := by
  have hlen := h.cursor_length
  have hpos := h.position_eq hk
  have hh := h.halted_eq_false hk
  have hplen : p.length = q.length + (Program.ofString source).length := by
    rw [hp, Program.length_append]
  by_cases hlt : m.state.cursor.position + 1 < m.state.cursor.length
  · rw [advance_of_lt hlt] at hhalt
    cases hhalt
  · rw [advance_of_last hlt] at hhalt
    obtain rfl := (Prod.mk.inj hhalt).2
    have hlt' : (m.lodged p 0 0).state.cursor.position + 1 <
        (m.lodged p 0 0).state.cursor.length := by
      change 0 + m.state.cursor.position + 1 < p.length
      omega
    have hcursor : m.state.cursor.position + 1 = q.length := by omega
    rw [advance_of_lt hlt']
    simp only [lodged, State.lodged, continuedWith, load, update, State.start, Program.cursor, hcursor,
      hh, Nat.zero_add, Nat.add_zero]

variable [Host η]

/-! ## Steps inside the longer program -/

theorem performChar_lodged (he : q.Embeds p a) (hq : m.state.program = q) {ch : Char}
    (hc : q.get? m.state.cursor.position = some ch) (d : Nat) :
    ∃ r, (m.lodged p a d).performChar ch = (r, (m.performChar ch).2.lodged p a d) ∧
      Alike Eq (a + ·) (m.performChar ch).1 r := by
  have hjump : ∀ partner, ((m.state.requestChar ch).answer m.host).1 = .ok (.jump partner) →
      q.get? m.state.cursor.position = some '[' ∨ q.get? m.state.cursor.position = some ']' := by
    intro partner h
    rw [hc]
    exact (State.bracket_of_requestChar (Request.eq_of_answer_jump h)).imp (congrArg some) (congrArg some)
  have hfault : ∀ fault, ((m.state.requestChar ch).answer m.host).1 = .error fault →
      fault = .output ∨ fault = .input := fun _ => Request.fault_of_answer
  have hanswer : ((m.lodged p a d).state.requestChar ch).answer (m.lodged p a d).host =
      (((m.state.requestChar ch).answer m.host).1.map (Effect.moved a),
        ((m.state.requestChar ch).answer m.host).2) := by
    rw [← Request.answer_moved, ← State.requestChar_lodged he hq hc d]
    rfl
  rw [performChar_eq, performChar_eq, hanswer]
  generalize (m.state.requestChar ch).answer m.host = served at hjump hfault ⊢
  obtain ⟨fault | effect, host⟩ := served
  · exact ⟨.error fault, rfl, Fault.relocated_of_not_bracket (hfault fault rfl)⟩
  · have happly := State.apply_lodged he hq d m.radius effect fun partner h => hjump partner (h ▸ rfl)
    have hstate : (m.lodged p a d).state = m.state.lodged p a d := rfl
    have hradius : (m.lodged p a d).radius = m.radius := rfl
    simp only [enact, State.enact, Except.bind, Except.map, hstate, hradius]
    rcases hx : m.state.apply m.radius effect with f | s <;>
      rcases hy : (m.state.lodged p a d).apply m.radius (effect.moved a) with f' | s' <;>
      rw [hx, hy] at happly
    · exact ⟨.error f', rfl, happly⟩
    · exact happly.elim
    · exact happly.elim
    · obtain rfl : s' = s.lodged p a d := happly
      exact ⟨.ok (), rfl, rfl⟩

/-- A step of a machine inside a longer program: it fails as it does alone, or it comes to the point
where both machines move on by one character. -/
theorem Stands.step_lodged (h : m.Stands q radius k c) (hk : k < q.length) (he : q.Embeds p a)
    (d : Nat) :
    (∃ (m₁ : Machine η) (j : Nat) (c' : Config η), m.step = m₁.advance ∧
        (m.lodged p a d).step = (m₁.lodged p a d).advance ∧
        m₁.Stands q radius j c' ∧ j < q.length) ∨
      ∃ fault fault' m', m.step = (.fail fault, m') ∧
        (m.lodged p a d).step = (.fail fault', m'.lodged p a d) ∧
        fault.Relocated (a + ·) fault' := by
  have hpos := h.position_eq hk
  have hh := h.halted_eq_false hk
  obtain ⟨ch, hc⟩ := Program.exists_get? hk
  have hget : m.state.program.get? m.state.cursor.position = some ch := by
    rw [h.program, hpos, hc]
  have hget' : (m.lodged p a d).state.program.get? (m.lodged p a d).state.cursor.position =
      some ch := by
    change p.get? (a + m.state.cursor.position) = some ch
    rw [hpos, he.get? k hk, hc]
  obtain ⟨r, hr, halike⟩ := performChar_lodged he h.program (hpos ▸ hc) d
  obtain ⟨m₁, j, c', hp, hj, hs, -⟩ | ⟨m₁, fault, c', hp, -, -, -⟩ := h.performChar_cases hc
  · left
    rw [hp] at hr halike
    obtain fault | _ := r
    · cases halike
    · exact ⟨m₁, j, c', step_of_ok hh hget hp, step_of_ok hh hget' hr, hs, hj⟩
  · right
    rw [hp] at hr halike
    obtain fault' | _ := r
    · exact ⟨fault, fault', m₁, step_of_error hh hget hp, step_of_error hh hget' hr, halike⟩
    · cases halike

theorem Stands.step_next (h : m.Stands q radius k c) (hnext : m.step = (.next, m')) :
    k < q.length ∧ ∃ k' c', m'.Stands q radius k' c' ∧ k' < q.length := by
  by_cases hk : k < q.length
  · refine ⟨hk, ?_⟩
    obtain ⟨x, k', c', hx, -, hs, -⟩ | ⟨x, f, c', hx, -, -, -⟩ := h.step_cases hk
    · rw [hnext] at hx
      obtain ⟨hstep, rfl⟩ := Prod.mk.inj hx
      by_cases hk' : k' < q.length
      · exact ⟨k', c', hs, hk'⟩
      · rw [if_neg hk'] at hstep
        cases hstep
    · rw [hnext] at hx
      cases hx
  · obtain ⟨x, hx, -⟩ := h.step_end (Nat.le_of_not_lt hk)
    rw [hnext] at hx
    cases hx

theorem Proceeds.lodged {n : Nat} {x : Machine η} (hx : m.Proceeds n x)
    (h : m.Stands q radius k c) (hk : k < q.length) (he : q.Embeds p a) (d : Nat) :
    (m.lodged p a d).Proceeds n (x.lodged p a d) ∧
      ∃ k' c', x.Stands q radius k' c' ∧ k' < q.length := by
  induction hx generalizing k c with
  | stay m => exact ⟨Proceeds.stay _, k, c, h, hk⟩
  | @more n m m₁ x hstep _ ih =>
    obtain ⟨-, k', c', hs, hk'⟩ := h.step_next hstep
    obtain ⟨hrest, hlast⟩ := ih hs hk'
    refine ⟨Proceeds.more ?_ hrest, hlast⟩
    obtain ⟨m₂, j, c₂, hm, hl, hs₂, -⟩ | ⟨f, f', m₂, hm, -, -⟩ := h.step_lodged hk he d
    · rw [hm] at hstep
      rw [hl]
      exact advance_lodged_of_next he hs₂.cursor_length hstep d
    · rw [hstep] at hm
      cases hm

/-- Two machines in step: the one is where the other is, so many characters further on, with the same
tape and the same host, and its next step is the same. -/
structure InStep (a : Nat) (z y : Machine η) : Prop where
  cursor : y.state.cursor.position = a + z.state.cursor.position
  pointer : y.state.pointer = z.state.pointer
  tape : y.state.tape = z.state.tape
  halted : y.state.halted = z.state.halted
  host : y.host = z.host
  step : z.step.1.Relocated (a + ·) y.step.1

/-- A program that ends where the longer one ends takes the same steps there. -/
theorem Stands.step_lodged_end (h : m.Stands q radius k c) (hq : 0 < q.length) (he : q.Embeds p a)
    (hend : a + q.length = p.length) (d : Nat) :
    (m.lodged p a d).step.2 = m.step.2.lodged p a d ∧
      m.step.1.Relocated (a + ·) (m.lodged p a d).step.1 := by
  cases hh : m.state.halted with
  | true =>
    have hh' : (m.lodged p a d).state.halted = true := hh
    rw [step_of_halted m hh, step_of_halted _ hh']
    exact ⟨rfl, True.intro⟩
  | false =>
    have hk : k < q.length := by
      have hplace := h.place
      rw [Machine.place, hh, if_neg Bool.false_ne_true] at hplace
      have hinside := h.wellPlaced.cursor_inside
      rw [h.program] at hinside
      omega
    obtain ⟨m₁, j, c₁, hm, hl, hs, -⟩ | ⟨f, f', m₁, hm, hl, hf⟩ := h.step_lodged hk he d
    · rw [hm, hl, advance_lodged_end he hs.cursor_length hend]
      refine ⟨rfl, ?_⟩
      by_cases hlt : m₁.state.cursor.position + 1 < m₁.state.cursor.length
      · rw [advance_of_lt hlt]
        exact True.intro
      · rw [advance_of_last hlt]
        exact True.intro
    · rw [hm, hl]
      exact ⟨rfl, hf⟩

/-- The machine after so many steps, whether or not they fail. -/
def after : Nat → Machine η → Machine η
  | 0, m => m
  | n + 1, m => after n m.step.2

theorem Stands.inStep_after (h : m.Stands q radius k c) (hq : 0 < q.length) (he : q.Embeds p a)
    (hend : a + q.length = p.length) (d n : Nat) :
    InStep a (m.after n) ((m.lodged p a d).after n) := by
  induction n generalizing m k c with
  | zero => exact ⟨rfl, rfl, rfl, rfl, rfl, (h.step_lodged_end hq he hend d).2⟩
  | succ n ih =>
    obtain ⟨k', c', hs⟩ := h.step_stands
    rw [after, after, (h.step_lodged_end hq he hend d).1]
    exact ih hs

/-! ## Two texts one after the other -/

/-- A machine that halts at the end of a balanced text goes on with the text after it. -/
theorem proceeds_append {first second : String}
    (hb : Balanced (Program.ofString first).chars.toList)
    (hne : 0 < (Program.ofString second).length) {x : Machine η}
    (hx : (m.load first).Stops .halt x) :
    ∃ n, (m.load (first ++ second)).Proceeds n ((x.continuedWith second).lodged
      (Program.ofString (first ++ second)) (Program.ofString first).length x.state.steps) := by
  have hs := m.stands_load first
  have hT := Program.ofString_append first second
  have hstart : (m.load first).lodged (Program.ofString (first ++ second)) 0 0 =
      m.load (first ++ second) := rfl
  obtain ⟨n, w, hw, hstep⟩ := hx.proceeds
  by_cases hlen : 0 < (Program.ofString first).length
  · have he := Program.embeds_left hb (Program.ofString second)
    rw [← hT] at he
    obtain ⟨hproceeds, k, c, hwk, hk⟩ := hw.lodged hs hlen he 0
    rw [hstart] at hproceeds
    refine ⟨n + 1, hproceeds.snoc ?_⟩
    obtain ⟨w₁, j, c₁, hm, hl, hw₁, hj⟩ | ⟨f, f', w₁, hm, -, -⟩ := hwk.step_lodged hk he 0
    · rw [hl]
      exact advance_lodged_last hw₁ hj (hm.symm.trans hstep) hne hT
    · rw [hstep] at hm
      cases hm
  · cases hw with
    | more hnext _ => exact absurd (hs.step_next hnext).1 hlen
    | stay =>
      -- an empty text halts where it starts
      obtain rfl : first = "" := by
        apply Classical.byContradiction
        intro hfirst
        exact hlen (Program.length_ofString_pos hfirst)
      obtain rfl := (Prod.mk.inj hstep).2
      rw [String.empty_append]
      exact ⟨0, Proceeds.stay _⟩

variable {ω ι : Type} [Sink ω] [Source ι]

/-- A text with matched brackets composes with any text after it. If the first text alone halts, both
together come to the second text with the same pointer, tape and devices, the record of the calls
included, and have not halted. From there on they are in step with the second text alone, started on
that tape. -/
theorem matched_text_composes (m : Machine (Devices ω ι)) (first second : String) (radius : Nat)
    (hcheck : (Program.ofString first).check radius = .ok ()) (hne : second ≠ "")
    (x : Machine (Devices ω ι)) (hx : (m.load first).Stops .halt x) :
    ∃ n y, (m.load (first ++ second)).Proceeds n y ∧ y.host = x.host ∧
      y.state.cursor.position = first.length ∧ y.state.pointer = x.state.pointer ∧
      y.state.tape = x.state.tape ∧ y.state.halted = false ∧
      ∀ k, InStep first.length ((x.continuedWith second).after k) (y.after k) := by
  have hb := (Program.check_eq_ok_iff _ _).mp hcheck
  have hlen : (Program.ofString first).length = first.length := by
    rw [Program.length_ofString, String.length_toList]
  have hpos := Program.length_ofString_pos hne
  obtain ⟨n, hn⟩ := proceeds_append hb hpos hx
  have he := Program.embeds_right hb (Program.ofString second)
  have hend := Program.length_append (Program.ofString first) (Program.ofString second)
  rw [← Program.ofString_append] at he hend
  refine ⟨n, _, hn, rfl, ?_, rfl, rfl, rfl, ?_⟩
  · exact hlen
  · intro k
    rw [← hlen]
    exact (x.stands_continuedWith second).inStep_after hpos he hend.symm x.state.steps k

theorem matched_text_composes_of_stray_bracket :
    ∃ m x : Machine (Devices Buffer LineScript), (Program.ofString "[]+.").check 2 = .ok () ∧
      (m.load "[]+.").Stops .halt x ∧ x.host.calls = #[.write 1 true] ∧
      (∃ position window, ((x.continuedWith ">+]").after 2).step.1 =
        .fail (.unmatched .closing position window) ∧ position.offset = 2) ∧
      ∃ n y, (m.load ("[]+." ++ ">+]")).Proceeds n y ∧ y.host = x.host ∧
        y.state.cursor.position = 4 ∧ y.state.tape = x.state.tape ∧
        ∀ k, InStep 4 ((x.continuedWith ">+]").after k) (y.after k) := by
  have hcheck : (Program.ofString "[]+.").check 2 = .ok () := rfl
  have hx : (Machine.load ({ host := { output := some {} }, radius := 3 } :
      Machine (Devices Buffer LineScript)) "[]+.").Stops .halt _ :=
    Stops.more rfl (Stops.more rfl (Stops.last rfl (by decide)))
  obtain ⟨n, y, hn, hhost, hcursor, -, htape, -, hstep⟩ :=
    matched_text_composes _ "[]+." ">+]" 2 hcheck (by decide) _ hx
  exact ⟨_, _, hcheck, hx, rfl, ⟨_, _, rfl, rfl⟩, n, y, hn, hhost, hcursor, htape, hstep⟩

end Machine

end TapeLang
