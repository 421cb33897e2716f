import TapeLang.Proofs.Brackets.Balanced
import TapeLang.Proofs.Machine.Reaction

/-! Machines seen from the program text.

What a step does depends on the place in the program, the pointer, the values of the cells and the
host. How cells are stored, how many steps were counted and how the end of the program is marked do
not matter. `Config` keeps what matters, `Program.visit` is one step on it, and `Machine.Stands`
relates a machine to a place and a configuration. The end of the program is a place of its own,
after the last character.

* `Stands.step_ok`, `Stands.step_error`, `Stands.step_end`: what a step of a machine does, for each
  outcome of the visit. Together they cover every step, so later proofs do not unfold `step`. -/
namespace TapeLang
set_option autoImplicit false

/-! ## Actions and tokens -/

/-- An instruction that is no bracket. -/
inductive Action where
  | right
  | left
  | increment
  | decrement
  | write
  | read
  deriving DecidableEq

def Action.instruction : Action → Instruction
  | right => .right
  | left => .left
  | increment => .increment
  | decrement => .decrement
  | write => .write
  | read => .read

/-- What a character of a program is. -/
inductive Token where
  | comment
  | action (action : Action)
  | bracket (bracket : Bracket)
  deriving DecidableEq

def Token.ofChar (c : Char) : Token :=
  match Instruction.ofChar? c with
  | none => .comment
  | some .right => .action .right
  | some .left => .action .left
  | some .increment => .action .increment
  | some .decrement => .action .decrement
  | some .openLoop => .bracket .opening
  | some .closeLoop => .bracket .closing
  | some .write => .action .write
  | some .read => .action .read

namespace Token

theorem ofChar_eq_comment {c : Char} (h : ofChar c = .comment) : Instruction.ofChar? c = none := by
  unfold ofChar at h
  split at h <;> first | assumption | cases h

theorem ofChar_eq_action {c : Char} {a : Action} (h : ofChar c = .action a) :
    Instruction.ofChar? c = some a.instruction := by
  unfold ofChar at h
  split at h <;> cases h <;> assumption

theorem eq_open_of_ofChar {c : Char} (h : ofChar c = .bracket .opening) : c = '[' := by
  unfold ofChar at h
  split at h <;> cases h
  next hc => exact (Instruction.toChar_of_ofChar? hc).symm

theorem eq_close_of_ofChar {c : Char} (h : ofChar c = .bracket .closing) : c = ']' := by
  unfold ofChar at h
  split at h <;> cases h
  next hc => exact (Instruction.toChar_of_ofChar? hc).symm

@[simp] theorem ofChar_open : ofChar '[' = .bracket .opening := rfl

@[simp] theorem ofChar_close : ofChar ']' = .bracket .closing := rfl

end Token

/-! ## Configurations -/

/-- The pointer, the values of all cells and the host. -/
structure Config (η : Type) where
  pointer : Int
  cells : Int → UInt8
  host : η

namespace Config

variable {η : Type}

def start (host : η) : Config η :=
  ⟨0, fun _ => 0, host⟩

def cell (c : Config η) : UInt8 :=
  c.cells c.pointer

def store (c : Config η) (value : UInt8) : Config η :=
  { c with cells := fun i => if c.pointer = i then value else c.cells i }

def withHost (c : Config η) (host : η) : Config η :=
  { c with host }

end Config

variable {η : Type}

/-- Performs an action. A call that the host refuses ends it, with the cells as they were. -/
def Action.perform [Host η] (c : Config η) : Action → Except Fault Unit × Config η
  | .right => (.ok (), { c with pointer := c.pointer + 1 })
  | .left => (.ok (), { c with pointer := c.pointer - 1 })
  | .increment => (.ok (), c.store (c.cell + 1))
  | .decrement => (.ok (), c.store (c.cell - 1))
  | .write =>
    match Host.write c.host c.cell with
    | (true, host) => (.ok (), c.withHost host)
    | (false, host) => (.error .output, c.withHost host)
  | .read =>
    match Host.flush c.host with
    | (false, host) => (.error .output, c.withHost host)
    | (true, host) =>
      match Host.readLine host with
      | (none, host) => (.error .input, c.withHost host)
      | (some line, host) => (.ok (), (c.withHost host).store (Line.value line))

theorem Action.fault_of_perform [Host η] {c c' : Config η} {a : Action} {f : Fault}
    (h : Action.perform c a = (.error f, c')) : f = .output ∨ f = .input := by
  cases a with
  | right | left | increment | decrement => cases h
  | write =>
    simp only [Action.perform] at h
    split at h <;> cases h
    exact Or.inl rfl
  | read =>
    simp only [Action.perform] at h
    split at h
    · cases h
      exact Or.inl rfl
    · split at h <;> cases h
      exact Or.inr rfl

namespace Program

/-- The place after a partner bracket, or the fault of the bracket at `index` if it has none. -/
def leap (p : Program) (radius index : Nat) : Except Edge Nat → Except Fault Nat
  | .ok partner => .ok (partner + 1)
  | .error _ => .error (p.unmatchedFault index radius)

/-- One step at a place of the program, with the place to go on from. -/
def visit [Host η] (p : Program) (radius index : Nat) (c : Config η) :
    Except Fault Nat × Config η :=
  match (p.get? index).map Token.ofChar with
  | some (.action a) =>
    match Action.perform c a with
    | (.ok (), c) => (.ok (index + 1), c)
    | (.error fault, c) => (.error fault, c)
  | some (.bracket .opening) =>
    (if c.cell = 0 then p.leap radius index (p.closing index) else .ok (index + 1), c)
  | some (.bracket .closing) =>
    (if c.cell = 0 then .ok (index + 1) else p.leap radius index (p.opening index), c)
  | _ => (.ok (index + 1), c)

theorem visit_comment [Host η] {p : Program} {i : Nat} {ch : Char} (h : p.get? i = some ch)
    (ht : Token.ofChar ch = .comment) (radius : Nat) (c : Config η) :
    p.visit radius i c = (.ok (i + 1), c) := by
  simp only [visit, h, Option.map_some, ht]

theorem visit_action [Host η] {p : Program} {i : Nat} {ch : Char} {a : Action}
    (h : p.get? i = some ch) (ht : Token.ofChar ch = .action a) (radius : Nat) (c : Config η) :
    p.visit radius i c =
      ((Action.perform c a).1.map fun _ => i + 1, (Action.perform c a).2) := by
  simp only [visit, h, Option.map_some, ht]
  obtain ⟨_ | _, c'⟩ := Action.perform c a <;> rfl

theorem visit_open [Host η] {p : Program} {i : Nat} (h : p.get? i = some '[') (radius : Nat)
    (c : Config η) : p.visit radius i c =
      (if c.cell = 0 then p.leap radius i (p.closing i) else .ok (i + 1), c) := by
  simp only [visit, h, Option.map_some, Token.ofChar_open]

theorem visit_close [Host η] {p : Program} {i : Nat} (h : p.get? i = some ']') (radius : Nat)
    (c : Config η) : p.visit radius i c =
      (if c.cell = 0 then .ok (i + 1) else p.leap radius i (p.opening i), c) := by
  simp only [visit, h, Option.map_some, Token.ofChar_close]

theorem leap_le {p : Program} {radius i k : Nat} {partner : Except Edge Nat}
    (hb : ∀ j, partner = .ok j → j < p.length) (h : p.leap radius i partner = .ok k) :
    k ≤ p.length := by
  cases partner with
  | ok j =>
    cases h
    exact hb j rfl
  | error edge => cases h

theorem visit_le [Host η] {p : Program} {radius i k : Nat} {c c' : Config η} (hi : i < p.length)
    (h : p.visit radius i c = (.ok k, c')) : k ≤ p.length := by
  obtain ⟨ch, hc⟩ := exists_get? hi
  cases ht : Token.ofChar ch with
  | comment =>
    rw [visit_comment hc ht] at h
    cases h
    exact hi
  | action a =>
    rw [visit_action hc ht] at h
    rcases hr : (Action.perform c a).1 with _ | _
    · rw [hr] at h
      cases h
    · rw [hr] at h
      cases h
      exact hi
  | bracket b =>
    cases b with
    | opening =>
      obtain rfl := Token.eq_open_of_ofChar ht
      rw [visit_open hc] at h
      split at h
      · exact leap_le (fun j => closing_lt_length hi) (Prod.mk.inj h).1
      · cases h
        exact hi
    | closing =>
      obtain rfl := Token.eq_close_of_ofChar ht
      rw [visit_close hc] at h
      split at h
      · cases h
        exact hi
      · exact leap_le (fun j hj => Nat.lt_of_le_of_lt (opening_le hj) hi) (Prod.mk.inj h).1

end Program

/-! ## Machines at a place -/

/-- The cursor belongs to the program and stands inside it, and a program that has halted is on its
last character. -/
structure State.WellPlaced (s : State) : Prop where
  cursor_length : s.cursor.length = s.program.length
  cursor_inside : s.cursor.position < s.program.length ∨
    s.program.length = 0 ∧ s.cursor.position = 0
  halted_at_end : s.halted = true →
    s.program.length = 0 ∨ s.cursor.position + 1 = s.program.length

theorem State.wellPlaced_start (p : Program) : (State.start p).WellPlaced where
  cursor_length := rfl
  cursor_inside := by
    change 0 < p.length ∨ p.length = 0 ∧ 0 = 0
    omega
  halted_at_end h := by cases h

namespace Machine

def config (m : Machine η) : Config η :=
  ⟨m.state.pointer, m.state.tape.get, m.host⟩

/-- The place of a machine in its program; the end is the place after the last character. -/
def place (m : Machine η) : Nat :=
  if m.state.halted then m.state.program.length else m.state.cursor.position

/-- The machine runs the program, and stands at a place with a configuration. -/
structure Stands (m : Machine η) (p : Program) (radius index : Nat) (c : Config η) : Prop where
  program : m.state.program = p
  radius : m.radius = radius
  place : m.place = index
  config : m.config = c
  wellPlaced : m.state.WellPlaced

theorem stands_load (m : Machine η) (source : String) :
    (m.load source).Stands (Program.ofString source) m.radius 0 (Config.start m.host) where
  program := rfl
  radius := rfl
  place := rfl
  config := by
    have hget : (State.start (Program.ofString source)).tape.get = fun _ => 0 :=
      funext Tape.get_empty
    rw [Machine.config, state_load, hget]
    rfl
  wellPlaced := State.wellPlaced_start _

theorem Stands.halted_eq_false {m : Machine η} {p : Program} {radius k : Nat} {c : Config η}
    (h : m.Stands p radius k c) (hk : k < p.length) : m.state.halted = false := by
  have hp := h.place
  rw [Machine.place, h.program] at hp
  cases hh : m.state.halted with
  | false => rfl
  | true =>
    rw [hh, if_pos rfl] at hp
    omega

theorem Stands.position_eq {m : Machine η} {p : Program} {radius k : Nat} {c : Config η}
    (h : m.Stands p radius k c) (hk : k < p.length) : m.state.cursor.position = k := by
  have hp := h.place
  rwa [Machine.place, h.halted_eq_false hk, if_neg Bool.false_ne_true] at hp

theorem Stands.index_le {m : Machine η} {p : Program} {radius k : Nat} {c : Config η}
    (h : m.Stands p radius k c) : k ≤ p.length := by
  obtain ⟨rfl, -, rfl, -, hw⟩ := h
  rw [Machine.place]
  split
  · exact Nat.le_refl _
  · obtain hlt | ⟨-, hz⟩ := hw.cursor_inside <;> omega

/-! ## Moving on -/

theorem advance_of_lt {m : Machine η} (h : m.state.cursor.position + 1 < m.state.cursor.length) :
    m.advance = (.next, m.update fun s => { s with
      cursor := { s.cursor with position := s.cursor.position + 1 }, steps := s.steps + 1 }) := by
  simp only [Machine.advance, State.advance_of_lt h]
  rfl

theorem advance_of_last {m : Machine η}
    (h : ¬ m.state.cursor.position + 1 < m.state.cursor.length) :
    m.advance = (.halt, m.update fun s => { s with halted := true, steps := s.steps + 1 }) := by
  simp only [Machine.advance, State.advance_of_last h]
  rfl

theorem Stands.advance {m : Machine η} {p : Program} {radius k : Nat} {c : Config η}
    (h : m.Stands p radius k c) (hk : k < p.length) :
    ∃ m', m.advance = (if k + 1 < p.length then .next else .halt, m') ∧
      m'.Stands p radius (k + 1) c := by
  have hpos := h.position_eq hk
  have hh := h.halted_eq_false hk
  obtain ⟨rfl, rfl, -, rfl, hlen, -, -⟩ := h
  obtain ⟨⟨program, ⟨length, position⟩, pointer, tape, halted, steps⟩, host, radius⟩ := m
  simp only at hlen hk hpos hh
  subst hlen hh hpos
  by_cases hnext : position + 1 < program.length
  · refine ⟨⟨⟨program, ⟨program.length, position + 1⟩, pointer, tape, false, steps + 1⟩, host, radius⟩,
      ?_, rfl, rfl, rfl, rfl, ⟨rfl, Or.inl hnext, fun h => by cases h⟩⟩
    simp only [Machine.advance, State.advance, Cursor.advance_one, if_pos hnext]
  · have hend : position + 1 = program.length := by omega
    refine ⟨⟨⟨program, ⟨program.length, position⟩, pointer, tape, true, steps + 1⟩, host, radius⟩,
      ?_, rfl, rfl, hend.symm, rfl, ⟨rfl, Or.inl hk, fun _ => Or.inr hend⟩⟩
    simp only [Machine.advance, State.advance, Cursor.advance_one, if_neg hnext]

/-- A jump to a partner bracket, or the fault of the bracket at the place. -/
theorem Stands.jump_cases {m : Machine η} {p : Program} {radius k : Nat} {c : Config η}
    (h : m.Stands p radius k c) (hk : k < p.length) {partner : Except Edge Nat}
    (hb : ∀ j, partner = .ok j → j < p.length) :
    (∃ m' j, m.enact (.ok (.jump partner), m.host) = (.ok (), m') ∧ j < p.length ∧
        m'.Stands p radius j c ∧ p.leap radius k partner = .ok (j + 1)) ∨
      m.enact (.ok (.jump partner), m.host) = (.error (p.unmatchedFault k radius), m) ∧
        p.leap radius k partner = .error (p.unmatchedFault k radius) := by
  have hpos := h.position_eq hk
  have hh := h.halted_eq_false hk
  cases partner with
  | error edge =>
    refine Or.inr ⟨?_, rfl⟩
    rw [← hpos, ← h.program, ← h.radius]
    rfl
  | ok j =>
    obtain ⟨rfl, rfl, -, rfl, hlen, -, -⟩ := h
    refine Or.inl ⟨⟨{ m.state with cursor := { m.state.cursor with position := j } }, m.host,
      m.radius⟩, j, rfl, hb j rfl, ⟨rfl, rfl, ?_, rfl, ⟨hlen, Or.inl (hb j rfl), fun h => ?_⟩⟩, rfl⟩
    · simp only [Machine.place, hh, Bool.false_eq_true, if_false]
    · rw [hh] at h
      cases h

theorem Stands.update {m : Machine η} {p : Program} {radius k : Nat} {c : Config η}
    (h : m.Stands p radius k c) {c' : Config η} {tape : Tape} (ht : tape.get = c'.cells) :
    (⟨{ m.state with pointer := c'.pointer, tape }, c'.host, m.radius⟩ : Machine η).Stands p radius k
      c' := by
  obtain ⟨rfl, rfl, rfl, -, hw⟩ := h
  refine ⟨rfl, rfl, rfl, ?_, ⟨hw.cursor_length, hw.cursor_inside, hw.halted_at_end⟩⟩
  simp only [Machine.config, ht]

variable [Host η]

theorem step_of_ok {m m₁ : Machine η} {ch : Char} (hh : m.state.halted = false)
    (hc : m.state.program.get? m.state.cursor.position = some ch)
    (hp : m.performChar ch = (.ok (), m₁)) : m.step = m₁.advance := by
  simp only [step, hh, Bool.false_eq_true, if_false, hc, hp]

theorem step_of_error {m m₁ : Machine η} {ch : Char} {fault : Fault} (hh : m.state.halted = false)
    (hc : m.state.program.get? m.state.cursor.position = some ch)
    (hp : m.performChar ch = (.error fault, m₁)) : m.step = (.fail fault, m₁) := by
  simp only [step, hh, Bool.false_eq_true, if_false, hc, hp]

/-! ## One step -/

/-- What an action does to a machine: the pointer, the tape and the host change as the configuration
does, and a refused call changes the host alone. -/
theorem perform_action (m : Machine η) (a : Action) :
    ∃ pointer tape, m.perform a.instruction = ((Action.perform m.config a).1,
        ⟨{ m.state with pointer, tape }, (Action.perform m.config a).2.host, m.radius⟩) ∧
      pointer = (Action.perform m.config a).2.pointer ∧
      tape.get = (Action.perform m.config a).2.cells ∧
      ∀ fault, (Action.perform m.config a).1 = .error fault →
        pointer = m.state.pointer ∧ tape = m.state.tape := by
  have hset : ∀ v, (m.state.tape.set m.state.pointer v).get
      = fun i => if m.state.pointer = i then v else m.state.tape.get i :=
    fun v => funext fun i => m.state.tape.get_set m.state.pointer i v
  rw [perform_eq]
  cases a with
  | right => exact ⟨_, _, rfl, rfl, rfl, fun _ h => by cases h⟩
  | left => exact ⟨_, _, rfl, rfl, rfl, fun _ h => by cases h⟩
  | increment => exact ⟨_, _, rfl, rfl, hset _, fun _ h => by cases h⟩
  | decrement => exact ⟨_, _, rfl, rfl, hset _, fun _ h => by cases h⟩
  | write =>
    have hcell : m.config.cell = m.state.cell := rfl
    have hhost : m.config.host = m.host := rfl
    simp only [Action.instruction, State.request, Request.answer, Action.perform, hcell, hhost]
    obtain ⟨_ | _, host⟩ := Host.write m.host m.state.cell
    · exact ⟨_, _, rfl, rfl, rfl, fun _ _ => ⟨rfl, rfl⟩⟩
    · exact ⟨_, _, rfl, rfl, rfl, fun _ _ => ⟨rfl, rfl⟩⟩
  | read =>
    have hhost : m.config.host = m.host := rfl
    simp only [Action.instruction, State.request, Request.answer, Action.perform, hhost]
    obtain ⟨_ | _, host⟩ := Host.flush m.host
    · exact ⟨_, _, rfl, rfl, rfl, fun _ _ => ⟨rfl, rfl⟩⟩
    · simp only
      obtain ⟨_ | line, host⟩ := Host.readLine host
      · exact ⟨_, _, rfl, rfl, rfl, fun _ _ => ⟨rfl, rfl⟩⟩
      · exact ⟨_, _, rfl, rfl, hset _, fun _ h => by cases h⟩

theorem Stands.performChar_cases {m : Machine η} {p : Program} {radius k : Nat} {c : Config η}
    (h : m.Stands p radius k c) {ch : Char} (hc : p.get? k = some ch) :
    (∃ m' j c', m.performChar ch = (.ok (), m') ∧ j < p.length ∧ m'.Stands p radius j c' ∧
        p.visit radius k c = (.ok (j + 1), c')) ∨
      ∃ m' fault c', m.performChar ch = (.error fault, m') ∧ m'.state = m.state ∧
        m'.Stands p radius k c' ∧ p.visit radius k c = (.error fault, c') := by
  have hk := Program.lt_length_of_get? hc
  have hcell : m.state.cell = c.cell := by rw [← h.config]; rfl
  cases ht : Token.ofChar ch with
  | comment =>
    refine Or.inl ⟨m, k, c, ?_, hk, h, Program.visit_comment hc ht radius c⟩
    rw [performChar, Token.ofChar_eq_comment ht]
  | action a =>
    obtain ⟨pointer, tape, hp, rfl, htape, hsame⟩ := m.perform_action a
    rw [h.config] at hp htape hsame
    have hpc : m.performChar ch = m.perform a.instruction := by
      rw [performChar, Token.ofChar_eq_action ht]
    have hs := h.update htape
    have hv := Program.visit_action hc ht radius c
    cases hr : (Action.perform c a).1 with
    | ok u =>
      rw [hr] at hp hv
      exact Or.inl ⟨_, k, _, hpc.trans hp, hk, hs, hv⟩
    | error fault =>
      obtain ⟨hpointer, rfl⟩ := hsame fault hr
      rw [hr, hpointer] at hp
      rw [hr] at hv
      rw [hpointer] at hs
      exact Or.inr ⟨_, fault, _, hpc.trans hp, rfl, hs, hv⟩
  | bracket b =>
    cases b with
    | opening =>
      obtain rfl := Token.eq_open_of_ofChar ht
      have hv := Program.visit_open hc radius c
      have hpc : m.performChar '[' =
          m.enact (.ok (if c.cell = 0 then .jump (p.closing k) else .stay), m.host) := by
        rw [performChar_eq, ← hcell, ← h.position_eq hk, ← h.program]
        rfl
      by_cases hz : c.cell = 0
      · rw [if_pos hz] at hv hpc
        rcases h.jump_cases hk fun j => Program.closing_lt_length hk with
          ⟨m', j, hm', hj, hs, hl⟩ | ⟨hm', hl⟩
        · exact Or.inl ⟨m', j, c, hpc.trans hm', hj, hs, by rw [hv, hl]⟩
        · exact Or.inr ⟨m, _, c, hpc.trans hm', rfl, h, by rw [hv, hl]⟩
      · rw [if_neg hz] at hv hpc
        exact Or.inl ⟨m, k, c, hpc, hk, h, hv⟩
    | closing =>
      obtain rfl := Token.eq_close_of_ofChar ht
      have hv := Program.visit_close hc radius c
      have hpc : m.performChar ']' =
          m.enact (.ok (if c.cell = 0 then .stay else .jump (p.opening k)), m.host) := by
        rw [performChar_eq, ← hcell, ← h.position_eq hk, ← h.program]
        rfl
      by_cases hz : c.cell = 0
      · rw [if_pos hz] at hv hpc
        exact Or.inl ⟨m, k, c, hpc, hk, h, hv⟩
      · rw [if_neg hz] at hv hpc
        rcases h.jump_cases hk fun j hj => Nat.lt_of_le_of_lt (Program.opening_le hj) hk with
          ⟨m', j, hm', hj, hs, hl⟩ | ⟨hm', hl⟩
        · exact Or.inl ⟨m', j, c, hpc.trans hm', hj, hs, by rw [hv, hl]⟩
        · exact Or.inr ⟨m, _, c, hpc.trans hm', rfl, h, by rw [hv, hl]⟩

/-- What a step does at a character: it visits the character, and goes on or fails as the visit
says. A step that fails leaves the state as it was. -/
theorem Stands.step_cases {m : Machine η} {p : Program} {radius k : Nat} {c : Config η}
    (h : m.Stands p radius k c) (hk : k < p.length) :
    (∃ m' k' c', m.step = (if k' < p.length then .next else .halt, m') ∧ k' ≤ p.length ∧
        m'.Stands p radius k' c' ∧ p.visit radius k c = (.ok k', c')) ∨
      ∃ m' fault c', m.step = (.fail fault, m') ∧ m'.state = m.state ∧
        m'.Stands p radius k c' ∧ p.visit radius k c = (.error fault, c') := by
  have hh := h.halted_eq_false hk
  obtain ⟨ch, hc⟩ := Program.exists_get? hk
  have hget : m.state.program.get? m.state.cursor.position = some ch := by
    rw [h.position_eq hk, h.program, hc]
  obtain ⟨m₁, j, c', hp, hj, hs, hv⟩ | ⟨m₁, fault, c', hp, hst, hs, hv⟩ := h.performChar_cases hc
  · obtain ⟨m', hm', hs'⟩ := hs.advance hj
    exact Or.inl ⟨m', j + 1, c', (step_of_ok hh hget hp).trans hm', hj, hs', hv⟩
  · exact Or.inr ⟨m₁, fault, c', step_of_error hh hget hp, hst, hs, hv⟩

theorem Stands.step_ok {m : Machine η} {p : Program} {radius k k' : Nat} {c c' : Config η}
    (h : m.Stands p radius k c) (hk : k < p.length) (hv : p.visit radius k c = (.ok k', c')) :
    ∃ m', m.step = (if k' < p.length then .next else .halt, m') ∧ m'.Stands p radius k' c' := by
  obtain ⟨m', k₁, c₁, hm, -, hs, hv₁⟩ | ⟨m', fault, c₁, -, -, -, hv₁⟩ := h.step_cases hk
  · rw [hv] at hv₁
    cases hv₁
    exact ⟨m', hm, hs⟩
  · rw [hv] at hv₁
    cases hv₁

theorem Stands.step_error {m : Machine η} {p : Program} {radius k : Nat} {fault : Fault}
    {c c' : Config η} (h : m.Stands p radius k c) (hk : k < p.length)
    (hv : p.visit radius k c = (.error fault, c')) :
    ∃ m', m.step = (.fail fault, m') ∧ m'.Stands p radius k c' := by
  obtain ⟨m', k₁, c₁, -, -, -, hv₁⟩ | ⟨m', fault₁, c₁, hm, -, hs, hv₁⟩ := h.step_cases hk
  · rw [hv] at hv₁
    cases hv₁
  · rw [hv] at hv₁
    cases hv₁
    exact ⟨m', hm, hs⟩

/-- At the end a step halts, whether or not the machine knows that it is there. -/
theorem Stands.step_end {m : Machine η} {p : Program} {radius k : Nat} {c : Config η}
    (h : m.Stands p radius k c) (hk : p.length ≤ k) :
    ∃ m', m.step = (.halt, m') ∧ m'.Stands p radius k c := by
  cases hh : m.state.halted with
  | true => exact ⟨m, step_of_halted m hh, h⟩
  | false =>
    obtain ⟨rfl, rfl, rfl, rfl, hw⟩ := h
    have hpos : m.place = m.state.cursor.position := by
      rw [Machine.place, hh, if_neg Bool.false_ne_true]
    obtain ⟨hlen, hzero⟩ : m.state.program.length = 0 ∧ m.state.cursor.position = 0 := by
      obtain hlt | hz := hw.cursor_inside
      · omega
      · exact hz
    have hnone : m.state.program.get? m.state.cursor.position = none := by
      rw [← Option.not_isSome_iff_eq_none, Program.get?_isSome_iff]
      omega
    refine ⟨m.update fun s => { s with halted := true }, ?_, rfl, rfl, ?_, rfl,
      ⟨hw.cursor_length, hw.cursor_inside, fun _ => Or.inl hlen⟩⟩
    · simp only [step, hh, Bool.false_eq_true, if_false, hnone]
    · rw [hpos, hzero]
      exact hlen

end Machine

end TapeLang
