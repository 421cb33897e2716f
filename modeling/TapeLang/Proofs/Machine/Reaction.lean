import TapeLang.Machine.Step

/-! A step taken apart.

From its state alone a machine knows what it asks of its host (`State.due`). The host answers with what
is to be done to the state (`Request.answer`), or with a fault, and then the state alone decides what
comes of it (`State.react`). `Machine.step_eq` says that a step is these three parts in a row, and
`Machine.perform_eq` says so of one instruction; `Machine.outcome_step` lists what can come of a step.
What only some of the parts can see, such as the radius or the host, is followed through those parts,
by the few kinds of `Request` and `Effect`, and the instructions are not opened again. -/
namespace TapeLang
set_option autoImplicit false

/-! ## The parts -/

/-- What is to be done to a state. -/
inductive Effect where
  | stay
  | right
  | left
  | store (value : UInt8)
  | jump (partner : Except Edge Nat)

/-- What is asked of the host, before it is known what is to be done. -/
inductive Request where
  | nothing (effect : Effect)
  | write (byte : UInt8)
  | read

namespace State

/-- What an instruction asks for. -/
def request (s : State) : Instruction → Request
  | .right => .nothing .right
  | .left => .nothing .left
  | .increment => .nothing (.store (s.cell + 1))
  | .decrement => .nothing (.store (s.cell - 1))
  | .openLoop =>
    .nothing (if s.cell = 0 then .jump (s.program.closing s.cursor.position) else .stay)
  | .closeLoop =>
    .nothing (if s.cell = 0 then .stay else .jump (s.program.opening s.cursor.position))
  | .write => .write s.cell
  | .read => .read

/-- What a character asks for, which for a comment is nothing. -/
def requestChar (s : State) (c : Char) : Request :=
  match Instruction.ofChar? c with
  | some instruction => s.request instruction
  | none => .nothing .stay

/-- What the next step asks for, unless the program has ended. -/
def due (s : State) : Option Request :=
  if s.halted then none else (s.program.get? s.cursor.position).map s.requestChar

def apply (s : State) (radius : Nat) : Effect → Except Fault State
  | .stay => .ok s
  | .right => .ok s.moveRight
  | .left => .ok s.moveLeft
  | .store value => .ok (s.store value)
  | .jump partner => s.jump radius partner

/-- What comes of an answer, before the cursor moves on. -/
def enact (s : State) (radius : Nat) (answer : Except Fault Effect) : Except Fault State :=
  answer.bind (s.apply radius)

/-- What comes of an answer in a whole step. -/
def react (s : State) (radius : Nat) (answer : Except Fault Effect) : Step × State :=
  match s.enact radius answer with
  | .ok s => s.advance
  | .error fault => (.fail fault, s)

/-- An effect leaves the program and the count of steps as they are. -/
theorem apply_ok {s s' : State} {radius : Nat} {effect : Effect}
    (h : s.apply radius effect = .ok s') :
    ∃ cursor pointer tape, s' = { s with cursor, pointer, tape } := by
  cases effect with
  | stay | right | left | store =>
    cases h
    exact ⟨_, _, _, rfl⟩
  | jump partner =>
    cases partner with
    | ok index =>
      cases h
      exact ⟨_, _, _, rfl⟩
    | error edge => cases h

end State

variable {η : Type}

def Request.answer [Host η] (host : η) : Request → Except Fault Effect × η
  | .nothing effect => (.ok effect, host)
  | .write byte =>
    match Host.write host byte with
    | (true, host) => (.ok .stay, host)
    | (false, host) => (.error .output, host)
  | .read =>
    match Host.flush host with
    | (false, host) => (.error .output, host)
    | (true, host) =>
      match Host.readLine host with
      | (none, host) => (.error .input, host)
      | (some line, host) => (.ok (.store (Line.value line)), host)

/-- The number of lines that a request takes. -/
def Request.lines : Request → Nat
  | .read => 1
  | _ => 0

theorem State.lines_requestChar (s : State) (c : Char) :
    (s.requestChar c).lines = if Instruction.ofChar? c = some .read then 1 else 0 := by
  unfold requestChar
  cases Instruction.ofChar? c with
  | none => rfl
  | some i => cases i <;> rfl

/-- The answers to a call of the host: a fault, or no more than a value to be stored. -/
inductive Request.Called : Except Fault Effect → Prop
  | stay : Called (.ok .stay)
  | store (value : UInt8) : Called (.ok (.store value))
  | output : Called (.error .output)
  | input : Called (.error .input)

section

variable [Host η] {host : η}

theorem Request.called_write (byte : UInt8) : Called ((write byte).answer host).1 := by
  simp only [answer]
  split
  · exact Called.stay
  · exact Called.output

theorem Request.called_read : Called (read.answer host).1 := by
  simp only [answer]
  split
  · exact Called.output
  · split
    · exact Called.input
    · exact Called.store _

theorem Request.fault_of_answer {request : Request} {fault : Fault}
    (h : (request.answer host).1 = .error fault) : fault = .output ∨ fault = .input := by
  have hcalled : Called (request.answer host).1 := by
    cases request with
    | nothing effect => cases h
    | write byte => exact called_write byte
    | read => exact called_read
  rw [h] at hcalled
  cases hcalled with
  | output => exact Or.inl rfl
  | input => exact Or.inr rfl

end

/-! ## Moving on -/

namespace State

theorem advance_of_lt {s : State} (h : s.cursor.position + 1 < s.cursor.length) :
    s.advance = (.next, { s with
      cursor := { s.cursor with position := s.cursor.position + 1 }, steps := s.steps + 1 }) := by
  simp only [advance, Cursor.advance_one, if_pos h]

theorem advance_of_last {s : State} (h : ¬ s.cursor.position + 1 < s.cursor.length) :
    s.advance = (.halt, { s with halted := true, steps := s.steps + 1 }) := by
  simp only [advance, Cursor.advance_one, if_neg h]

/-- Moving on counts a step, and either goes on with another character or halts. -/
theorem advance_cases (s : State) :
    (∃ cursor, s.advance = (.next, { s with cursor, steps := s.steps + 1 })) ∨
      s.advance = (.halt, { s with halted := true, steps := s.steps + 1 }) := by
  by_cases h : s.cursor.position + 1 < s.cursor.length
  · exact Or.inl ⟨_, advance_of_lt h⟩
  · exact Or.inr (advance_of_last h)

end State

/-! ## The parts in a row -/

namespace Machine

/-- What comes of an answer for a machine, before the cursor moves on. -/
def enact (m : Machine η) (answer : Except Fault Effect × η) : Except Fault Unit × Machine η :=
  match m.state.enact m.radius answer.1 with
  | .ok state => (.ok (), ⟨state, answer.2, m.radius⟩)
  | .error fault => (.error fault, ⟨m.state, answer.2, m.radius⟩)

/-- What comes of an answer for a machine in a whole step. -/
def react (m : Machine η) (answer : Except Fault Effect × η) : Step × Machine η :=
  ((m.state.react m.radius answer.1).1, ⟨(m.state.react m.radius answer.1).2, answer.2, m.radius⟩)

theorem jump_eq (m : Machine η) (partner : Except Edge Nat) :
    m.jump partner = m.enact (.ok (.jump partner), m.host) := by
  obtain ⟨state, host, radius⟩ := m
  cases partner <;> rfl

variable [Host η]

theorem flush_eq (m : Machine η) :
    m.flush = (if (Host.flush m.host).1 then .ok () else .error .output,
      ⟨m.state, (Host.flush m.host).2, m.radius⟩) := by
  obtain ⟨state, host, radius⟩ := m
  simp only [flush]
  obtain ⟨_ | _, host'⟩ := Host.flush host <;> rfl

theorem writeCell_eq (m : Machine η) :
    m.writeCell = m.enact ((Request.write m.state.cell).answer m.host) := by
  obtain ⟨state, host, radius⟩ := m
  simp only [writeCell, Request.answer]
  obtain ⟨_ | _, host'⟩ := Host.write host state.cell <;> rfl

theorem readCell_eq (m : Machine η) : m.readCell = m.enact (Request.read.answer m.host) := by
  obtain ⟨state, host, radius⟩ := m
  simp only [readCell, flush, Request.answer]
  obtain ⟨_ | _, host'⟩ := Host.flush host
  · rfl
  · simp only
    obtain ⟨_ | line, host''⟩ := Host.readLine host' <;> rfl

/-- An instruction asks the host, and what comes of it is decided by the answer. -/
theorem perform_eq (m : Machine η) (i : Instruction) :
    m.perform i = m.enact ((m.state.request i).answer m.host) := by
  cases i with
  | right | left | increment | decrement => rfl
  | openLoop =>
    simp only [perform, State.request]
    split
    · exact m.jump_eq _
    · rfl
  | closeLoop =>
    simp only [perform, State.request]
    split
    · rfl
    · exact m.jump_eq _
  | write => exact m.writeCell_eq
  | read => exact m.readCell_eq

theorem performChar_eq (m : Machine η) (c : Char) :
    m.performChar c = m.enact ((m.state.requestChar c).answer m.host) := by
  unfold performChar State.requestChar
  cases Instruction.ofChar? c with
  | none => rfl
  | some i => exact m.perform_eq i

/-- A step asks the host for what is due, and what comes of it is decided by the answer. -/
theorem step_eq (m : Machine η) :
    m.step = match m.state.due with
      | none => (.halt, m.update fun s => { s with halted := true })
      | some request => m.react (request.answer m.host) := by
  unfold State.due
  cases hh : m.state.halted with
  | true =>
    obtain ⟨⟨program, cursor, pointer, tape, halted, steps⟩, host, radius⟩ := m
    obtain rfl : halted = true := hh
    rfl
  | false =>
    simp only [step, hh, Bool.false_eq_true, if_false]
    cases m.state.program.get? m.state.cursor.position with
    | none => rfl
    | some c =>
      simp only [performChar_eq, enact, react, State.react, Option.map_some]
      cases m.state.enact m.radius ((m.state.requestChar c).answer m.host).1 <;> rfl

/-- All that can come of a step: the program is over, or an effect is carried out and the step counted,
or there is a fault and the state stays as it was. -/
inductive Outcome (m : Machine η) : Step × Machine η → Prop
  | rest (hd : m.state.due = none) :
      Outcome m (.halt, m.update fun s => { s with halted := true })
  | next {effect : Effect} {s : State} (hs : m.state.apply m.radius effect = .ok s) (cursor : Cursor)
      (host : η) : Outcome m (.next, ⟨{ s with cursor, steps := s.steps + 1 }, host, m.radius⟩)
  | halt {effect : Effect} {s : State} (hs : m.state.apply m.radius effect = .ok s) (host : η) :
      Outcome m (.halt, ⟨{ s with halted := true, steps := s.steps + 1 }, host, m.radius⟩)
  | fail (fault : Fault) (host : η) : Outcome m (.fail fault, ⟨m.state, host, m.radius⟩)

theorem outcome_step (m : Machine η) : m.Outcome m.step := by
  rw [step_eq]
  cases hd : m.state.due with
  | none => exact Outcome.rest hd
  | some request =>
    simp only [react, State.react, State.enact]
    obtain ⟨fault | effect, host⟩ := request.answer m.host
    · exact Outcome.fail fault host
    · simp only [Except.bind]
      cases hs : m.state.apply m.radius effect with
      | error fault => exact Outcome.fail fault host
      | ok s =>
        obtain ⟨cursor, ha⟩ | ha := s.advance_cases
        · simp only [ha]
          exact Outcome.next hs cursor host
        · simp only [ha]
          exact Outcome.halt hs host

end Machine

end TapeLang
