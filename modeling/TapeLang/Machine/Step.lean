import TapeLang.Instruction
import TapeLang.Machine
import TapeLang.Program.Brackets

/-! One step of a machine: perform the instruction under the cursor, then move the cursor on by one
character. A bracket that jumps first puts the cursor on its partner, so that the step ends past the
partner. Moving past the last character is how a program ends; a bracket without a partner is a
fault, and so is a call that the host refuses. -/
namespace TapeLang
set_option autoImplicit false

/-- How a step ended. -/
inductive Step where
  /-- There is another character to go on with. -/
  | next
  /-- The program has ended. -/
  | halt
  /-- The instruction under the cursor could not be performed. -/
  | fail (fault : Fault)
  deriving DecidableEq

/-- A step's result as text. -/
def Step.text : Step → String
  | next => "continue"
  | halt => "halt"
  | fail fault => "fail: " ++ fault.message

namespace State

/-- Puts the cursor on a partner bracket. If the search found none, the fault is that of the bracket
under the cursor. -/
def jump (s : State) (radius : Nat) (partner : Except Edge Nat) : Except Fault State :=
  match partner with
  | .ok index => .ok { s with cursor := { s.cursor with position := index } }
  | .error _ => .error (s.program.unmatchedFault s.cursor.position radius)

/-- Moves the cursor on by one character and counts the step. -/
def advance (s : State) : Step × State :=
  match s.cursor.advance 1 with
  | .ok cursor => (.next, { s with cursor, steps := s.steps + 1 })
  | .error .afterEnd => (.halt, { s with halted := true, steps := s.steps + 1 })
  | .error .beforeStart => (.fail (.outside .beforeStart), { s with steps := s.steps + 1 })

end State

namespace Machine

variable {η : Type}

/-- The machine after a jump; a failed jump leaves it as it was. -/
def jump (m : Machine η) (partner : Except Edge Nat) : Except Fault Unit × Machine η :=
  match m with
  | ⟨state, host, radius⟩ =>
    match state.jump radius partner with
    | .ok state => (.ok (), ⟨state, host, radius⟩)
    | .error fault => (.error fault, ⟨state, host, radius⟩)

/-- Performs an instruction without moving on. -/
@[specialize] def perform [Host η] (m : Machine η) :
    Instruction → Except Fault Unit × Machine η
  | .right => (.ok (), m.update State.moveRight)
  | .left => (.ok (), m.update State.moveLeft)
  | .increment => (.ok (), m.update State.increment)
  | .decrement => (.ok (), m.update State.decrement)
  | .openLoop =>
    if m.state.cell = 0 then m.jump (m.state.program.closing m.state.cursor.position)
    else (.ok (), m)
  | .closeLoop =>
    if m.state.cell = 0 then (.ok (), m)
    else m.jump (m.state.program.opening m.state.cursor.position)
  | .write => m.writeCell
  | .read => m.readCell

/-- Performs what a character says, which for a comment is nothing. -/
@[specialize] def performChar [Host η] (m : Machine η) (c : Char) :
    Except Fault Unit × Machine η :=
  match Instruction.ofChar? c with
  | some instruction => m.perform instruction
  | none => (.ok (), m)

/-- Moves the cursor on by one character. -/
def advance (m : Machine η) : Step × Machine η :=
  match m with
  | ⟨state, host, radius⟩ =>
    let (step, state) := state.advance
    (step, ⟨state, host, radius⟩)

/-- One step. A machine that has halted stays as it is; a program without characters halts at
once. -/
@[specialize] def step [Host η] (m : Machine η) : Step × Machine η :=
  if m.state.halted then (.halt, m)
  else
    match m.state.program.get? m.state.cursor.position with
    | none => (.halt, m.update fun s => { s with halted := true })
    | some c =>
      match m.performChar c with
      | (.ok (), m) => m.advance
      | (.error fault, m) => (.fail fault, m)

/-- A machine that has halted does nothing more. -/
theorem step_of_halted [Host η] (m : Machine η) (h : m.state.halted = true) :
    m.step = (.halt, m) := by
  rw [step, if_pos h]

/-- Whether the next step reads a line. -/
def awaitsLine (m : Machine η) : Bool :=
  !m.state.halted &&
    (m.state.program.get? m.state.cursor.position).bind Instruction.ofChar? = some .read

end Machine

end TapeLang
