import TapeLang.Host
import TapeLang.Line
import TapeLang.Program.Cursor
import TapeLang.Fault
import TapeLang.Tape

/-! Machines: a loaded program with its cursor, the tape with its pointer, and a host. The state of
a machine is kept apart from the host, so that what a call does to either can be stated alone. -/
namespace TapeLang
set_option autoImplicit false

/-! ## State -/

/-- The state of a machine without its host. -/
structure State where
  /-- The loaded program. -/
  program : Program := {}
  /-- The place of the next instruction. -/
  cursor : Cursor := program.cursor
  /-- The index of the current cell. -/
  pointer : Int := 0
  /-- The cells. -/
  tape : Tape := {}
  /-- Whether the program has ended. -/
  halted : Bool := false
  /-- The number of steps completed since the program was loaded. -/
  steps : Nat := 0

namespace State

/-- The state in which a program starts. -/
def start (p : Program) : State :=
  { program := p }

/-- The value of the current cell. -/
def cell (s : State) : UInt8 :=
  s.tape.get s.pointer

/-- The pointer one cell to the right. -/
def moveRight (s : State) : State :=
  { s with pointer := s.pointer + 1 }

/-- The pointer one cell to the left. -/
def moveLeft (s : State) : State :=
  { s with pointer := s.pointer - 1 }

/-- One added to the current cell. -/
def increment (s : State) : State :=
  { s with tape := s.tape.increment s.pointer }

/-- One subtracted from the current cell. -/
def decrement (s : State) : State :=
  { s with tape := s.tape.decrement s.pointer }

/-- A value stored in the current cell. -/
def store (s : State) (value : UInt8) : State :=
  { s with tape := s.tape.set s.pointer value }

end State

/-! ## Machines and their hosts -/

/-- A machine and its host. -/
structure Machine (η : Type) where
  /-- The state of the machine. -/
  state : State := {}
  /-- What the program talks to. -/
  host : η
  /-- The number of characters that an excerpt shows on each side of a bracket. -/
  radius : Nat := Excerpt.defaultRadius

namespace Machine

variable {η : Type}

/-- Changes the state of a machine. -/
def update (m : Machine η) (f : State → State) : Machine η :=
  match m with
  | ⟨state, host, radius⟩ => ⟨f state, host, radius⟩

/-- Changes the host of a machine. -/
def updateHost (m : Machine η) (f : η → η) : Machine η :=
  match m with
  | ⟨state, host, radius⟩ => ⟨state, f host, radius⟩

/-- Starts the loaded program anew on an empty tape. -/
def reset (m : Machine η) : Machine η :=
  m.update fun s => State.start s.program

/-- Loads a program and starts it on an empty tape. -/
def load (m : Machine η) (source : String) : Machine η :=
  m.update fun _ => State.start (Program.ofString source)

@[simp] theorem state_update (m : Machine η) (f : State → State) :
    (m.update f).state = f m.state := rfl

@[simp] theorem host_update (m : Machine η) (f : State → State) : (m.update f).host = m.host := rfl

@[simp] theorem radius_update (m : Machine η) (f : State → State) :
    (m.update f).radius = m.radius := rfl

@[simp] theorem state_load (m : Machine η) (source : String) :
    (m.load source).state = State.start (Program.ofString source) := rfl

@[simp] theorem state_reset (m : Machine η) :
    m.reset.state = State.start m.state.program := rfl

variable [Host η]

/-- Writes the current cell as one byte. -/
def writeCell (m : Machine η) : Except Fault Unit × Machine η :=
  match m with
  | ⟨state, host, radius⟩ =>
    match Host.write host state.cell with
    | (true, host) => (.ok (), ⟨state, host, radius⟩)
    | (false, host) => (.error .output, ⟨state, host, radius⟩)

/-- Makes the output written so far visible. -/
def flush (m : Machine η) : Except Fault Unit × Machine η :=
  match m with
  | ⟨state, host, radius⟩ =>
    match Host.flush host with
    | (true, host) => (.ok (), ⟨state, host, radius⟩)
    | (false, host) => (.error .output, ⟨state, host, radius⟩)

/-- Reads one line and stores its value in the current cell. The output is flushed first, so that a
question is seen before its answer is awaited. -/
def readCell (m : Machine η) : Except Fault Unit × Machine η :=
  match m.flush with
  | (.error fault, m) => (.error fault, m)
  | (.ok (), ⟨state, host, radius⟩) =>
    match Host.readLine host with
    | (none, host) => (.error .input, ⟨state, host, radius⟩)
    | (some line, host) => (.ok (), ⟨state.store (Line.value line), host, radius⟩)

end Machine

end TapeLang
