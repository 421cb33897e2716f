import TapeLang.Host

/-! A host made of two exchangeable devices, one for output and one for input, with a record of
every call made to them. A device that is not attached is never called: without one, output is
dropped and each line is empty. -/
namespace TapeLang
set_option autoImplicit false

/-- A place that takes output. -/
class Sink (ω : Type) where
  /-- Takes one byte; `false` if it was refused. -/
  write : ω → UInt8 → Bool × ω
  /-- Makes the bytes taken so far visible; `false` if that was refused. -/
  flush : ω → Bool × ω

/-- A place that lines come from. -/
class Source (ι : Type) where
  /-- Gives the next line; `none` if it cannot be read. -/
  readLine : ι → Option String × ι

/-- One call to an attached device, with whether it succeeded. -/
inductive Call where
  /-- A byte was written. -/
  | write (byte : UInt8) (succeeded : Bool)
  /-- The output was flushed. -/
  | flush (succeeded : Bool)
  /-- A line was read. -/
  | readLine (succeeded : Bool)
  deriving DecidableEq

/-- The attached devices and the calls made to them so far. -/
structure Devices (ω ι : Type) where
  /-- Where output goes, if anything is attached. -/
  output : Option ω := none
  /-- Where lines come from, if anything is attached. -/
  input : Option ι := none
  /-- The calls made so far, in order. -/
  calls : Array Call := #[]

namespace Devices

variable {ω ι : Type}

/-- Attaches a device for output in place of the one before it. -/
def attachOutput (d : Devices ω ι) (output : ω) : Devices ω ι :=
  { d with output := some output }

/-- Attaches a device for input in place of the one before it. -/
def attachInput (d : Devices ω ι) (input : ι) : Devices ω ι :=
  { d with input := some input }

/-- Writes one byte. -/
def write [Sink ω] (d : Devices ω ι) (byte : UInt8) : Bool × Devices ω ι :=
  match d with
  | ⟨some out, input, calls⟩ =>
    let (succeeded, out) := Sink.write out byte
    (succeeded, ⟨some out, input, calls.push (.write byte succeeded)⟩)
  | ⟨none, input, calls⟩ => (true, ⟨none, input, calls⟩)

/-- Flushes the output. -/
def flush [Sink ω] (d : Devices ω ι) : Bool × Devices ω ι :=
  match d with
  | ⟨some out, input, calls⟩ =>
    let (succeeded, out) := Sink.flush out
    (succeeded, ⟨some out, input, calls.push (.flush succeeded)⟩)
  | ⟨none, input, calls⟩ => (true, ⟨none, input, calls⟩)

/-- Reads one line. -/
def readLine [Source ι] (d : Devices ω ι) : Option String × Devices ω ι :=
  match d with
  | ⟨output, some source, calls⟩ =>
    let (line, source) := Source.readLine source
    (line, ⟨output, some source, calls.push (.readLine line.isSome)⟩)
  | ⟨output, none, calls⟩ => (some "", ⟨output, none, calls⟩)

instance [Sink ω] [Source ι] : Host (Devices ω ι) where
  write := write
  flush := flush
  readLine := readLine

end Devices

end TapeLang
