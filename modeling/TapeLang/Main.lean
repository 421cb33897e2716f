import TapeLang.CommandLine.Command

/-! The program itself: it connects the commands to the arguments, the files and the console of the
system. Standard input is read one line at a time, at the moment when a line is asked for, and the
output written before is shown first. -/
namespace TapeLang.CommandLine
set_option autoImplicit false

/-- The reason of the system for not reading a file. -/
def fileError : IO.Error → FileError
  | .noFileOrDirectory _ _ _ => .missing
  | .inappropriateType _ code _ => if code = 21 then .isDirectory else .notDirectory
  | error => .other (toString error)

/-- The bytes of a file of the system. -/
def readFile (file : String) : IO (Except FileError ByteArray) := do
  try return .ok (← IO.FS.readBinFile file)
  catch error => return .error (fileError error)

/-- Reads bytes up to and with a newline, or to the end of the input. -/
partial def readThroughNewline (input : IO.FS.Stream) (line : ByteArray) : IO ByteArray := do
  let next ← input.read 1
  if next.isEmpty then return line
  let line := line ++ next
  if next.toList = [10] then return line
  readThroughNewline input line

/-- Shows the output of a machine. -/
def showOutput (m : Machine Console) : IO (Machine Console) := do
  let output ← IO.getStdout
  output.write m.host.output
  output.flush
  return { m with host := { m.host with output := ByteArray.empty } }

/-- Shows the output of a machine and hands it the next line of standard input. -/
def supplyLine (m : Machine Console) : IO (Machine Console) := do
  let m ← showOutput m
  let line ← readThroughNewline (← IO.getStdin) ByteArray.empty
  return { m with host := { m.host with input := line.toList } }

/-- Runs a loaded program to its end. -/
partial def drive (m : Machine Console) : IO (Except Fault Unit × Machine Console) := do
  let m ← if m.awaitsLine then supplyLine m else pure m
  match m.step with
  | (.next, m) => drive m
  | (.halt, m) => return m.finish
  | (.fail fault, m) => return m.abandon fault

/-- Asks for lines until the session is over. -/
partial def converse (s : Session) : IO Unit := do
  let s := s.say Session.prompt
  let (entry, s) := Session.listen { s with machine := ← supplyLine s.machine }
  let (turn, s) := s.answer entry
  let machine ← showOutput s.machine
  IO.eprint s.errors
  let s : Session := { machine }
  match turn with
  | .stop => return
  | .again => converse s
  | .execute program =>
    let (result, machine) ← drive (s.machine.load program)
    converse (s.conclude result machine)

/-- Ends with what a command left behind. -/
def conclude (outcome : Outcome) : IO UInt32 := do
  (← IO.getStdout).write outcome.output
  IO.eprint outcome.errors
  return UInt32.ofNat outcome.exit

/-- Runs a source file and ends with its result. -/
def runFile (file : String) (dialect : Dialect) (radius : Nat) : IO UInt32 := do
  let content ← readFile file
  match sourceText (fun _ => content) file with
  | .error message => conclude (Outcome.failure message)
  | .ok source =>
    let (result, m) ← drive ((machine radius []).load (dialect.program source))
    conclude (Outcome.ofResult result m.host.output)

/-- Does what the arguments ask for and ends with an exit code. -/
def perform (arguments : List String) : IO UInt32 := do
  match Command.parse? arguments with
  | none => conclude Outcome.misused
  | some .session =>
    converse (Session.start [])
    return 0
  | some (.run file dialect radius) => runFile file dialect radius
  | some command =>
    let content ← readFile (command.file?.getD "")
    conclude ((command.performWithin 0 (fun _ => content) []).getD Outcome.misused)

end TapeLang.CommandLine

/-- The program. -/
def main (arguments : List String) : IO UInt32 :=
  TapeLang.CommandLine.perform arguments
