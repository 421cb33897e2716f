import TapeLang.CommandLine.Outcome
import TapeLang.Host.Console
import TapeLang.Machine.Run
import TapeLang.Shorthand
import TapeLang.Text.Blank

/-! Sessions: shorthand lines taken from standard input and run one after the other, on one machine.
A program that reads a line takes it from the same standard input, after the line that it stands
on. -/
namespace TapeLang.CommandLine
set_option autoImplicit false

/-! ## Lines typed by the user -/

/-- What standard input gives when a line is asked for. -/
inductive Entry where
  /-- A line, without its newline. -/
  | line (text : String)
  /-- The user gave up the line. -/
  | interrupted
  /-- There is no more input. -/
  | ended
  /-- The line is not UTF-8. -/
  | unreadable
  deriving DecidableEq

/-- What a line asks for. -/
inductive Request where
  /-- End the session. -/
  | quit
  /-- Show what a shorthand text stands for. -/
  | expand (code : String)
  /-- Run a shorthand text. -/
  | run (code : String)
  deriving DecidableEq

/-- The entry that a line stands for, as it was read with its newline. U+0003 alone gives up the
line, and U+0004 alone or no line at all is the end. -/
def Entry.ofLine : Option String → Entry
  | none => .unreadable
  | some typed =>
    if typed = "" then .ended
    else
      let text := typed.toList
      let text := if text.getLast? = some '\n' then text.dropLast else text
      if text = ['\x04'] then .ended
      else if text = ['\x03'] then .interrupted
      else .line (String.ofList text)

/-- The request of a line; a blank line asks for nothing. -/
def Request.ofLine? (line : String) : Option Request :=
  let text := Text.trim line.toList
  if text.isEmpty then none
  else if text = "quit".toList then some .quit
  else if "expand ".toList.isPrefixOf text then
    some (.expand (String.ofList (text.drop "expand ".length)))
  else some (.run (String.ofList text))

/-! ## The session -/

/-- A machine on the console, and the text on standard error so far. -/
structure Session where
  /-- The machine that runs every line. -/
  machine : Machine Console := { host := {} }
  /-- The text on standard error. -/
  errors : String := ""

namespace Session

/-- How the session goes on after an entry. -/
inductive Turn where
  /-- The session is over. -/
  | stop
  /-- The next line is asked for. -/
  | again
  /-- A program is run first. -/
  | execute (program : String)
  deriving DecidableEq

/-- What a session says first. -/
def banner : String :=
  "\nbrainlove v0.1.0\n\nType `quit` or press Ctrl-D to exit\n" ++
    "Type `expand <code>` to see the brainfuck a line expands to\n" ++
    "Every line starts from a clean tape\n\n"

/-- What a session says when it asks for a line. -/
def prompt : String := "\n> "

/-- Says something on standard output. -/
def say (s : Session) (text : String) : Session :=
  match s with
  | ⟨⟨state, console, radius⟩, errors⟩ => ⟨⟨state, console.print text, radius⟩, errors⟩

/-- Says something on standard error. -/
def complain (s : Session) (text : String) : Session :=
  { s with errors := s.errors ++ text }

/-- A session with given bytes to read, after its first words. -/
def start (input : List UInt8) : Session :=
  say { machine := { host := { input } } } banner

/-- Takes the next line of standard input. -/
def listen (s : Session) : Entry × Session :=
  match s with
  | ⟨⟨state, console, radius⟩, errors⟩ =>
    let (line, console) := console.readLine
    (Entry.ofLine line, ⟨⟨state, console, radius⟩, errors⟩)

/-- Does what an entry asks for, up to running a program. -/
def answer (s : Session) : Entry → Turn × Session
  | .line text =>
    match Request.ofLine? text with
    | none => (.again, s)
    | some .quit => (.stop, s)
    | some (.expand code) => (.again, s.say (TapeLang.expand code ++ "\n"))
    | some (.run code) => (.execute (TapeLang.expand code), s)
  | .interrupted => (.again, s.say "^C\n")
  | .ended => (.stop, s.say "\nGoodbye!\n")
  | .unreadable => (.stop, s.complain "Input error: I/O error\n")

/-- Takes back the machine after a program has run, and reports its fault if it had one. -/
def conclude (s : Session) (result : Except Fault Unit) (machine : Machine Console) : Session :=
  match result with
  | .ok () => { s with machine }
  | .error fault => complain { s with machine } (fault.report ++ "\n")

/-- Asks for lines until the session is over. Each line takes one unit of fuel, and what is left
bounds the steps of the program on it. -/
def converseWithin : (fuel : Nat) → Session → Option Session
  | 0, _ => none
  | fuel + 1, s =>
    let (entry, s) := (s.say prompt).listen
    match s.answer entry with
    | (.stop, s) => some s
    | (.again, s) => converseWithin fuel s
    | (.execute program, s) =>
      match s.machine.executeWithin fuel program with
      | none => none
      | some (result, machine) => converseWithin fuel (s.conclude result machine)

/-- The end of a session, which is always a success. -/
def outcome (s : Session) : Outcome :=
  { output := s.machine.host.output, errors := s.errors }

/-- A whole session on given bytes of standard input. -/
def runWithin (fuel : Nat) (input : List UInt8) : Option Outcome :=
  (converseWithin fuel (start input)).map outcome

end Session

end TapeLang.CommandLine
