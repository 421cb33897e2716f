import TapeLang.CommandLine.Arguments
import TapeLang.CommandLine.Session
import TapeLang.Machine.Job
import TapeLang.Program.Brackets

/-! What each command does. Files are read through a function, and standard input is given as a
whole, so that a command is a function of what it reads. -/
namespace TapeLang.CommandLine
set_option autoImplicit false

/-- The text of a file, or the message that it cannot be read. -/
def sourceText (read : String → Except FileError ByteArray) (file : String) :
    Except String String :=
  match read file with
  | .error error => .error ("Error: cannot read " ++ file ++ ": " ++ error.message)
  | .ok bytes =>
    match Text.decode? bytes with
    | some text => .ok text
    | none => .error ("Error: cannot read " ++ file ++ ": " ++ FileError.notText.message)

/-- The program that a source in a given dialect stands for. -/
def Dialect.program (dialect : Dialect) (source : String) : String :=
  match dialect with
  | plain => source
  | shorthand => TapeLang.expand source

/-- The machine that a program runs on. -/
def machine (radius : Nat) (input : List UInt8) : Machine Console :=
  { host := { input }, radius }

/-- Runs a source on the console. -/
def runSource (fuel : Nat) (dialect : Dialect) (radius : Nat) (input : List UInt8)
    (source : String) : Option Outcome :=
  match dialect with
  | .plain =>
    match (machine radius input).executeWithin fuel source with
    | some (result, m) => some (Outcome.ofResult result m.host.output)
    | none => none
  | .shorthand =>
    match Job.executeWithin fuel { source, machine := machine radius input } with
    | some (result, job) => some (Outcome.ofResult result job.machine.host.output)
    | none => none

/-- Checks the brackets of a source. Digits can repeat brackets, so shorthand is checked after its
expansion. -/
def checkSource (file : String) (dialect : Dialect) (radius : Nat) (source : String) : Outcome :=
  match (Program.ofString (dialect.program source)).check radius with
  | .ok () => Outcome.ofText (file ++ ": brackets balanced\n")
  | .error fault => Outcome.failure fault.report

namespace Command

/-- Does what a command asks for. There is no outcome if a program takes more than `fuel` steps. -/
def performWithin (fuel : Nat) (read : String → Except FileError ByteArray) (input : List UInt8) :
    Command → Option Outcome
  | version => some (Outcome.ofText "brainlove 0.1.0\n")
  | session => Session.runWithin fuel input
  | run file dialect radius =>
    match sourceText read file with
    | .error message => some (Outcome.failure message)
    | .ok source => runSource fuel dialect radius input source
  | check file dialect radius =>
    match sourceText read file with
    | .error message => some (Outcome.failure message)
    | .ok source => some (checkSource file dialect radius source)
  | expand file =>
    match sourceText read file with
    | .error message => some (Outcome.failure message)
    | .ok source => some (Outcome.ofText (TapeLang.expand source ++ "\n"))

end Command

/-- Does what a command line asks for. -/
def performWithin (fuel : Nat) (read : String → Except FileError ByteArray) (input : List UInt8)
    (arguments : List String) : Option Outcome :=
  match Command.parse? arguments with
  | none => some Outcome.misused
  | some command => command.performWithin fuel read input

end TapeLang.CommandLine
