import TapeLang.Program.Cursor
import TapeLang.Program.Position
import TapeLang.Program.Excerpt

/-! What can go wrong when a program is checked or run, and how it is told to the user. -/
namespace TapeLang
set_option autoImplicit false

/-- One of the two brackets. -/
inductive Bracket where
  /-- The bracket that opens a loop. -/
  | opening
  /-- The bracket that closes a loop. -/
  | closing
  deriving DecidableEq

/-- The reason why a check or a run stopped. -/
inductive Fault where
  /-- The cursor was moved off the program. -/
  | outside (edge : Edge)
  /-- A bracket has no partner. -/
  | unmatched (bracket : Bracket) (position : Position) (excerpt : Excerpt)
  /-- A fault of the machine itself. -/
  | internal (text : String)
  /-- Output was refused. -/
  | output
  /-- No line could be read. -/
  | input
  deriving DecidableEq

namespace Fault

/-- The message of a fault, on one line. -/
def message : Fault → String
  | outside edge => edge.message
  | unmatched .opening position _ =>
    "Opening bracket has no corresponding closing bracket (" ++ position.text ++ ")"
  | unmatched .closing position _ =>
    "Closing bracket has no corresponding opening bracket (" ++ position.text ++ ")"
  | internal text => "internal interpreter error: " ++ text
  | output => "output collaborator failed"
  | input => "input collaborator failed"

/-- The place of a fault in the program, if it has one. -/
def position? : Fault → Option Position
  | unmatched _ position _ => some position
  | _ => none

/-- The program text around a fault, if it has a place. -/
def excerpt? : Fault → Option Excerpt
  | unmatched _ _ excerpt => some excerpt
  | _ => none

/-- The report of a fault: its message, and below it the excerpt if there is one. -/
def report (fault : Fault) : String :=
  match fault.excerpt? with
  | some excerpt => "Error: " ++ fault.message ++ "\n" ++ excerpt.text
  | none => "Error: " ++ fault.message

end Fault

end TapeLang
