import TapeLang.Fault

/-! What a command leaves behind: an exit code, and the two output streams. -/
namespace TapeLang.CommandLine
set_option autoImplicit false

/-- The end of a command. -/
structure Outcome where
  /-- Zero for success. -/
  exit : Nat := 0
  /-- The bytes on standard output. -/
  output : ByteArray := ByteArray.empty
  /-- The text on standard error. -/
  errors : String := ""

namespace Outcome

/-- Success with a text on standard output. -/
def ofText (text : String) : Outcome :=
  { output := text.toUTF8 }

/-- Failure with one message on standard error. -/
def failure (message : String) (output : ByteArray := ByteArray.empty) : Outcome :=
  { exit := 1, output, errors := message ++ "\n" }

/-- The end of a command that checked or ran a program. -/
def ofResult (result : Except Fault Unit) (output : ByteArray) : Outcome :=
  match result with
  | .ok () => { output }
  | .error fault => failure fault.report output

/-- The end of a command line that makes no sense. -/
def misused : Outcome :=
  { exit := 2
    errors := "usage: brainlove [--version | run FILE | check FILE | transpile FILE]\n" }

end Outcome

end TapeLang.CommandLine
