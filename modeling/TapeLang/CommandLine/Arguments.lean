import TapeLang.CommandLine.Files
import TapeLang.Numeral
import TapeLang.Program.Excerpt

/-! Command lines and the commands that they ask for.

A command is named by the first argument. After it stand the file and, for commands that take them,
options in any order, each at most once and with its value after an equals sign or as the next
argument. Two dashes end the options; one dash alone is no option. -/
namespace TapeLang.CommandLine
set_option autoImplicit false

/-- How a source file is written. -/
inductive Dialect where
  /-- The source is the program. -/
  | plain
  /-- The source is shorthand for the program. -/
  | shorthand
  deriving DecidableEq

/-- The dialect with a given name. -/
def Dialect.ofName? : String → Option Dialect
  | "brainfuck" => some plain
  | "brainlove" => some shorthand
  | _ => none

/-- The dialect that the extension of a path tells. -/
def Dialect.ofPath (path : String) : Dialect :=
  match (fileName? path).bind extension? with
  | some "bf" => plain
  | some "b" => plain
  | _ => shorthand

/-- What a command line asks for. -/
inductive Command where
  /-- Tell the version. -/
  | version
  /-- Take commands from standard input. -/
  | session
  /-- Run a program. -/
  | run (file : String) (dialect : Dialect) (radius : Nat)
  /-- Check the brackets of a program. -/
  | check (file : String) (dialect : Dialect) (radius : Nat)
  /-- Print what a shorthand source stands for. -/
  | expand (file : String)
  deriving DecidableEq

/-- The file that a command reads. -/
def Command.file? : Command → Option String
  | version => none
  | session => none
  | run file _ _ => some file
  | check file _ _ => some file
  | expand file => some file

/-! ## Options -/

/-- The file and the options given so far. -/
structure Options where
  /-- The file to be read. -/
  file : Option String := none
  /-- How the file is written. -/
  dialect : Option Dialect := none
  /-- The number of characters that an excerpt is to show on each side. -/
  radius : Option Nat := none
  deriving DecidableEq

/-- The number that a text of decimal digits denotes, a plus sign before them allowed, if it fits in
64 bits. -/
def wordValue? (text : String) : Option Nat :=
  let digits :=
    match text.toList with
    | '+' :: digits => digits
    | digits => digits
  let value := Numeral.runValue digits
  if !digits.isEmpty && digits.all Char.isDigit && value < UInt64.size then some value else none

/-- Whether an argument has the form of an option. -/
def isOption (argument : String) : Bool :=
  match argument.toList with
  | '-' :: _ :: _ => true
  | _ => false

/-- The name of an option, and its value if one is joined to it. -/
def splitOption (argument : String) : String × Option String :=
  let text := argument.toList
  match text.dropWhile (· ≠ '=') with
  | [] => (argument, none)
  | _ :: value => (String.ofList (text.takeWhile (· ≠ '=')), some (String.ofList value))

namespace Options

/-- Takes the file, which is given once and is not empty. -/
def setFile (o : Options) (file : String) : Option Options :=
  if o.file.isNone && file ≠ "" then some { o with file := some file } else none

/-- Takes the value of an option, which is given at most once. -/
def setOption (o : Options) (name value : String) : Option Options :=
  if name = "--dialect" then
    match o.dialect, Dialect.ofName? value with
    | none, some dialect => some { o with dialect := some dialect }
    | _, _ => none
  else if name = "--snippet-radius" then
    match o.radius, wordValue? value with
    | none, some radius => some { o with radius := some radius }
    | _, _ => none
  else none

/-- Takes arguments that are all files. -/
def setFiles (o : Options) : List String → Option Options
  | [] => some o
  | file :: rest => (o.setFile file).bind (setFiles · rest)

/-- Takes the arguments after a command's name. -/
def parse? (o : Options) : List String → Option Options
  | [] => some o
  | [argument] =>
    if argument = "--" then some o
    else if isOption argument then
      match splitOption argument with
      | (name, some value) => o.setOption name value
      | (_, none) => none
    else o.setFile argument
  | argument :: next :: rest =>
    if argument = "--" then o.setFiles (next :: rest)
    else if isOption argument then
      match splitOption argument with
      | (name, some value) => (o.setOption name value).bind (parse? · (next :: rest))
      | (name, none) =>
        if isOption next then none else (o.setOption name next).bind (parse? · rest)
    else (o.setFile argument).bind (parse? · (next :: rest))

/-- How the file is written: as the option says, or else as the file's name tells. -/
def dialectOf (o : Options) (file : String) : Dialect :=
  o.dialect.getD (Dialect.ofPath file)

/-- The number of characters that an excerpt shows on each side. -/
def excerptRadius (o : Options) : Nat :=
  o.radius.getD Excerpt.defaultRadius

end Options

/-! ## Commands -/

/-- The command that the arguments after the program's name ask for, if they make sense. -/
def Command.parse? : List String → Option Command
  | [] => some .session
  | name :: rest =>
    if name = "run" then do
      let o ← Options.parse? {} rest
      let file ← o.file
      return .run file (o.dialectOf file) o.excerptRadius
    else if name = "check" then do
      let o ← Options.parse? {} rest
      let file ← o.file
      return .check file (o.dialectOf file) o.excerptRadius
    else if name = "transpile" then do
      let o ← Options.parse? {} rest
      if o.dialect.isSome || o.radius.isSome then none
      return .expand (← o.file)
    else if name = "--version" || "-V".isPrefixOf name then some .version
    else if name = "--" && rest.isEmpty then some .session
    else none

end TapeLang.CommandLine
