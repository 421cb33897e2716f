import TapeLang.Host
import TapeLang.Text.Utf8

/-! The console: standard input as bytes not yet read, and standard output as bytes written. Output
never fails. A line runs up to and with its newline, and a line that is not UTF-8 cannot be read,
although it is used up. -/
namespace TapeLang
set_option autoImplicit false

/-- Standard input and output. -/
structure Console where
  /-- The bytes of standard input that were not read yet. -/
  input : List UInt8 := []
  /-- The bytes of standard output so far. -/
  output : ByteArray := ByteArray.empty

namespace Console

/-- The bytes of the first line, with its newline if it has one, and the bytes after it. -/
def splitLine (bytes : List UInt8) : List UInt8 × List UInt8 :=
  match bytes.dropWhile (· ≠ 10) with
  | [] => (bytes, [])
  | newline :: rest => (bytes.takeWhile (· ≠ 10) ++ [newline], rest)

/-- Reads one line; at the end of the input it is empty. -/
def readLine (c : Console) : Option String × Console :=
  let (line, rest) := splitLine c.input
  (Text.decode? line.toByteArray, { c with input := rest })

/-- Writes one byte. -/
def write (c : Console) (byte : UInt8) : Bool × Console :=
  match c with
  | ⟨input, output⟩ => (true, ⟨input, output.push byte⟩)

/-- Writes a text. -/
def print (c : Console) (text : String) : Console :=
  match c with
  | ⟨input, output⟩ => ⟨input, output ++ text.toUTF8⟩

instance : Host Console where
  write := write
  flush c := (true, c)
  readLine := readLine

end Console

end TapeLang
