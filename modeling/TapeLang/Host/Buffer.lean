import TapeLang.Host.Devices
import TapeLang.Text.Utf8

/-! Output kept in memory. A buffer may be told to refuse all writes, or all flushes, from some call
on; a refused write adds nothing. -/
namespace TapeLang
set_option autoImplicit false

/-- Bytes kept in memory, and how many more calls succeed. -/
structure Buffer where
  /-- The bytes taken so far. -/
  bytes : ByteArray := ByteArray.empty
  /-- The number of writes that still succeed, if it is limited. -/
  writesLeft : Option Nat := none
  /-- The number of flushes that still succeed, if it is limited. -/
  flushesLeft : Option Nat := none

namespace Buffer

/-- Whether a call with the given number of calls left succeeds, and the number left after it. -/
def spend : Option Nat → Bool × Option Nat
  | none => (true, none)
  | some 0 => (false, some 0)
  | some (n + 1) => (true, some n)

/-- Takes one byte. -/
def write (b : Buffer) (byte : UInt8) : Bool × Buffer :=
  match b with
  | ⟨bytes, writesLeft, flushesLeft⟩ =>
    match spend writesLeft with
    | (true, left) => (true, ⟨bytes.push byte, left, flushesLeft⟩)
    | (false, left) => (false, ⟨bytes, left, flushesLeft⟩)

/-- Flushes, which changes no byte. -/
def flush (b : Buffer) : Bool × Buffer :=
  match b with
  | ⟨bytes, writesLeft, flushesLeft⟩ =>
    let (succeeded, left) := spend flushesLeft
    (succeeded, ⟨bytes, writesLeft, left⟩)

instance : Sink Buffer where
  write := write
  flush := flush

/-- The bytes as text, with a replacement character for each part that is not UTF-8. -/
def text (b : Buffer) : String :=
  Text.decodeLossy b.bytes

/-- A buffer that goes on with the same bytes, and with limits of its own. -/
def renew (b : Buffer) (writesLeft flushesLeft : Option Nat) : Buffer :=
  ⟨b.bytes, writesLeft, flushesLeft⟩

/-- The buffer without its bytes. -/
def clear (b : Buffer) : Buffer :=
  { b with bytes := ByteArray.empty }

end Buffer

end TapeLang
