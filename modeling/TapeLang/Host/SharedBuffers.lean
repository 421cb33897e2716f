import TapeLang.Text.Utf8

/-! Buffers that are reached through handles. Several handles may share one buffer: what is written
or cleared through one of them is seen through all. -/
namespace TapeLang
set_option autoImplicit false

/-- A family of buffers and the handles to them. -/
structure SharedBuffers where
  /-- The contents of the buffers. -/
  contents : Array ByteArray := #[]
  /-- The buffer that each handle refers to. -/
  handles : Array Nat := #[]

/-- An operation on the family, through a handle. -/
inductive SharedBuffers.Operation where
  /-- Append bytes to the buffer of a handle. -/
  | write (handle : Nat) (bytes : ByteArray)
  /-- Flush the buffer of a handle, which changes nothing. -/
  | flush (handle : Nat)
  /-- Empty the buffer of a handle. -/
  | clear (handle : Nat)
  /-- Make a further handle to the buffer of a handle. -/
  | share (handle : Nat)
  /-- Make a handle to a buffer of its own. -/
  | create

namespace SharedBuffers

/-- One handle to one empty buffer. -/
def start : SharedBuffers :=
  { contents := #[ByteArray.empty], handles := #[0] }

/-- The contents of the buffer of a handle. -/
def get? (s : SharedBuffers) (handle : Nat) : Option ByteArray :=
  s.handles[handle]?.bind fun buffer => s.contents[buffer]?

/-- Changes the contents of the buffer of a handle. -/
def modify (s : SharedBuffers) (handle : Nat) (f : ByteArray → ByteArray) : SharedBuffers :=
  match s.handles[handle]? with
  | some buffer => { s with contents := s.contents.modify buffer f }
  | none => s

/-- Performs one operation. An operation through a handle that does not exist changes nothing. -/
def perform (s : SharedBuffers) : Operation → SharedBuffers
  | .write handle bytes => s.modify handle (· ++ bytes)
  | .flush _ => s
  | .clear handle => s.modify handle fun _ => ByteArray.empty
  | .share handle =>
    match s.handles[handle]? with
    | some buffer => { s with handles := s.handles.push buffer }
    | none => s
  | .create =>
    { contents := s.contents.push ByteArray.empty, handles := s.handles.push s.contents.size }

end SharedBuffers

end TapeLang
