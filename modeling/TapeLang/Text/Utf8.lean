/-! Bytes read as UTF-8. `decode?` accepts well-formed bytes only. `decodeLossy` reads any bytes:
where no character can be decoded, the longest beginning of a well-formed sequence, or one byte if
there is none, becomes one replacement character. Main statement: `decodeLossy_toUTF8`, what encodes a
text is decoded to that text. -/
namespace TapeLang.Text
set_option autoImplicit false

/-- The text that well-formed UTF-8 bytes encode. -/
def decode? (bytes : ByteArray) : Option String :=
  String.fromUTF8? bytes

/-- U+FFFD, which stands for bytes that encode no character. -/
def replacement : Char := '\uFFFD'

/-- The ranges, one after the other, of the bytes that may follow a leading byte. A byte that
leads no longer sequence has none. -/
def followers (lead : UInt8) : List (UInt8 × UInt8) :=
  if lead < 0xC2 then []
  else if lead ≤ 0xDF then [(0x80, 0xBF)]
  else if lead = 0xE0 then [(0xA0, 0xBF), (0x80, 0xBF)]
  else if lead = 0xED then [(0x80, 0x9F), (0x80, 0xBF)]
  else if lead ≤ 0xEF then [(0x80, 0xBF), (0x80, 0xBF)]
  else if lead = 0xF0 then [(0x90, 0xBF), (0x80, 0xBF), (0x80, 0xBF)]
  else if lead ≤ 0xF3 then [(0x80, 0xBF), (0x80, 0xBF), (0x80, 0xBF)]
  else if lead = 0xF4 then [(0x80, 0x8F), (0x80, 0xBF), (0x80, 0xBF)]
  else []

/-- How many of the bytes from `i` on lie, one after the other, in the given ranges. -/
def matching (bytes : ByteArray) : List (UInt8 × UInt8) → Nat → Nat
  | [], _ => 0
  | (low, high) :: ranges, i =>
    if h : i < bytes.size then
      if low ≤ bytes[i] && bytes[i] ≤ high then matching bytes ranges (i + 1) + 1 else 0
    else 0

/-- The number of bytes at `i` that one replacement character stands for. -/
def brokenLength (bytes : ByteArray) (i : Nat) : Nat :=
  if h : i < bytes.size then matching bytes (followers bytes[i]) (i + 1) + 1 else 1

theorem brokenLength_pos (bytes : ByteArray) (i : Nat) : 0 < brokenLength bytes i := by
  unfold brokenLength
  split <;> omega

/-- Decodes the bytes from `i` on and puts the characters after `text`. -/
def decodeLossyFrom (bytes : ByteArray) (i : Nat) (text : String) : String :=
  if i < bytes.size then
    match bytes.utf8DecodeChar? i with
    | some c => decodeLossyFrom bytes (i + c.utf8Size) (text.push c)
    | none => decodeLossyFrom bytes (i + brokenLength bytes i) (text.push replacement)
  else text
termination_by bytes.size - i
decreasing_by
  · have := c.utf8Size_pos
    omega
  · have := brokenLength_pos bytes i
    omega

/-- The text that any bytes stand for, with a replacement character for each broken part. -/
def decodeLossy (bytes : ByteArray) : String :=
  decodeLossyFrom bytes 0 ""

theorem size_utf8Encode_singleton (c : Char) : [c].utf8Encode.size = c.utf8Size := by
  simp [List.utf8Encode_singleton]

theorem utf8DecodeChar?_append (read : ByteArray) (c : Char) (cs : List Char) :
    (read ++ (c :: cs).utf8Encode).utf8DecodeChar? read.size = some c := by
  rw [ByteArray.utf8DecodeChar?_eq_utf8DecodeChar?_extract,
    ByteArray.extract_append_eq_right rfl ByteArray.size_append]
  exact List.utf8DecodeChar?_utf8Encode_cons

theorem decodeLossyFrom_append (cs : List Char) (read : ByteArray) (text : String) :
    decodeLossyFrom (read ++ cs.utf8Encode) read.size text = text ++ String.ofList cs := by
  induction cs generalizing read text with
  | nil =>
    rw [decodeLossyFrom]
    simp
  | cons c cs ih =>
    have hsplit : (c :: cs).utf8Encode = [c].utf8Encode ++ cs.utf8Encode := List.utf8Encode_cons
    have hlt : read.size < (read ++ (c :: cs).utf8Encode).size := by
      have hpos := c.utf8Size_pos
      rw [hsplit, ByteArray.size_append, ByteArray.size_append, size_utf8Encode_singleton]
      omega
    have hnext := ih (read ++ [c].utf8Encode) (text.push c)
    rw [ByteArray.append_assoc, ← hsplit, ByteArray.size_append, size_utf8Encode_singleton] at hnext
    rw [decodeLossyFrom, if_pos hlt, utf8DecodeChar?_append]
    simp only [hnext]
    rw [String.ofList_cons, ← String.append_assoc, String.append_singleton]

/-- Bytes that are the encoding of a text are decoded to that text: nothing is replaced. -/
theorem decodeLossy_toUTF8 (text : String) : decodeLossy text.toUTF8 = text := by
  have h := decodeLossyFrom_append text.toList ByteArray.empty ""
  simpa [decodeLossy] using h

end TapeLang.Text
