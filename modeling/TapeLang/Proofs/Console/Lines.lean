import TapeLang.Host.Console
import TapeLang.Line

/-! The lines of standard input.

* `Text.decode?_newline`: whether bytes are UTF-8 does not depend on a newline after them.
* `Line.value_newline`: nor does the byte that a line stores.
* `Console.lines`: the lines of standard input, each with its newline. `Console.readLine` takes them
  one after the other (`splitLine_of_lines`), and all bytes belong to them (`flatten_lines`). -/
namespace TapeLang
set_option autoImplicit false

/-! ## UTF-8 -/

namespace Text

theorem decode?_eq_some_iff {bytes : ByteArray} {text : String} :
    decode? bytes = some text ↔ text.toUTF8 = bytes := by
  rw [decode?, String.fromUTF8?]
  constructor
  · intro h
    split at h
    · cases h
      rfl
    · cases h
  · rintro rfl
    exact dif_pos text.isValidUTF8

theorem toUTF8_eq (text : String) :
    text.toUTF8 = (text.toList.flatMap String.utf8EncodeChar).toByteArray :=
  String.utf8Encode_toList.symm

theorem decode?_list_iff {bytes : List UInt8} {text : String} :
    decode? bytes.toByteArray = some text ↔ text.toList.flatMap String.utf8EncodeChar = bytes := by
  rw [decode?_eq_some_iff, toUTF8_eq, List.toByteArray_inj]

/-- A character whose encoding ends with the byte of a newline is a newline. -/
theorem eq_newline_of_encode {c : Char} {bytes : List UInt8}
    (h : String.utf8EncodeChar c = bytes ++ [10]) : c = '\n' ∧ bytes = [] := by
  have hlast : (String.utf8EncodeChar c).getLast? = some 10 := by rw [h, List.getLast?_concat]
  -- every byte of a longer encoding is at least 128
  have hhigh : some (UInt8.ofNat (c.val.toNat % 64 + 128)) ≠ some 10 := by
    intro hten
    have hnat := congrArg UInt8.toNat (Option.some.inj hten)
    simp at hnat
    omega
  unfold String.utf8EncodeChar at h hlast
  simp only at h hlast
  split at hlast
  · rename_i hsmall
    have hnat := congrArg UInt8.toNat (Option.some.inj hlast)
    have hval : c.toNat = 10 := by
      have hle : c.toNat ≤ 127 := hsmall
      simp at hnat
      omega
    refine ⟨Char.ext (UInt32.toNat_inj.mp hval), ?_⟩
    rw [if_pos hsmall] at h
    have hlen := congrArg List.length h
    simp at hlen
    exact hlen
  · split at hlast
    · exact absurd hlast hhigh
    · split at hlast
      · exact absurd hlast hhigh
      · exact absurd hlast hhigh

/-- Bytes are UTF-8 exactly if they are so with a newline after them. -/
theorem decode?_newline (bytes : List UInt8) :
    decode? (bytes ++ [10]).toByteArray = (decode? bytes.toByteArray).map (·.push '\n') := by
  cases h : decode? bytes.toByteArray with
  | some text =>
    rw [Option.map_some, decode?_list_iff, String.toList_push, List.flatMap_append,
      decode?_list_iff.mp h]
    rfl
  | none =>
    rw [Option.map_none, ← Option.not_isSome_iff_eq_none, Option.isSome_iff_exists]
    rintro ⟨text, htext⟩
    rw [decode?_list_iff] at htext
    obtain hnil | ⟨before, c, hsplit⟩ := text.toList.eq_nil_or_concat
    · simp [hnil] at htext
    · have hpos : 0 < (String.utf8EncodeChar c).length := by
        rw [String.length_utf8EncodeChar]
        exact c.utf8Size_pos
      obtain hempty | ⟨first, last, hchar⟩ := (String.utf8EncodeChar c).eq_nil_or_concat
      · simp [hempty] at hpos
      · rw [List.concat_eq_append] at hsplit hchar
        rw [hsplit, List.flatMap_append, List.flatMap_singleton, hchar, ← List.append_assoc] at htext
        obtain ⟨hbytes, hten⟩ := List.append_inj' htext rfl
        obtain rfl : last = 10 := by simpa using hten
        obtain ⟨rfl, rfl⟩ := eq_newline_of_encode hchar
        rw [List.append_nil] at hbytes
        have hsome : decode? bytes.toByteArray = some (String.ofList before) := by
          rw [decode?_list_iff, String.toList_ofList, hbytes]
        rw [h] at hsome
        cases hsome

/-- Bytes without that of a newline encode a text without newlines. -/
theorem newline_not_mem {bytes : List UInt8} {text : String}
    (h : decode? bytes.toByteArray = some text) (hb : (10 : UInt8) ∉ bytes) : '\n' ∉ text.toList := by
  intro hmem
  rw [decode?_list_iff] at h
  apply hb
  rw [← h, List.mem_flatMap]
  exact ⟨'\n', hmem, by decide⟩

end Text

/-! ## The byte of a line -/

namespace Line

theorem content_of_plain {text : List Char} {c : Char} (hr : c ≠ '\r') (hn : c ≠ '\n') :
    content (text ++ [c]) = text ++ [c] := by
  rw [content, List.reverse_append, List.reverse_singleton, List.singleton_append]
  split <;> simp_all

theorem content_newline {text : List Char} (h : text.getLast? ≠ some '\n') :
    content (text ++ ['\n']) = content text := by
  obtain rfl | ⟨before, c, rfl⟩ := text.eq_nil_or_concat
  · rfl
  · rw [List.concat_eq_append] at h ⊢
    have hn : c ≠ '\n' := fun hc => h (by rw [hc, List.getLast?_concat])
    by_cases hr : c = '\r'
    · subst hr
      simp [content]
    · rw [content_of_plain hr hn, content]
      simp only [List.reverse_append, List.reverse_singleton, List.cons_append]
      split <;> simp_all

/-- A newline at the end of a line does not change the byte that the line stores. -/
theorem value_newline {text : String} (h : text.toList.getLast? ≠ some '\n') :
    value (text.push '\n') = value text := by
  rw [value, value, String.toList_push, content_newline h]

end Line

/-! ## Lines of bytes -/

namespace Console

/-- The lines of standard input, each up to and with its newline. What follows the last newline is a
line if it is not empty. -/
def lines : List UInt8 → List (List UInt8)
  | [] => []
  | byte :: bytes =>
    if byte = 10 then [10] :: lines bytes
    else
      match lines bytes with
      | [] => [[byte]]
      | line :: rest => (byte :: line) :: rest

theorem flatten_lines (bytes : List UInt8) : (lines bytes).flatten = bytes := by
  induction bytes with
  | nil => rfl
  | cons byte bytes ih =>
    rw [lines]
    split
    · rename_i hten
      rw [List.flatten_cons, ih, hten]
      rfl
    · cases h : lines bytes with
      | nil =>
        rw [h] at ih
        rw [← ih]
        rfl
      | cons line rest =>
        rw [h, List.flatten_cons] at ih
        simp only [List.flatten_cons, List.cons_append, ih]

theorem lines_of_no_newline {body : List UInt8} (h : 10 ∉ body) (hne : body ≠ []) :
    lines body = [body] := by
  induction body with
  | nil => exact absurd rfl hne
  | cons byte body ih =>
    rw [List.mem_cons, not_or] at h
    rw [lines, if_neg (Ne.symm h.1)]
    by_cases hbody : body = []
    · subst hbody
      rfl
    · rw [ih h.2 hbody]

theorem lines_append_newline {body : List UInt8} (h : 10 ∉ body) (rest : List UInt8) :
    lines (body ++ 10 :: rest) = (body ++ [10]) :: lines rest := by
  induction body with
  | nil => rfl
  | cons byte body ih =>
    rw [List.mem_cons, not_or] at h
    rw [List.cons_append, lines, if_neg (Ne.symm h.1), ih h.2]
    rfl

/-- What a line of standard input looks like: no newline but at its end, where only the last line may
lack it. -/
inductive IsLine : List UInt8 → Prop
  | ended {body : List UInt8} (h : 10 ∉ body) : IsLine (body ++ [10])
  | last {body : List UInt8} (h : 10 ∉ body) (hne : body ≠ []) : IsLine body

theorem splitLine_cases (bytes : List UInt8) :
    (∃ body rest, 10 ∉ body ∧ bytes = body ++ 10 :: rest ∧
        splitLine bytes = (body ++ [10], rest)) ∨
      10 ∉ bytes ∧ splitLine bytes = (bytes, []) := by
  have hbody : ∀ byte ∈ bytes.takeWhile (· ≠ 10), byte ≠ 10 := by
    intro byte hbyte
    simpa using List.all_eq_true.mp List.all_takeWhile byte hbyte
  have hsplit : bytes.takeWhile (· ≠ 10) ++ bytes.dropWhile (· ≠ 10) = bytes :=
    List.takeWhile_append_dropWhile
  rw [splitLine]
  cases h : bytes.dropWhile (· ≠ 10) with
  | nil =>
    rw [h, List.append_nil] at hsplit
    rw [hsplit] at hbody
    exact Or.inr ⟨fun hten => hbody 10 hten rfl, rfl⟩
  | cons newline rest =>
    have hnewline := List.head?_dropWhile_not (fun byte => decide (byte ≠ (10 : UInt8))) bytes
    rw [h] at hnewline
    obtain rfl : newline = 10 := by simpa using hnewline
    rw [h] at hsplit
    exact Or.inl ⟨_, rest, fun hten => hbody 10 hten rfl, hsplit.symm, rfl⟩

/-- Lines are taken off one after the other. -/
theorem splitLine_of_lines (bytes : List UInt8) :
    lines bytes = [] ∧ splitLine bytes = ([], []) ∨
      ∃ line rest, splitLine bytes = (line, rest) ∧ lines bytes = line :: lines rest ∧
        IsLine line := by
  obtain ⟨body, rest, hbody, rfl, hs⟩ | ⟨hbytes, hs⟩ := splitLine_cases bytes
  · exact Or.inr ⟨_, rest, hs, lines_append_newline hbody rest, IsLine.ended hbody⟩
  · by_cases hne : bytes = []
    · subst hne
      exact Or.inl ⟨rfl, rfl⟩
    · exact Or.inr ⟨bytes, [], hs, lines_of_no_newline hbytes hne, IsLine.last hbytes hne⟩

/-! ## Texts of lines -/

/-- A line without the newline at its end. -/
def withoutNewline (line : List UInt8) : List UInt8 :=
  if line.getLast? = some 10 then line.dropLast else line

/-- The text of a line without its newline, if it is UTF-8. -/
def lineText? (line : List UInt8) : Option String :=
  Text.decode? (withoutNewline line).toByteArray

/-- A line that is read gives its text, with the newline if it has one. -/
theorem IsLine.decode?_cases {line : List UInt8} (h : IsLine line) :
    lineText? line = none ∧ Text.decode? line.toByteArray = none ∨
      ∃ text, lineText? line = some text ∧ '\n' ∉ text.toList ∧
        (Text.decode? line.toByteArray = some (text.push '\n') ∨
          Text.decode? line.toByteArray = some text ∧ text ≠ "") := by
  cases h with
  | @ended body hbody =>
    have hwithout : withoutNewline (body ++ [10]) = body := by simp [withoutNewline]
    rw [lineText?, hwithout, Text.decode?_newline]
    cases hd : Text.decode? body.toByteArray with
    | none => exact Or.inl ⟨rfl, rfl⟩
    | some text => exact Or.inr ⟨text, rfl, Text.newline_not_mem hd hbody, Or.inl rfl⟩
  | last hbody hne =>
    have hwithout : withoutNewline line = line := by
      rw [withoutNewline, if_neg fun hlast => hbody (List.mem_of_getLast? hlast)]
    rw [lineText?, hwithout]
    cases hd : Text.decode? line.toByteArray with
    | none => exact Or.inl ⟨rfl, rfl⟩
    | some text =>
      refine Or.inr ⟨text, rfl, Text.newline_not_mem hd hbody, Or.inr ⟨rfl, ?_⟩⟩
      rintro rfl
      rw [Text.decode?_list_iff] at hd
      exact hne hd.symm

/-- A line stores the same byte with and without its newline. -/
theorem IsLine.map_value {line : List UInt8} (h : IsLine line) :
    (Text.decode? line.toByteArray).map Line.value = (lineText? line).map Line.value := by
  obtain ⟨hnone, hread⟩ | ⟨text, htext, hnewline, hread | ⟨hread, -⟩⟩ := h.decode?_cases
  · rw [hnone, hread]
  · have hlast : text.toList.getLast? ≠ some '\n' := fun h => hnewline (List.mem_of_getLast? h)
    rw [htext, hread, Option.map_some, Option.map_some, Line.value_newline hlast]
  · rw [htext, hread]

end Console

end TapeLang
