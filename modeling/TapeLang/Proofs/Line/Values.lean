import TapeLang.Proofs.Console.Lines
import TapeLang.Proofs.Line.Numerals

/-! The byte that a line stores, by the grammar of numerals.

`Line.Stripped` and `Text.Trimmed` say what it is to take the line ending off a line and the white
space off a text; the two functions do that and nothing else (`stripped_iff`, `trimmed_iff`). -/
namespace TapeLang
set_option autoImplicit false

/-! ## White space at the ends -/

namespace Text

/-- The core is what is left of the text without the white space before and after it. -/
structure Trimmed (text core : List Char) : Prop where
  parts : ∃ before after, text = before ++ (core ++ after) ∧
    (∀ c ∈ before, isBlank c = true) ∧ ∀ c ∈ after, isBlank c = true
  head : ∀ c, core.head? = some c → isBlank c = false
  last : ∀ c, core.getLast? = some c → isBlank c = false

theorem dropWhile_of_head {p : Char → Bool} {text : List Char}
    (h : ∀ c, text.head? = some c → p c = false) : text.dropWhile p = text := by
  cases text with
  | nil => rfl
  | cons c rest => exact List.dropWhile_cons_of_neg (by simp [h c rfl])

theorem head_dropWhile {p : Char → Bool} (text : List Char) (c : Char)
    (h : (text.dropWhile p).head? = some c) : p c = false := by
  have hstop := List.head?_dropWhile_not p text
  rw [h] at hstop
  exact hstop

theorem Trimmed.trim_eq {text core : List Char} (h : Trimmed text core) : trim text = core := by
  obtain ⟨before, after, rfl, hbefore, hafter⟩ := h.parts
  have hreverse : ∀ c ∈ after.reverse, isBlank c = true := by simpa using hafter
  have hlast : ∀ c, core.reverse.head? = some c → isBlank c = false := by
    simpa [List.head?_reverse] using h.last
  rw [trim, List.dropWhile_append_of_pos hbefore]
  by_cases hcore : core = []
  · subst hcore
    rw [List.nil_append, List.dropWhile_eq_nil_iff.mpr hafter]
    rfl
  · have hhead : ∀ c, (core ++ after).head? = some c → isBlank c = false := by
      obtain ⟨first, rest, rfl⟩ := List.exists_cons_of_ne_nil hcore
      exact h.head
    rw [dropWhile_of_head hhead, List.reverse_append, List.dropWhile_append_of_pos hreverse,
      dropWhile_of_head hlast, List.reverse_reverse]

theorem trimmed_trim (text : List Char) : Trimmed text (trim text) := by
  have hbefore : text.takeWhile isBlank ++ text.dropWhile isBlank = text :=
    List.takeWhile_append_dropWhile
  have hafter : trim text ++ ((text.dropWhile isBlank).reverse.takeWhile isBlank).reverse =
      text.dropWhile isBlank := by
    rw [trim, ← List.reverse_append, List.takeWhile_append_dropWhile, List.reverse_reverse]
  refine ⟨⟨text.takeWhile isBlank, ((text.dropWhile isBlank).reverse.takeWhile isBlank).reverse,
    ?_, ?_, ?_⟩, ?_, ?_⟩
  · rw [hafter, hbefore]
  · intro c hc
    exact List.all_eq_true.mp List.all_takeWhile c hc
  · intro c hc
    exact List.all_eq_true.mp List.all_takeWhile c (List.mem_reverse.mp hc)
  · intro c hc
    apply head_dropWhile text c
    rw [← hafter, List.head?_append, hc]
    rfl
  · intro c hc
    apply head_dropWhile (text.dropWhile isBlank).reverse c
    rwa [trim, List.getLast?_reverse] at hc

theorem trimmed_iff (text core : List Char) : Trimmed text core ↔ core = trim text := by
  constructor
  · intro h
    exact h.trim_eq.symm
  · rintro rfl
    exact trimmed_trim text

theorem isBlank_eq_false_of_isDigit {c : Char} (h : c.isDigit = true) : isBlank c = false := by
  have hrange : 48 ≤ c.toNat ∧ c.toNat ≤ 57 := Char.isDigit_iff_toNat.mp h
  rw [← Bool.not_eq_true, isBlank, Ranges.has_eq_true_iff]
  simp only [whiteSpace, List.mem_cons, List.not_mem_nil, or_false]
  rintro ⟨range, hmem, hfirst, hlast⟩
  rcases hmem with rfl | rfl | rfl | rfl | rfl | rfl | rfl | rfl | rfl | rfl <;> omega

end Text

/-! ## Line endings -/

namespace Line

/-- The text is what is left of the line without its line ending: a carriage return and a newline are
one ending, otherwise a newline or a carriage return is. -/
inductive Stripped : List Char → List Char → Prop
  | both (text : List Char) : Stripped (text ++ ['\r', '\n']) text
  | newline {text : List Char} (h : text.getLast? ≠ some '\r') : Stripped (text ++ ['\n']) text
  | carriageReturn (text : List Char) : Stripped (text ++ ['\r']) text
  | plain {text : List Char} (hn : text.getLast? ≠ some '\n') (hr : text.getLast? ≠ some '\r') :
      Stripped text text

theorem Stripped.content_eq {line text : List Char} (h : Stripped line text) :
    content line = text := by
  cases h with
  | both => simp [content]
  | newline h =>
    obtain rfl | ⟨before, c, rfl⟩ := text.eq_nil_or_concat
    · rfl
    · rw [List.concat_eq_append, List.getLast?_concat] at h
      rw [List.concat_eq_append, content, List.reverse_append, List.reverse_append]
      split <;> simp_all
  | carriageReturn => simp [content]
  | plain hn hr =>
    obtain rfl | ⟨before, c, rfl⟩ := line.eq_nil_or_concat
    · rfl
    · rw [List.concat_eq_append, List.getLast?_concat] at hn hr
      rw [List.concat_eq_append]
      exact content_of_plain (fun hc => hr (congrArg some hc)) (fun hc => hn (congrArg some hc))

theorem exists_stripped (line : List Char) : ∃ text, Stripped line text := by
  by_cases hn : line.getLast? = some '\n'
  · obtain ⟨text, rfl⟩ := List.getLast?_eq_some_iff.mp hn
    by_cases hr : text.getLast? = some '\r'
    · obtain ⟨rest, rfl⟩ := List.getLast?_eq_some_iff.mp hr
      rw [List.append_assoc]
      exact ⟨rest, Stripped.both rest⟩
    · exact ⟨text, Stripped.newline hr⟩
  · by_cases hr : line.getLast? = some '\r'
    · obtain ⟨text, rfl⟩ := List.getLast?_eq_some_iff.mp hr
      exact ⟨text, Stripped.carriageReturn text⟩
    · exact ⟨line, Stripped.plain hn hr⟩

theorem stripped_iff (line text : List Char) : Stripped line text ↔ text = content line := by
  constructor
  · intro h
    exact h.content_eq.symm
  · rintro rfl
    obtain ⟨text, h⟩ := exists_stripped line
    rwa [h.content_eq]

/-! ## The byte of a line -/

theorem toNat_ofInt (n : Int) : ((UInt8.ofInt n).toNat : Int) = n % 256 := by
  simp only [UInt8.ofInt, UInt8.toNat_ofNat']
  omega

theorem toNat_firstByte (text : List Char) :
    (firstByte text).toNat = (text.head?.map fun c => c.toNat % 256).getD 0 := by
  cases text with
  | nil => rfl
  | cons c rest => simp [firstByte]

section Cases

variable {line : String} {text core : List Char} (htext : Stripped line.toList text)
  (hcore : Text.Trimmed text core)

include htext hcore

theorem value_of_hexadecimal (h : Numeral.Hexadecimal core) : value line = 0 := by
  obtain rfl := (stripped_iff _ _).mp htext
  obtain rfl := (Text.trimmed_iff _ _).mp hcore
  rw [value, (Numeral.value?_eq_some_iff _ 0).mpr (Or.inl ⟨h, rfl⟩)]
  rfl

theorem value_of_decimal {n : Int} (h : Numeral.Decimal core n) :
    ((value line).toNat : Int) = n % 256 := by
  obtain rfl := (stripped_iff _ _).mp htext
  obtain rfl := (Text.trimmed_iff _ _).mp hcore
  rw [value, (Numeral.value?_eq_some_iff _ n).mpr (Or.inr h)]
  exact toNat_ofInt n

theorem value_of_other (hhex : ¬ Numeral.Hexadecimal core) (hdec : ∀ n, ¬ Numeral.Decimal core n) :
    (value line).toNat = (text.head?.map fun c => c.toNat % 256).getD 0 := by
  obtain rfl := (stripped_iff _ _).mp htext
  obtain rfl := (Text.trimmed_iff _ _).mp hcore
  have hnone : Numeral.value? (content line.toList) = none := by
    rw [Option.eq_none_iff_forall_ne_some]
    intro n hn
    obtain ⟨h, -⟩ | h := (Numeral.value?_eq_some_iff _ n).mp hn
    · exact hhex h
    · exact hdec n h
  rw [value, hnone]
  exact toNat_firstByte _

end Cases

/-! ## Numerals of numbers -/

theorem isBlank_eq_false_of_mem_repr (n : Int) :
    ∀ c ∈ n.repr.toList, Text.isBlank c = false := by
  have hnat : ∀ m : Nat, ∀ c ∈ m.repr.toList, Text.isBlank c = false := by
    intro m c hc
    obtain ⟨first, digits, hrepr, hdigit, -⟩ := Numeral.exists_digits_of_repr m
    rw [hrepr] at hc
    exact Text.isBlank_eq_false_of_isDigit (hdigit c hc)
  intro c hc
  cases n with
  | ofNat m => exact hnat m c hc
  | negSucc m =>
    rw [Int.repr, String.toList_append, List.mem_append] at hc
    obtain hminus | hdigits := hc
    · obtain rfl : c = '-' := by simpa using hminus
      decide
    · exact hnat (m + 1) c hdigits

theorem trimmed_of_not_blank {text : List Char} (h : ∀ c ∈ text, Text.isBlank c = false) :
    Text.Trimmed text text := by
  refine ⟨⟨[], [], by simp, by simp, by simp⟩, ?_, ?_⟩
  · intro c hc
    exact h c (List.mem_of_head? hc)
  · intro c hc
    exact h c (List.mem_of_getLast? hc)

theorem stripped_of_not_blank {text : List Char} (h : ∀ c ∈ text, Text.isBlank c = false)
    {ending : String} (hending : ending ∈ ["", "\n", "\r\n", "\r"]) :
    Stripped (text ++ ending.toList) text := by
  have hlast : ∀ c, Text.isBlank c = true → text.getLast? ≠ some c := by
    intro c hblank hc
    rw [h c (List.mem_of_getLast? hc)] at hblank
    cases hblank
  simp only [List.mem_cons, List.not_mem_nil, or_false] at hending
  obtain rfl | rfl | rfl | rfl := hending
  · rw [String.toList_empty, List.append_nil]
    exact Stripped.plain (hlast '\n' (by decide)) (hlast '\r' (by decide))
  · exact Stripped.newline (hlast '\r' (by decide))
  · exact Stripped.both text
  · exact Stripped.carriageReturn text

theorem value_repr (n : Int) {ending : String} (h : ending ∈ ["", "\n", "\r\n", "\r"]) :
    ((value (n.repr ++ ending)).toNat : Int) = n % 256 := by
  have hplain := isBlank_eq_false_of_mem_repr n
  have htext := stripped_of_not_blank hplain h
  rw [← String.toList_append] at htext
  exact value_of_decimal htext (trimmed_of_not_blank hplain) (Numeral.decimal_repr n)

/-- The byte that a line stores follows the grammar of numerals. Take one line ending off the line,
and the white space off both ends of the text that is left. If this is a hexadecimal numeral, the
byte is zero. If it is a decimal numeral, the byte is its whole part modulo 256, as a number from 0
to 255, however large and whatever its sign. Any other line stores the code point of the first
character of its text modulo 256, and zero if there is none. So the numeral of a whole number stores
the number modulo 256, with any line ending. -/
theorem value_follows_grammar (line : String) :
    (∃ text core, Stripped line.toList text ∧ Text.Trimmed text core) ∧
    (∀ text core, Stripped line.toList text → Text.Trimmed text core →
      (Numeral.Hexadecimal core → value line = 0) ∧
      (∀ n, Numeral.Decimal core n → ((value line).toNat : Int) = n % 256) ∧
      (¬ Numeral.Hexadecimal core → (∀ n, ¬ Numeral.Decimal core n) →
        (value line).toNat = (text.head?.map fun c => c.toNat % 256).getD 0)) ∧
    ∀ (n : Int) (ending : String), ending ∈ ["", "\n", "\r\n", "\r"] →
      ((value (n.repr ++ ending)).toNat : Int) = n % 256 := by
  refine ⟨⟨_, _, (stripped_iff _ _).mpr rfl, Text.trimmed_trim _⟩, ?_, ?_⟩
  · intro text core htext hcore
    refine ⟨value_of_hexadecimal htext hcore, ?_, value_of_other htext hcore⟩
    intro n
    exact value_of_decimal htext hcore
  · intro n ending hending
    exact value_repr n hending

theorem value_follows_grammar_of_negative_numeral :
    ∃ text core, Stripped " -1_0.5E+3\t\r\n".toList text ∧ Text.Trimmed text core ∧
      Numeral.Decimal core (-10) ∧ ((value " -1_0.5E+3\t\r\n").toNat : Int) = 246 := by
  have htext : Stripped " -1_0.5E+3\t\r\n".toList " -1_0.5E+3\t".toList :=
    (stripped_iff _ _).mpr (by decide)
  have hcore : Text.Trimmed " -1_0.5E+3\t".toList "-1_0.5E+3".toList :=
    (Text.trimmed_iff _ _).mpr (by decide)
  have hwhole : Numeral.Run Char.isDigit ['1', '_', '0'] := .gap rfl (.one rfl)
  have hdec : Numeral.Decimal "-1_0.5E+3".toList (-10) :=
    .intro .minus (.intro hwhole (.present (.one rfl)) (.present (Or.inr rfl) .plus (.one rfl)))
  obtain ⟨-, hvalue, -⟩ := value_follows_grammar " -1_0.5E+3\t\r\n"
  obtain ⟨-, hbyte, -⟩ := hvalue _ _ htext hcore
  exact ⟨_, _, htext, hcore, hdec, hbyte (-10) hdec⟩

end Line

end TapeLang
