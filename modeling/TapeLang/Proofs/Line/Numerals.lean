import Mathlib.Data.List.TakeWhile
import TapeLang.Numeral

/-! The grammar of numerals, and that `Numeral.value?` reads exactly its texts.

A numeral is read by cutting it at the first mark of an exponent and then at the first point, and by
testing the parts. In a text of the grammar those marks stand where the parts meet, since a run of
digits has none of them, so the cuts find the parts again (`decimal?_eq_some_iff`). The leading `0x`
that is looked for before occurs in no decimal numeral (`magnitude?_eq_some_iff`). -/
namespace TapeLang.Numeral
set_option autoImplicit false

/-! ## The grammar -/

/-- One or more digits, with single underscores only between two of them. -/
inductive Run (digit : Char → Bool) : List Char → Prop
  | one {c : Char} (hc : digit c = true) : Run digit [c]
  | next {c : Char} {rest : List Char} (hc : digit c = true) (h : Run digit rest) :
      Run digit (c :: rest)
  | gap {c : Char} {rest : List Char} (hc : digit c = true) (h : Run digit rest) :
      Run digit (c :: '_' :: rest)

/-- An optional sign, and whether it is a minus sign. -/
inductive Sign : List Char → Bool → Prop
  | absent : Sign [] false
  | plus : Sign ['+'] false
  | minus : Sign ['-'] true

/-- An optional point with digits after it. -/
inductive Fraction : List Char → Prop
  | absent : Fraction []
  | present {digits : List Char} (h : Run Char.isDigit digits) : Fraction ('.' :: digits)

/-- An optional exponent. -/
inductive Exponent : List Char → Prop
  | absent : Exponent []
  | present {mark : Char} {sign digits : List Char} {negative : Bool}
      (hm : mark = 'e' ∨ mark = 'E') (hs : Sign sign negative) (h : Run Char.isDigit digits) :
      Exponent (mark :: (sign ++ digits))

/-- A decimal numeral without its sign, and the number that its first run of digits denotes. -/
inductive Unsigned : List Char → Nat → Prop
  | intro {whole fraction exponent : List Char} (hw : Run Char.isDigit whole)
      (hf : Fraction fraction) (he : Exponent exponent) :
      Unsigned (whole ++ fraction ++ exponent) (Nat.ofDigitChars 10 (whole.filter (· ≠ '_')) 0)

/-- A decimal numeral and the whole number that is its whole part. -/
inductive Decimal : List Char → Int → Prop
  | intro {sign body : List Char} {negative : Bool} {n : Nat} (hs : Sign sign negative)
      (h : Unsigned body n) : Decimal (sign ++ body) (if negative then -(n : Int) else n)

/-- A hexadecimal numeral. -/
inductive Hexadecimal : List Char → Prop
  | intro {sign digits : List Char} {negative : Bool} {mark : Char} (hs : Sign sign negative)
      (hm : mark = 'x' ∨ mark = 'X') (h : Run isHexDigit digits) :
      Hexadecimal (sign ++ '0' :: mark :: digits)

/-! ## Runs of digits -/

theorem Run.head {digit : Char → Bool} {text : List Char} (h : Run digit text) :
    ∃ c rest, text = c :: rest ∧ digit c = true := by
  cases h with
  | one hc => exact ⟨_, _, rfl, hc⟩
  | next hc _ => exact ⟨_, _, rfl, hc⟩
  | gap hc _ => exact ⟨_, _, rfl, hc⟩

theorem Run.mem {digit : Char → Bool} {text : List Char} (h : Run digit text) :
    ∀ c ∈ text, digit c = true ∨ c = '_' := by
  induction h with
  | one hc => simp [hc]
  | next hc _ ih => simpa [hc] using ih
  | gap hc _ ih => simpa [hc] using ih

theorem Run.not_mem {digit : Char → Bool} {text : List Char} (h : Run digit text) {c : Char}
    (hc : digit c = false) (hgap : c ≠ '_') : c ∉ text := by
  intro hmem
  obtain hd | hd := h.mem c hmem
  · rw [hc] at hd
    cases hd
  · exact hgap hd

theorem run_of_isRun {digit : Char → Bool} {text : List Char} (h : isRun digit text = true) :
    Run digit text := by
  fun_induction isRun digit text with
  | case1 => cases h
  | case2 c => exact Run.one h
  | case3 c d rest ihgap ihnext =>
    obtain ⟨hc, hrest⟩ := Bool.and_eq_true_iff.mp h
    split at hrest
    · rename_i hd
      subst hd
      exact Run.gap hc (ihgap hrest)
    · exact Run.next hc (ihnext hrest)

theorem Run.isRun {digit : Char → Bool} (hgap : digit '_' = false) {text : List Char}
    (h : Run digit text) : isRun digit text = true := by
  induction h with
  | one hc => exact hc
  | @next c rest hc hrest ih =>
    obtain ⟨d, rest, rfl, hd⟩ := hrest.head
    have hne : d ≠ '_' := by
      rintro rfl
      rw [hgap] at hd
      cases hd
    rw [Numeral.isRun, hc, if_neg hne, ih]
    rfl
  | gap hc _ ih =>
    rw [Numeral.isRun, hc, if_pos rfl, ih]
    rfl

theorem isRun_iff {digit : Char → Bool} (hgap : digit '_' = false) (text : List Char) :
    isRun digit text = true ↔ Run digit text :=
  ⟨run_of_isRun, Run.isRun hgap⟩

theorem isRun_decimal_iff (text : List Char) :
    isRun Char.isDigit text = true ↔ Run Char.isDigit text :=
  isRun_iff (by decide) text

theorem isRun_hexadecimal_iff (text : List Char) :
    isRun isHexDigit text = true ↔ Run isHexDigit text :=
  isRun_iff (by decide) text

/-! ## Cuts and signs -/

theorem cut_of_not_mem {p : Char → Bool} {text : List Char} (h : ∀ c ∈ text, p c = false) :
    cut p text = (text, none) := by
  have hdrop : text.dropWhile (!p ·) = [] := List.dropWhile_eq_nil_iff.mpr (by simpa using h)
  rw [cut, hdrop]

theorem cut_append {p : Char → Bool} {a : List Char} {c : Char} (h : ∀ x ∈ a, p x = false)
    (hc : p c = true) (b : List Char) : cut p (a ++ c :: b) = (a, some b) := by
  have hnot : ∀ x ∈ a, (!p x) = true := by simpa using h
  have hdrop : (a ++ c :: b).dropWhile (!p ·) = c :: b := by
    rw [List.dropWhile_append_of_pos hnot, List.dropWhile_cons_of_neg (by simp [hc])]
  have htake : (a ++ c :: b).takeWhile (!p ·) = a := by
    rw [List.takeWhile_append_of_pos hnot, List.takeWhile_cons_of_neg (by simp [hc]), List.append_nil]
  rw [cut, hdrop, htake]

/-- A text without a mark, or one that is cut at its first mark. -/
theorem cut_cases (p : Char → Bool) (text : List Char) :
    cut p text = (text, none) ∨
      ∃ a c b, text = a ++ c :: b ∧ p c = true ∧ cut p text = (a, some b) := by
  have hsplit : text.takeWhile (!p ·) ++ text.dropWhile (!p ·) = text :=
    List.takeWhile_append_dropWhile
  rw [cut]
  cases hdrop : text.dropWhile (!p ·) with
  | nil => exact Or.inl rfl
  | cons c b =>
    have hc := List.head?_dropWhile_not (!p ·) text
    rw [hdrop] at hc hsplit
    exact Or.inr ⟨_, c, b, hsplit.symm, by simpa using hc, rfl⟩

theorem exists_sign (text : List Char) :
    ∃ sign negative body, Sign sign negative ∧ text = sign ++ body ∧
      splitSign text = (negative, body) := by
  unfold splitSign
  split
  · exact ⟨_, _, _, Sign.minus, rfl, rfl⟩
  · exact ⟨_, _, _, Sign.plus, rfl, rfl⟩
  · exact ⟨_, _, _, Sign.absent, rfl, rfl⟩

/-- A sign is taken off a text that goes on with a digit. -/
theorem Sign.splitSign_append {sign body : List Char} {negative : Bool} (h : Sign sign negative)
    {digit : Char} (hbody : body.head? = some digit) (hdigit : digit.isDigit = true) :
    splitSign (sign ++ body) = (negative, body) := by
  obtain ⟨rest, rfl⟩ := List.head?_eq_some_iff.mp hbody
  cases h with
  | absent =>
    rw [List.nil_append]
    unfold splitSign
    split
    · rename_i he
      cases he
      cases hdigit
    · rename_i he
      cases he
      cases hdigit
    · rfl
  | plus => rfl
  | minus => rfl

/-! ## Decimal numerals -/

theorem runValue_eq (run : List Char) :
    runValue run = Nat.ofDigitChars 10 (run.filter (· ≠ '_')) 0 :=
  Nat.ofDigitChars_eq_foldl.symm

theorem Fraction.not_mem {fraction : List Char} (h : Fraction fraction) {c : Char}
    (hc : c.isDigit = false) (hgap : c ≠ '_') (hpoint : c ≠ '.') : c ∉ fraction := by
  cases h with
  | absent => exact List.not_mem_nil
  | present h => simp [hpoint, h.not_mem hc hgap]

theorem Sign.not_mem {sign : List Char} {negative : Bool} (h : Sign sign negative) {c : Char}
    (hplus : c ≠ '+') (hminus : c ≠ '-') : c ∉ sign := by
  cases h with
  | absent => exact List.not_mem_nil
  | plus => simpa using hplus
  | minus => simpa using hminus

/-- The point of a text is found again, and digits after it. -/
theorem Fraction.cut {whole fraction : List Char} (hf : Fraction fraction)
    (hw : Run Char.isDigit whole) :
    ∃ digits, cut (· = '.') (whole ++ fraction) = (whole, digits) ∧
      digits.all (isRun Char.isDigit) = true := by
  have hpoint : '.' ∉ whole := hw.not_mem (by decide) (by decide)
  have hnot : ∀ c ∈ whole, decide (c = '.') = false := by
    intro c hc
    rw [decide_eq_false_iff_not]
    rintro rfl
    exact hpoint hc
  cases hf with
  | absent =>
    rw [List.append_nil]
    exact ⟨none, cut_of_not_mem hnot, rfl⟩
  | present h => exact ⟨some _, cut_append hnot rfl _, (isRun_decimal_iff _).mpr h⟩

/-- The mark of an exponent is found again, and digits after it and its sign. -/
theorem Exponent.cut {mantissa exponent : List Char} (he : Exponent exponent) (hlower : 'e' ∉ mantissa)
    (hupper : 'E' ∉ mantissa) :
    ∃ rest, cut isExponentMark (mantissa ++ exponent) = (mantissa, rest) ∧
      rest.all (fun e => isRun Char.isDigit (splitSign e).2) = true := by
  have hnot : ∀ c ∈ mantissa, isExponentMark c = false := by
    intro c hc
    rw [isExponentMark, Bool.or_eq_false_iff, decide_eq_false_iff_not, decide_eq_false_iff_not]
    constructor
    · rintro rfl
      exact hlower hc
    · rintro rfl
      exact hupper hc
  cases he with
  | absent =>
    rw [List.append_nil]
    exact ⟨none, cut_of_not_mem hnot, rfl⟩
  | @present mark sign digits negative hm hs h =>
    have hmark : isExponentMark mark = true := by
      obtain rfl | rfl := hm <;> rfl
    obtain ⟨c, rest, rfl, hc⟩ := h.head
    refine ⟨some (sign ++ c :: rest), cut_append hnot hmark _, ?_⟩
    rw [Option.all_some, hs.splitSign_append rfl hc]
    exact (isRun_decimal_iff _).mpr h

theorem exists_fraction {mantissa whole : List Char} {digits : Option (List Char)}
    (hcut : cut (· = '.') mantissa = (whole, digits))
    (h : digits.all (isRun Char.isDigit) = true) :
    ∃ fraction, Fraction fraction ∧ mantissa = whole ++ fraction := by
  obtain hnone | ⟨a, c, b, htext, hc, hsome⟩ := cut_cases (· = '.') mantissa
  · rw [hcut] at hnone
    cases hnone
    exact ⟨[], Fraction.absent, (List.append_nil _).symm⟩
  · rw [hcut] at hsome
    cases hsome
    obtain rfl : c = '.' := of_decide_eq_true hc
    exact ⟨_, Fraction.present ((isRun_decimal_iff b).mp h), htext⟩

theorem exists_exponent {text mantissa : List Char} {rest : Option (List Char)}
    (hcut : cut isExponentMark text = (mantissa, rest))
    (h : rest.all (fun e => isRun Char.isDigit (splitSign e).2) = true) :
    ∃ exponent, Exponent exponent ∧ text = mantissa ++ exponent := by
  obtain hnone | ⟨a, c, b, htext, hc, hsome⟩ := cut_cases isExponentMark text
  · rw [hcut] at hnone
    cases hnone
    exact ⟨[], Exponent.absent, (List.append_nil _).symm⟩
  · rw [hcut] at hsome
    cases hsome
    have hmark : c = 'e' ∨ c = 'E' := by simpa [isExponentMark] using hc
    obtain ⟨sign, negative, digits, hs, rfl, hsplit⟩ := exists_sign b
    rw [Option.all_some, hsplit, isRun_decimal_iff] at h
    exact ⟨_, Exponent.present hmark hs h, htext⟩

theorem not_mem_mantissa {whole fraction : List Char} (hw : Run Char.isDigit whole)
    (hf : Fraction fraction) {c : Char} (hc : c.isDigit = false) (hgap : c ≠ '_')
    (hpoint : c ≠ '.') : c ∉ whole ++ fraction := by
  rw [List.mem_append, not_or]
  exact ⟨hw.not_mem hc hgap, hf.not_mem hc hgap hpoint⟩

/-- The decimal numerals are read, with the value of their first run of digits. -/
theorem decimal?_eq_some_iff (text : List Char) (n : Nat) :
    decimal? text = some n ↔ Unsigned text n := by
  constructor
  · intro h
    simp only [decimal?] at h
    rcases hexponent : cut isExponentMark text with ⟨mantissa, rest⟩
    rcases hfraction : cut (· = '.') mantissa with ⟨whole, digits⟩
    simp only [hexponent, hfraction] at h
    split at h
    · rename_i hparts
      rw [Bool.and_eq_true, Bool.and_eq_true] at hparts
      obtain ⟨⟨hw, hf⟩, he⟩ := hparts
      obtain ⟨fraction, hf', rfl⟩ := exists_fraction hfraction hf
      obtain ⟨exponent, he', rfl⟩ := exists_exponent hexponent he
      rw [← Option.some.inj h, runValue_eq]
      exact Unsigned.intro ((isRun_decimal_iff whole).mp hw) hf' he'
    · cases h
  · intro h
    cases h with
    | @intro whole fraction exponent hw hf he =>
      obtain ⟨rest, hexponent, hrest⟩ := he.cut (not_mem_mantissa hw hf rfl (by decide) (by decide))
        (not_mem_mantissa hw hf rfl (by decide) (by decide))
      obtain ⟨digits, hfraction, hdigits⟩ := hf.cut hw
      simp only [decimal?, hexponent, hfraction, (isRun_decimal_iff whole).mpr hw, hdigits, hrest,
        runValue_eq, Bool.and_self, if_true]

/-! ## All numerals -/

theorem Exponent.not_mem {exponent : List Char} (h : Exponent exponent) {c : Char}
    (hc : c.isDigit = false) (hmarks : c ∉ ['_', 'e', 'E', '+', '-']) : c ∉ exponent := by
  simp only [List.mem_cons, List.not_mem_nil, or_false, not_or] at hmarks
  obtain ⟨hgap, hlower, hupper, hplus, hminus⟩ := hmarks
  cases h with
  | absent => exact List.not_mem_nil
  | present hm hs h =>
    simp only [List.mem_cons, List.mem_append, not_or]
    refine ⟨?_, hs.not_mem hplus hminus, h.not_mem hc hgap⟩
    rintro rfl
    obtain hm | hm := hm
    · exact hlower hm
    · exact hupper hm

/-- A decimal numeral does not start like a hexadecimal one. -/
theorem Unsigned.magnitude?_eq {text : List Char} {n : Nat} (h : Unsigned text n) :
    magnitude? text = decimal? text := by
  have hmark : ∀ mark ∈ ['x', 'X'], mark ∉ text := by
    intro mark hmem
    cases h with
    | intro hw hf he =>
      simp only [List.mem_cons, List.not_mem_nil, or_false] at hmem
      rw [List.mem_append, not_or]
      obtain rfl | rfl := hmem
      · exact ⟨not_mem_mantissa hw hf rfl (by decide) (by decide), he.not_mem rfl (by decide)⟩
      · exact ⟨not_mem_mantissa hw hf rfl (by decide) (by decide), he.not_mem rfl (by decide)⟩
  unfold magnitude?
  split
  · exact absurd (by simp) (hmark 'x' (by simp))
  · exact absurd (by simp) (hmark 'X' (by simp))
  · rfl

theorem magnitude?_eq_some_iff (text : List Char) (n : Nat) :
    magnitude? text = some n ↔
      (∃ mark digits, (mark = 'x' ∨ mark = 'X') ∧ Run isHexDigit digits ∧
        text = '0' :: mark :: digits ∧ n = 0) ∨ Unsigned text n := by
  constructor
  · intro h
    unfold magnitude? at h
    split at h
    · rename_i digits
      split at h
      · rename_i hrun
        exact Or.inl ⟨'x', digits, Or.inl rfl, (isRun_hexadecimal_iff digits).mp hrun, rfl,
          (Option.some.inj h).symm⟩
      · cases h
    · rename_i digits
      split at h
      · rename_i hrun
        exact Or.inl ⟨'X', digits, Or.inr rfl, (isRun_hexadecimal_iff digits).mp hrun, rfl,
          (Option.some.inj h).symm⟩
      · cases h
    · exact Or.inr ((decimal?_eq_some_iff text n).mp h)
  · rintro (⟨mark, digits, rfl | rfl, hrun, rfl, rfl⟩ | h)
    · rw [magnitude?, (isRun_hexadecimal_iff digits).mpr hrun, if_pos rfl]
    · rw [magnitude?, (isRun_hexadecimal_iff digits).mpr hrun, if_pos rfl]
    · rw [h.magnitude?_eq]
      exact (decimal?_eq_some_iff text n).mpr h

theorem Unsigned.head {text : List Char} {n : Nat} (h : Unsigned text n) :
    ∃ c, text.head? = some c ∧ c.isDigit = true := by
  cases h with
  | intro hw hf he =>
    obtain ⟨c, rest, rfl, hc⟩ := hw.head
    exact ⟨c, rfl, hc⟩

theorem value?_eq (text : List Char) :
    value? text = (magnitude? (splitSign (Text.trim text)).2).map fun (n : Nat) =>
      if (splitSign (Text.trim text)).1 then -(n : Int) else (n : Int) := by
  rw [value?]
  obtain ⟨negative, body⟩ := splitSign (Text.trim text)
  simp only
  cases magnitude? body <;> rfl

/-- Exactly the numerals are read: a hexadecimal one as zero, a decimal one as its whole part. -/
theorem value?_eq_some_iff (text : List Char) (n : Int) :
    value? text = some n ↔
      Hexadecimal (Text.trim text) ∧ n = 0 ∨ Decimal (Text.trim text) n := by
  rw [value?_eq, Option.map_eq_some_iff]
  constructor
  · rintro ⟨m, hm, rfl⟩
    obtain ⟨sign, negative, body, hs, hcore, hsplit⟩ := exists_sign (Text.trim text)
    rw [hsplit] at hm ⊢
    rw [hcore]
    obtain ⟨mark, digits, hmark, hrun, rfl, rfl⟩ | hbody := (magnitude?_eq_some_iff body m).mp hm
    · refine Or.inl ⟨Hexadecimal.intro hs hmark hrun, ?_⟩
      split <;> rfl
    · exact Or.inr (Decimal.intro hs hbody)
  · generalize Text.trim text = core
    rintro (⟨hcore, rfl⟩ | hcore)
    · cases hcore with
      | @intro sign digits negative mark hs hmark hrun =>
        rw [hs.splitSign_append rfl (by decide)]
        refine ⟨0, (magnitude?_eq_some_iff _ 0).mpr (Or.inl ⟨mark, digits, hmark, hrun, rfl, rfl⟩), ?_⟩
        split <;> rfl
    · cases hcore with
      | intro hs hbody =>
        obtain ⟨c, hhead, hc⟩ := hbody.head
        rw [hs.splitSign_append hhead hc]
        exact ⟨_, (magnitude?_eq_some_iff _ _).mpr (Or.inr hbody), rfl⟩

/-! ## Numerals of numbers -/

theorem exists_digits_of_repr (n : Nat) : ∃ c digits, n.repr.toList = c :: digits ∧
    (∀ d ∈ c :: digits, d.isDigit = true) ∧ runValue (c :: digits) = n := by
  have hdigit : ∀ d ∈ n.repr.toList, d.isDigit = true := by
    intro d hd
    rw [Nat.toList_repr] at hd
    exact Nat.isDigit_of_mem_toDigits (by decide) (by decide) hd
  have hvalue : runValue n.repr.toList = n := by
    have hplain : n.repr.toList.filter (· ≠ '_') = n.repr.toList := by
      rw [List.filter_eq_self]
      intro d hd
      simp only [decide_eq_true_eq]
      rintro rfl
      cases hdigit '_' hd
    rw [runValue_eq, hplain, Nat.toList_repr]
    exact Nat.ofDigitChars_ten_toDigits
  have hne : n.repr.toList ≠ [] := by
    rw [Nat.toList_repr]
    exact Nat.toDigits_ne_nil
  obtain ⟨c, digits, hcons⟩ := List.exists_cons_of_ne_nil hne
  rw [hcons] at hdigit hvalue
  exact ⟨c, digits, hcons, hdigit, hvalue⟩

theorem run_of_digits {c : Char} {digits : List Char} (h : ∀ d ∈ c :: digits, d.isDigit = true) :
    Run Char.isDigit (c :: digits) := by
  induction digits generalizing c with
  | nil => exact Run.one (h c List.mem_cons_self)
  | cons d digits ih =>
    exact Run.next (h c List.mem_cons_self) (ih fun x hx => h x (List.mem_cons_of_mem c hx))

theorem unsigned_repr (n : Nat) : Unsigned n.repr.toList n := by
  obtain ⟨c, digits, hrepr, hdigit, hvalue⟩ := exists_digits_of_repr n
  have h := Unsigned.intro (run_of_digits hdigit) Fraction.absent Exponent.absent
  rw [List.append_nil, List.append_nil, ← runValue_eq, hvalue] at h
  rwa [hrepr]

/-- The numeral of a whole number is a decimal numeral of it. -/
theorem decimal_repr (n : Int) : Decimal n.repr.toList n := by
  cases n with
  | ofNat m => exact Decimal.intro Sign.absent (unsigned_repr m)
  | negSucc m =>
    have hrepr : (Int.negSucc m).repr.toList = ['-'] ++ (m + 1).repr.toList := by
      rw [Int.repr, String.toList_append]
      rfl
    rw [hrepr]
    exact Decimal.intro Sign.minus (unsigned_repr (m + 1))

end TapeLang.Numeral
