import TapeLang.Proofs.Brackets.Reports
import TapeLang.Proofs.Shorthand

/-! The brackets of a text, and what depends on them alone.

The check of a program passes over all else, so it finds the same bracket in two programs with the same
brackets in a row, counted among the brackets (`unmatched?_of_brackets_eq`). Expansion keeps the brackets
of a source as they are, unless a digit repeats one: while it reads, the brackets written are those read,
and a unit holds a bracket only if the last instruction is one (`Expander.Keeps`). -/
namespace TapeLang
set_option autoImplicit false

def isBracket (c : Char) : Bool :=
  c = '[' || c = ']'

/-- The brackets of a text, in order. -/
def brackets (text : List Char) : List Char :=
  text.filter isBracket

theorem brackets_append (a b : List Char) : brackets (a ++ b) = brackets a ++ brackets b :=
  List.filter_append ..

theorem Bracket.isBracket_toChar (b : Bracket) : isBracket b.toChar = true := by
  cases b <;> rfl

/-! ## The check -/

namespace Program

/-- The pass over a text finds what the pass over its brackets finds, if places are counted among the
brackets. -/
theorem unmatchedFrom_brackets (rank : Nat → Nat) (text : List Char) (i j : Nat) (opened : List Nat)
    (hrank : ∀ n, rank (i + n) = j + (text.take n).countP isBracket) :
    (unmatchedFrom text i opened).map rank = unmatchedFrom (brackets text) j (opened.map rank) := by
  -- the function is one for the whole text, so it also counts the open brackets on the stack
  induction text generalizing i j opened with
  | nil => simp [unmatchedFrom, brackets, List.getLast?_map]
  | cons c text ih =>
    have hi : rank i = j := by simpa using hrank 0
    have hnext : ∀ n, rank (i + 1 + n) = j + (if isBracket c then 1 else 0) +
        (text.take n).countP isBracket := by
      intro n
      have h := hrank (n + 1)
      rw [List.take_succ_cons, List.countP_cons] at h
      rw [show i + 1 + n = i + (n + 1) by omega, h]
      omega
    by_cases hopen : c = '['
    · subst hopen
      have htext : brackets ('[' :: text) = '[' :: brackets text := rfl
      rw [unmatchedFrom_open, ih (i + 1) (j + 1) _ hnext, htext, unmatchedFrom_open, List.map_cons, hi]
    by_cases hclose : c = ']'
    · subst hclose
      have htext : brackets (']' :: text) = ']' :: brackets text := rfl
      rw [htext]
      cases opened with
      | nil => rw [unmatchedFrom_surplus, List.map_nil, unmatchedFrom_surplus, Option.map_some, hi]
      | cons k opened =>
        rw [unmatchedFrom_close, List.map_cons, unmatchedFrom_close, ih (i + 1) (j + 1) _ hnext]
    · have hc : isBracket c = false := by simp [isBracket, hopen, hclose]
      have htext : brackets (c :: text) = brackets text := by simp [brackets, hc]
      simp only [hc, Bool.false_eq_true, if_false, Nat.add_zero] at hnext
      rw [unmatchedFrom_other hopen hclose, ih (i + 1) j _ hnext, htext]

/-- The number of brackets before an index. -/
def bracketRank (p : Program) (index : Nat) : Nat :=
  (p.chars.toList.take index).countP isBracket

variable {p q : Program} {k l : Nat}

theorem unmatched?_of_brackets_eq (h : brackets p.chars.toList = brackets q.chars.toList) :
    p.unmatched?.map p.bracketRank = q.unmatched?.map q.bracketRank := by
  have hp := unmatchedFrom_brackets p.bracketRank p.chars.toList 0 0 [] (by simp [bracketRank])
  have hq := unmatchedFrom_brackets q.bracketRank q.chars.toList 0 0 [] (by simp [bracketRank])
  rw [unmatched?, unmatched?, hp, hq, h, List.map_nil, List.map_nil]

/-- What the check reports of the bracket that it finds. -/
theorem check_of_unmatched (h : p.unmatched? = some k) : ∃ b : Bracket, p.get? k = some b.toChar ∧
    ∀ radius, p.check radius = .error (.unmatched b (p.position k) (p.excerpt k radius)) := by
  obtain hc | hc := (searchFails_of_unmatched h).bracket
  · refine ⟨.opening, hc, fun radius => ?_⟩
    simp only [check, h, unmatchedFault, hc]
  · refine ⟨.closing, hc, fun radius => ?_⟩
    simp only [check, h, unmatchedFault, hc]

/-- In programs with the same brackets, the brackets after the same number of them are the same. -/
theorem bracket_eq_of_bracketRank_eq {b b' : Bracket}
    (h : brackets p.chars.toList = brackets q.chars.toList)
    (hrank : p.bracketRank k = q.bracketRank l) (hp : p.get? k = some b.toChar)
    (hq : q.get? l = some b'.toChar) : b' = b := by
  have hk := getElem?_filter_of_get? hp b.isBracket_toChar
  have hl := getElem?_filter_of_get? hq b'.isBracket_toChar
  have hsame : some b.toChar = some b'.toChar := by
    rw [← hk, ← hl]
    exact congrArg₂ (fun text i => text[i]?) h hrank
  cases b <;> cases b' <;> simp [Bracket.toChar] at hsame ⊢

end Program

/-! ## Expansion -/

namespace Shorthand

/-- The last instruction of a text is a bracket. -/
def EndsInBracket (text : List Char) : Prop :=
  (text.filterMap Instruction.ofChar?).getLast? = some .openLoop ∨
    (text.filterMap Instruction.ofChar?).getLast? = some .closeLoop

/-- No digit repeats a bracket: where a digit stands, the last instruction before it is no bracket,
unless the digit is `1`. -/
def RepeatsNoBracket (source : List Char) : Prop :=
  ∀ (i : Nat) (h : i < source.length), source[i].isDigit = true → source[i] ≠ '1' →
    ¬ EndsInBracket (source.take i)

instance (text : List Char) : Decidable (EndsInBracket text) :=
  inferInstanceAs (Decidable (_ ∨ _))

instance (source : List Char) : Decidable (RepeatsNoBracket source) :=
  inferInstanceAs (Decidable (∀ (i : Nat) (h : i < source.length), source[i].isDigit = true →
    source[i] ≠ '1' → ¬ EndsInBracket (source.take i)))

theorem endsInBracket_concat_of_none {c : Char} (h : Instruction.ofChar? c = none)
    (text : List Char) : EndsInBracket (text ++ [c]) ↔ EndsInBracket text := by
  simp [EndsInBracket, List.filterMap_append, h]

theorem brackets_of_none {c : Char} (h : Instruction.ofChar? c = none) : brackets [c] = [] := by
  have hopen : c ≠ '[' := by
    rintro rfl
    cases h
  have hclose : c ≠ ']' := by
    rintro rfl
    cases h
  simp [brackets, isBracket, hopen, hclose]

theorem brackets_of_not_endsInBracket {i : Instruction} {text : List Char}
    (h : ¬ EndsInBracket (text ++ [i.toChar])) : brackets [i.toChar] = [] := by
  simp only [EndsInBracket, List.filterMap_append, List.filterMap_cons, Instruction.ofChar?_toChar,
    List.filterMap_nil, List.getLast?_append, List.getLast?_singleton] at h
  cases i with
  | openLoop => exact absurd (Or.inl rfl) h
  | closeLoop => exact absurd (Or.inr rfl) h
  | _ => rfl

theorem brackets_copies {text : String} (h : brackets text.toList = []) (n : Nat) :
    brackets (copies n text).toList = [] := by
  rw [toList_copies]
  induction n with
  | zero => rfl
  | succ n ih => rw [List.replicate_succ, List.flatten_cons, brackets_append, h, ih, List.nil_append]

end Shorthand

namespace Expander

open Shorthand

/-- What was written has the brackets of what was read, and the unit has none unless the last
instruction that was read is a bracket. -/
structure Keeps (e : Expander) (read : List Char) : Prop where
  output : brackets e.output.toList = brackets read
  unit : ¬ EndsInBracket read → brackets e.unit.toList = []

variable {e : Expander} {read : List Char}

theorem Keeps.feed_instruction (h : e.Keeps read) (i : Instruction) :
    (e.feed i.toChar).Keeps (read ++ [i.toChar]) := by
  simp only [feed, Instruction.ofChar?_toChar]
  constructor
  · rw [String.toList_push, brackets_append, h.output, brackets_append]
  · intro hends
    rw [String.toList_singleton]
    exact brackets_of_not_endsInBracket hends

theorem Keeps.feed_digit (h : e.Keeps read) {d : Char} (hi : Instruction.ofChar? d = none)
    (hd : d.isDigit = true) (hrepeat : d ≠ '1' → ¬ EndsInBracket read) :
    (e.feed d).Keeps (read ++ [d]) := by
  have hmore : brackets (copies (weight d - 1) e.unit).toList = [] := by
    by_cases hone : d = '1'
    · subst hone
      rfl
    · exact brackets_copies (h.unit (hrepeat hone)) _
  simp only [feed, hi, (repeats?_of_isDigit hd).1]
  constructor
  · rw [String.toList_append, brackets_append, hmore, brackets_append, brackets_of_none hi, h.output]
  · intro hends
    rw [endsInBracket_concat_of_none hi] at hends
    rw [String.toList_append, brackets_append, hmore, h.unit hends, List.nil_append]

theorem Keeps.feed_other (h : e.Keeps read) {c : Char} (hi : Instruction.ofChar? c = none)
    (hc : c.isDigit = false) : (e.feed c).Keeps (read ++ [c]) := by
  simp only [feed, hi, repeats?_of_not_isDigit hc]
  constructor
  · rw [brackets_append, brackets_of_none hi, h.output, List.append_nil]
  · rw [endsInBracket_concat_of_none hi]
    exact h.unit

theorem Keeps.feed (h : e.Keeps read) {c : Char}
    (hrepeat : c.isDigit = true → c ≠ '1' → ¬ EndsInBracket read) :
    (e.feed c).Keeps (read ++ [c]) := by
  cases hi : Instruction.ofChar? c with
  | some i =>
    rw [← Instruction.toChar_of_ofChar? hi]
    exact h.feed_instruction i
  | none =>
    cases hc : c.isDigit with
    | true => exact h.feed_digit hi hc (hrepeat hc)
    | false => exact h.feed_other hi hc

theorem Keeps.foldl (h : e.Keeps read) {text : List Char} (hrepeat : RepeatsNoBracket (read ++ text)) :
    (text.foldl Expander.feed e).Keeps (read ++ text) := by
  induction text generalizing e read with
  | nil => rwa [List.append_nil]
  | cons c text ih =>
    have hnext : (e.feed c).Keeps (read ++ [c]) := by
      apply h.feed
      simpa using hrepeat read.length (by simp)
    have hassoc : read ++ c :: text = read ++ [c] ++ text := by simp
    rw [hassoc] at hrepeat ⊢
    exact ih hnext hrepeat

theorem brackets_expand {source : String} (h : RepeatsNoBracket source.toList) :
    brackets (expand source).toList = brackets source.toList := by
  have hstart : ({} : Expander).Keeps [] := ⟨rfl, fun _ => rfl⟩
  exact (hstart.foldl h).output

end Expander

namespace Program

/-- The check of a source and of its expansion agree, unless a digit repeats a bracket. Either both
are accepted; or both are refused, for the same bracket: the same kind, after the same number of
brackets. -/
theorem check_survives_expansion (source : String) (h : Shorthand.RepeatsNoBracket source.toList)
    (radius radius' : Nat) :
    let p := Program.ofString source
    let q := Program.ofString (expand source)
    (p.check radius = .ok () ↔ q.check radius' = .ok ()) ∧
    ∀ fault fault', p.check radius = .error fault → q.check radius' = .error fault' →
      ∃ bracket position excerpt position' excerpt',
        fault = .unmatched bracket position excerpt ∧
        fault' = .unmatched bracket position' excerpt' ∧
        p.get? position.offset = some bracket.toChar ∧
        q.get? position'.offset = some bracket.toChar ∧
        (source.toList.take position.offset).countP isBracket =
          ((expand source).toList.take position'.offset).countP isBracket := by
  intro p q
  have hbrackets : brackets p.chars.toList = brackets q.chars.toList :=
    (Expander.brackets_expand h).symm
  have hfound := unmatched?_of_brackets_eq hbrackets
  rcases hp : p.unmatched? with _ | k <;> rcases hq : q.unmatched? with _ | l <;>
    rw [hp, hq] at hfound
  · simp [check, hp, hq]
  · cases hfound
  · cases hfound
  · refine ⟨by simp [check, hp, hq], ?_⟩
    have hrank : p.bracketRank k = q.bracketRank l := Option.some.inj hfound
    obtain ⟨b, hk, hcheck⟩ := check_of_unmatched hp
    obtain ⟨b', hl, hcheck'⟩ := check_of_unmatched hq
    obtain rfl := bracket_eq_of_bracketRank_eq hbrackets hrank hk hl
    intro fault fault' hfault hfault'
    rw [hcheck, Except.error.injEq] at hfault
    rw [hcheck', Except.error.injEq] at hfault'
    exact ⟨b', _, _, _, _, hfault.symm, hfault'.symm, hk, hl, hrank⟩

theorem check_survives_expansion_of_surplus_bracket :
    Shorthand.RepeatsNoBracket "7+3[ x1-2]]1.9".toList ∧
    ∃ bracket position excerpt position' excerpt',
      (Program.ofString "7+3[ x1-2]]1.9").check 3 = .error (.unmatched bracket position excerpt) ∧
      (Program.ofString (expand "7+3[ x1-2]]1.9")).check 3 =
        .error (.unmatched bracket position' excerpt') ∧
      ("7+3[ x1-2]]1.9".toList.take position.offset).countP isBracket =
        ((expand "7+3[ x1-2]]1.9").toList.take position'.offset).countP isBracket := by
  have h : Shorthand.RepeatsNoBracket "7+3[ x1-2]]1.9".toList := by decide
  obtain ⟨-, hsame⟩ := check_survives_expansion "7+3[ x1-2]]1.9" h 3 3
  obtain ⟨bracket, position, excerpt, position', excerpt', hp, hq, -, -, hrank⟩ := hsame _ _ rfl rfl
  exact ⟨h, bracket, position, excerpt, position', excerpt', congrArg Except.error hp,
    congrArg Except.error hq, hrank⟩

end Program

end TapeLang
