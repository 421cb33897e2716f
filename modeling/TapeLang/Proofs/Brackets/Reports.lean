import Mathlib
import TapeLang.Proofs.Machine.Operations

/-! Where the report of a bracket points.

A report gives a line and a column, and shows the text around the bracket with a caret below. Lines
and columns are those of the program split at its newlines. The text before the bracket is cut into
whole lines and the start of a line (`exists_lines`): the whole lines are counted by the line, and the
rest by the column. A window never shows a newline, so that a report has three lines, and its middle
is the bracket because an index below 2 ^ 63 is itself as a signed word. -/
namespace TapeLang
set_option autoImplicit false

/-! ## Texts split at newlines -/

theorem splitOn_of_not_mem {text : List Char} (h : '\n' ∉ text) : text.splitOn '\n' = [text] := by
  rw [List.splitOn_eq_splitOnP]
  apply List.splitOnP_eq_singleton
  intro c hc
  rw [beq_eq_false_iff_ne]
  rintro rfl
  exact h hc

theorem splitOn_newline {line : List Char} (h : '\n' ∉ line) (rest : List Char) :
    (line ++ '\n' :: rest).splitOn '\n' = line :: rest.splitOn '\n' := by
  have hs := List.splitOnP_append_cons (p := (· == '\n')) line rest (beq_self_eq_true '\n')
  rw [← List.splitOn_eq_splitOnP, ← List.splitOn_eq_splitOnP, ← List.splitOn_eq_splitOnP,
    splitOn_of_not_mem h] at hs
  exact hs

/-- Lines one after the other, each with its newline. -/
def joinLines (lines : List (List Char)) : List Char :=
  lines.flatMap (· ++ ['\n'])

theorem joinLines_cons (line : List Char) (lines : List (List Char)) (rest : List Char) :
    joinLines (line :: lines) ++ rest = line ++ '\n' :: (joinLines lines ++ rest) := by
  simp [joinLines]

/-- A text is some whole lines and the start of a line. -/
theorem exists_lines (text : List Char) : ∃ lines start, (∀ line ∈ lines, '\n' ∉ line) ∧
    '\n' ∉ start ∧ text = joinLines lines ++ start := by
  induction text with
  | nil => exact ⟨[], [], by simp, by simp, rfl⟩
  | cons c text ih =>
    obtain ⟨lines, start, hlines, hstart, rfl⟩ := ih
    by_cases hc : c = '\n'
    · subst hc
      refine ⟨[] :: lines, start, by simpa using hlines, hstart, ?_⟩
      rw [joinLines_cons]
      rfl
    · have hne : '\n' ≠ c := Ne.symm hc
      cases lines with
      | nil => exact ⟨[], c :: start, by simp, by simp [hne, hstart], rfl⟩
      | cons line lines =>
        refine ⟨(c :: line) :: lines, start, ?_, hstart, ?_⟩
        · simpa [hne] using hlines
        · rw [joinLines_cons, joinLines_cons]
          rfl

theorem splitOn_joinLines {lines : List (List Char)} (h : ∀ line ∈ lines, '\n' ∉ line)
    (rest : List Char) : (joinLines lines ++ rest).splitOn '\n' = lines ++ rest.splitOn '\n' := by
  induction lines with
  | nil => rfl
  | cons line lines ih =>
    rw [joinLines_cons, splitOn_newline (h line (by simp)), ih fun l hl => h l (by simp [hl])]
    rfl

theorem count_joinLines {lines : List (List Char)} (h : ∀ line ∈ lines, '\n' ∉ line)
    {start : List Char} (hs : '\n' ∉ start) :
    (joinLines lines ++ start).count '\n' = lines.length := by
  induction lines with
  | nil => exact List.count_eq_zero.mpr hs
  | cons line lines ih =>
    rw [joinLines_cons, List.count_append, List.count_eq_zero.mpr (h line (by simp)),
      List.count_cons_self, ih fun l hl => h l (by simp [hl]), List.length_cons]
    omega

theorem length_joinLines (lines : List (List Char)) :
    (joinLines lines).length = (lines.map (·.length + 1)).sum := by
  simp [joinLines, List.length_flatMap]

theorem splitOn_of_start {start : List Char} (hs : '\n' ∉ start) {c : Char} (hc : c ≠ '\n')
    (text : List Char) :
    ∃ rest lines, (start ++ c :: text).splitOn '\n' = (start ++ c :: rest) :: lines := by
  obtain ⟨lines, last, hlines, hlast, rfl⟩ := exists_lines text
  cases lines with
  | nil =>
    refine ⟨last, [], splitOn_of_not_mem ?_⟩
    simp [joinLines, hs, Ne.symm hc, hlast]
  | cons line lines =>
    refine ⟨line, (joinLines lines ++ last).splitOn '\n', ?_⟩
    rw [joinLines_cons, ← List.cons_append, ← List.append_assoc]
    apply splitOn_newline
    have hline := hlines line (by simp)
    simp [hs, Ne.symm hc, hline]

/-- What stands behind the last newline of a text. -/
theorem takeWhile_reverse_joinLines (lines : List (List Char)) {start : List Char}
    (hs : '\n' ∉ start) :
    (joinLines lines ++ start).reverse.takeWhile (· ≠ '\n') = start.reverse := by
  have hall : ∀ c ∈ start.reverse, decide (c ≠ '\n') = true := by
    intro c hc
    rw [decide_eq_true_eq]
    rintro rfl
    exact hs (List.mem_reverse.mp hc)
  rw [List.reverse_append, List.takeWhile_append_of_pos hall]
  obtain rfl | ⟨init, last, rfl⟩ := lines.eq_nil_or_concat
  · simp [joinLines]
  · simp [joinLines]

/-! ## Lines and columns -/

namespace Program

variable {p : Program} {k : Nat}

theorem split_of_get? {c : Char} (h : p.get? k = some c) :
    p.chars.toList = p.chars.toList.take k ++ c :: p.chars.toList.drop (k + 1) := by
  have hs := List.take_append_drop (k + 1) p.chars.toList
  rw [toList_eq_of_get? h, List.append_assoc] at hs
  exact hs.symm

theorem position_eq {c : Char} (h : p.get? k = some c) (hc : c ≠ '\n')
    {lines : List (List Char)} {start : List Char} (hlines : ∀ line ∈ lines, '\n' ∉ line)
    (hstart : '\n' ∉ start) (he : p.chars.toList.take k = joinLines lines ++ start) :
    p.position k = ⟨lines.length + 1, start.length + 1, k⟩ := by
  have hk := lt_length_of_get? h
  have hmin : min k (p.length - 1) = k := by omega
  have hline : (p.chars.toList.take (k + 1)).count '\n' = lines.length := by
    rw [toList_eq_of_get? h, he, List.count_append, count_joinLines hlines hstart,
      List.count_eq_zero.mpr (by simpa using Ne.symm hc), Nat.add_zero]
  have hcolumn : ((p.chars.toList.take k).reverse.takeWhile (· ≠ '\n')).length = start.length := by
    rw [he, takeWhile_reverse_joinLines lines hstart, List.length_reverse]
  simp only [position, hmin, hline, hcolumn]

/-! ## Windows -/

theorem shown_ne_newline (p : Program) (i : Int) : p.shown i ≠ '\n' := by
  have hspace : ' ' ≠ '\n' := by decide
  unfold shown
  split
  · split
    · split
      · exact hspace
      · rintro rfl
        rename_i hblank
        exact hblank (by decide)
    · exact hspace
  · exact hspace

theorem shown_of_get? {c : Char} (h : p.get? k = some c)
    (hc : (Text.isBlank c || Text.isControl c) = false) : p.shown k = c := by
  change p.shown (Int.ofNat k) = c
  simp only [shown, h, hc, Bool.false_eq_true, if_false]

theorem window_excerpt (p : Program) (k radius : Nat) :
    (p.excerpt k radius).window.toList = (List.range (2 * radius + 1)).map fun (i : Nat) =>
      p.shown (Int.bmod k UInt64.size - radius + i) := by
  simp only [excerpt, String.toList_ofList, List.map_map, Function.comp_def]

/-- An index in the lower half of the words stands for itself as a signed word. -/
theorem bmod_of_lt (h : k < 2 ^ 63) : Int.bmod k UInt64.size = k := by
  have hsize : UInt64.size = 2 * 2 ^ 63 := rfl
  apply Int.bmod_eq_of_le
  · omega
  · rw [hsize]
    omega

theorem middle_excerpt (hk : k < 2 ^ 63) (radius : Nat) :
    (p.excerpt k radius).window.toList[radius]? = some (p.shown k) := by
  have hr : radius < 2 * radius + 1 := by omega
  have hmiddle : (k : Int) - radius + radius = k := by omega
  rw [window_excerpt, List.getElem?_map, List.getElem?_range hr, bmod_of_lt hk, Option.map_some,
    hmiddle]

end Program

/-! ## Reports -/

def Bracket.toChar : Bracket → Char
  | .opening => '['
  | .closing => ']'

theorem Bracket.isShown (b : Bracket) :
    b.toChar ≠ '\n' ∧ (Text.isBlank b.toChar || Text.isControl b.toChar) = false := by
  cases b <;> decide

theorem newline_not_mem_repr (n : Nat) : '\n' ∉ n.repr.toList := by
  intro h
  rw [Nat.toList_repr] at h
  have hdigit := Nat.isDigit_of_mem_toDigits (by decide) (by decide) h
  revert hdigit
  decide

theorem newline_not_mem_append {a b : String} (ha : '\n' ∉ a.toList) (hb : '\n' ∉ b.toList) :
    '\n' ∉ (a ++ b).toList := by
  rw [String.toList_append, List.mem_append, not_or]
  exact ⟨ha, hb⟩

theorem newline_not_mem_place (position : Position) : '\n' ∉ position.text.toList := by
  rw [Position.text]
  apply newline_not_mem_append _ (newline_not_mem_repr _)
  apply newline_not_mem_append _ (by decide)
  exact newline_not_mem_append (by decide) (newline_not_mem_repr _)

theorem newline_not_mem_message (bracket : Bracket) (position : Position) (excerpt : Excerpt) :
    '\n' ∉ ("Error: " ++ (Fault.unmatched bracket position excerpt).message).toList := by
  obtain ⟨head, hhead, hmessage⟩ : ∃ head : String, '\n' ∉ head.toList ∧
      (Fault.unmatched bracket position excerpt).message = head ++ position.text ++ ")" := by
    cases bracket with
    | opening => exact ⟨"Opening bracket has no corresponding closing bracket (", by decide, rfl⟩
    | closing => exact ⟨"Closing bracket has no corresponding opening bracket (", by decide, rfl⟩
  rw [hmessage]
  apply newline_not_mem_append (by decide)
  apply newline_not_mem_append _ (by decide)
  exact newline_not_mem_append hhead (newline_not_mem_place position)

/-- The report of a fault at a bracket points at the bracket: the program has it at the offset, and
has it at the line and column if it is split at its newlines; and the report has three lines, with the
bracket in the middle of the second and a caret below it. -/
structure Program.PointsAt (p : Program) (radius : Nat) (bracket : Bracket) (position : Position)
    (excerpt : Excerpt) : Prop where
  holds : p.get? position.offset = some bracket.toChar
  positive : 0 < position.line ∧ 0 < position.column
  inLine : ((p.chars.toList.splitOn '\n')[position.line - 1]?.bind (·[position.column - 1]?)) =
    some bracket.toChar
  offset : (((p.chars.toList.splitOn '\n').take (position.line - 1)).map (·.length + 1)).sum +
    (position.column - 1) = position.offset
  report : (Fault.unmatched bracket position excerpt).report.toList.splitOn '\n' =
    [("Error: " ++ (Fault.unmatched bracket position excerpt).message).toList,
      excerpt.window.toList, List.replicate radius ' ' ++ ['^']]
  width : excerpt.window.toList.length = 2 * radius + 1
  middle : excerpt.window.toList[radius]? = some bracket.toChar

namespace Program

variable {p : Program} {k : Nat} {bracket : Bracket} {position : Position} {excerpt : Excerpt}

theorem splitOn_report (p : Program) (k radius : Nat) (bracket : Bracket) (position : Position) :
    (Fault.unmatched bracket position (p.excerpt k radius)).report.toList.splitOn '\n' =
      [("Error: " ++ (Fault.unmatched bracket position (p.excerpt k radius)).message).toList,
        (p.excerpt k radius).window.toList, List.replicate radius ' ' ++ ['^']] := by
  have hwindow : '\n' ∉ (p.excerpt k radius).window.toList := by
    rw [window_excerpt, List.mem_map]
    rintro ⟨i, -, hi⟩
    exact p.shown_ne_newline _ hi
  have hmarker : '\n' ∉ List.replicate radius ' ' ++ ['^'] := by
    simp [List.mem_replicate]
  have htext : (Fault.unmatched bracket position (p.excerpt k radius)).report.toList =
      ("Error: " ++ (Fault.unmatched bracket position (p.excerpt k radius)).message).toList ++
        '\n' :: ((p.excerpt k radius).window.toList ++
          '\n' :: (List.replicate radius ' ' ++ ['^'])) := by
    simp [Fault.report, Fault.excerpt?, Excerpt.text, Excerpt.marker, Program.excerpt]
  rw [htext, splitOn_newline (newline_not_mem_message _ _ _), splitOn_newline hwindow,
    splitOn_of_not_mem hmarker]

theorem pointsAt_of_get? (h : p.get? k = some bracket.toChar) (hlen : p.length < 2 ^ 63)
    (radius : Nat) : p.PointsAt radius bracket (p.position k) (p.excerpt k radius) := by
  obtain ⟨hnewline, hshown⟩ := bracket.isShown
  have hk : k < 2 ^ 63 := Nat.lt_trans (lt_length_of_get? h) hlen
  obtain ⟨lines, start, hlines, hstart, hbefore⟩ := exists_lines (p.chars.toList.take k)
  have htext := split_of_get? h
  rw [hbefore, List.append_assoc] at htext
  have hsplit := splitOn_joinLines hlines (start ++ bracket.toChar :: p.chars.toList.drop (k + 1))
  rw [← htext] at hsplit
  have hpos := position_eq h hnewline hlines hstart hbefore
  have hlength := congrArg List.length hbefore
  rw [List.length_take, length_toList, List.length_append, length_joinLines] at hlength
  refine ⟨h, ?_, ?_, ?_, p.splitOn_report k radius bracket _, ?_, ?_⟩
  · rw [hpos]
    exact ⟨Nat.succ_pos _, Nat.succ_pos _⟩
  · have hline := splitOn_of_start hstart hnewline (p.chars.toList.drop (k + 1))
    obtain ⟨rest, lines', hline⟩ := hline
    rw [hpos, hsplit, hline]
    simp
  · rw [hpos, hsplit]
    simp only [Nat.add_sub_cancel, List.take_left']
    have := lt_length_of_get? h
    omega
  · rw [window_excerpt, List.length_map, List.length_range]
  · rw [middle_excerpt hk, shown_of_get? h hshown]

theorem pointsAt_of_unmatchedFault {radius : Nat} (hlen : p.length < 2 ^ 63)
    (h : p.unmatchedFault k radius = .unmatched bracket position excerpt) :
    p.PointsAt radius bracket position excerpt := by
  unfold unmatchedFault at h
  split at h
  · rename_i hc
    cases h
    exact pointsAt_of_get? (show p.get? k = some Bracket.opening.toChar from hc) hlen radius
  · rename_i hc
    cases h
    exact pointsAt_of_get? (show p.get? k = some Bracket.closing.toChar from hc) hlen radius
  · cases h

theorem pointsAt_of_check {radius : Nat} (hlen : p.length < 2 ^ 63)
    (h : p.check radius = .error (.unmatched bracket position excerpt)) :
    p.PointsAt radius bracket position excerpt := by
  unfold check at h
  split at h
  · cases h
  · exact pointsAt_of_unmatchedFault hlen (Except.error.inj h)

end Program

namespace Machine

variable {η : Type} [Host η] {m m' : Machine η} {bracket : Bracket} {position : Position}
  {excerpt : Excerpt}

theorem pointsAt_of_step (hw : m.state.WellPlaced) (hlen : m.state.program.length < 2 ^ 63)
    (h : m.step.1 = .fail (.unmatched bracket position excerpt)) :
    m.state.program.PointsAt m.radius bracket position excerpt := by
  obtain (hf | hf) | ⟨hf, -, -⟩ := (stands_self hw).fault_of_step h
  · cases hf
  · cases hf
  · exact Program.pointsAt_of_unmatchedFault hlen hf.symm

theorem pointsAt_of_executes {source : String} (hlen : (Program.ofString source).length < 2 ^ 63)
    (h : m.Executes source (.error (.unmatched bracket position excerpt), m')) :
    (Program.ofString source).PointsAt m.radius bracket position excerpt := by
  obtain hf | ⟨x, hx, hf⟩ := Runs.reached_fault h
  · cases hf
  · obtain ⟨hfault, -, -⟩ := hx.bracket_fault hf
    exact Program.pointsAt_of_unmatchedFault hlen hfault.symm

/-- Whoever reports a bracket, the check, a step of a machine that anything was done to before, or an
execution: the report points at the bracket, in the program and in its own lines. -/
theorem bracket_reports_point {ω ι : Type} [Sink ω] [Source ι] (source : String)
    (hlen : (Program.ofString source).length < 2 ^ 63) (bracket : Bracket) (position : Position)
    (excerpt : Excerpt) :
    let p := Program.ofString source
    (∀ radius, p.check radius = .error (.unmatched bracket position excerpt) →
      p.PointsAt radius bracket position excerpt) ∧
    (∀ m : Machine (Devices ω ι), Operated m → m.state.program = p →
      m.step.1 = .fail (.unmatched bracket position excerpt) →
        p.PointsAt m.radius bracket position excerpt) ∧
    ∀ m m' : Machine (Devices ω ι),
      m.Executes source (.error (.unmatched bracket position excerpt), m') →
        p.PointsAt m.radius bracket position excerpt := by
  intro p
  refine ⟨fun radius h => Program.pointsAt_of_check hlen h, ?_, ?_⟩
  · intro m hm hp h
    rw [← hp]
    exact pointsAt_of_step hm.wellPlaced (hp ▸ hlen) h
  · intro m m' h
    exact pointsAt_of_executes hlen h

theorem bracket_reports_point_of_bracket_on_second_line :
    ∃ m m' : Machine (Devices Buffer LineScript), ∃ excerpt,
      m.Executes "+\n+]" (.error (.unmatched .closing ⟨2, 2, 3⟩ excerpt), m') ∧
        (Program.ofString "+\n+]").PointsAt 3 .closing ⟨2, 2, 3⟩ excerpt := by
  have hfault : (Program.ofString "+\n+]").unmatchedFault 3 3 =
    .unmatched .closing ⟨2, 2, 3⟩ ((Program.ofString "+\n+]").excerpt 3 3) := rfl
  let m : Machine (Devices Buffer LineScript) := { host := {}, radius := 3 }
  obtain ⟨m', hexec⟩ : ∃ m', m.Executes "+\n+]"
      (.error ((Program.ofString "+\n+]").unmatchedFault 3 3), m') := ⟨_, 9, rfl⟩
  rw [hfault] at hexec
  exact ⟨m, m', _, hexec, (bracket_reports_point "+\n+]" (by decide) _ _ _).2.2 m m' hexec⟩

end Machine

end TapeLang
