import TapeLang.Proofs.CommandLine.Dialogue

/-! Sessions follow the dialogue on their lines.

`Session.At` relates a session to the lines that are left and to what was said so far. It says
nothing about the program, the cursor, the tape and the pointer that the last line has left in the
machine, so what is proved from it holds whatever was run before. From it a session replies to one
line as the rules say (`Round.converse`), and so goes through a whole dialogue
(`Dialogue.converse`). -/
namespace TapeLang.CommandLine
set_option autoImplicit false

/-! ## Entries and requests -/

/-- The entry that a line stands for, by its text without the newline. -/
def entryOf : Option String → Entry
  | none => .unreadable
  | some text =>
    if text = "\x04" then .ended else if text = "\x03" then .interrupted else .line text

theorem entry_of_isLine {line : List UInt8} (h : Console.IsLine line) :
    Entry.ofLine (Text.decode? line.toByteArray) = entryOf (Console.lineText? line) := by
  have hmark : ∀ (text : String) (c : Char), text.toList = [c] ↔ text = String.singleton c := by
    intro text c
    rw [← String.toList_inj, String.toList_singleton]
  -- what is read ends with the newline, or is a last line without one
  obtain ⟨hnone, hread⟩ | ⟨text, htext, hnewline, hread | ⟨hread, hne⟩⟩ := h.decode?_cases
  · rw [hnone, hread]
    rfl
  · have hne : text.push '\n' ≠ "" := by
      intro hempty
      have hlist := congrArg String.toList hempty
      simp at hlist
    rw [htext, hread]
    simp only [Entry.ofLine, if_neg hne, String.toList_push, List.getLast?_concat, if_true,
      List.dropLast_concat, hmark, String.ofList_toList]
    rfl
  · have hlast : text.toList.getLast? ≠ some '\n' := fun h => hnewline (List.mem_of_getLast? h)
    rw [htext, hread]
    simp only [Entry.ofLine, if_neg hne, if_neg hlast, hmark, String.ofList_toList]
    rfl

theorem entryOf_text {text : String} (hend : text ≠ "\x04") (hinterrupt : text ≠ "\x03") :
    entryOf (some text) = .line text := by
  rw [entryOf, if_neg hend, if_neg hinterrupt]

/-- The two marks are single characters that are no white space. -/
theorem entryOf_of_trim {text : String} (h : (Text.trim text.toList).length ≠ 1) :
    entryOf (some text) = .line text := by
  apply entryOf_text
  · rintro rfl
    exact h (by decide)
  · rintro rfl
    exact h (by decide)

theorem request_of_blank {text : String} (h : Text.trim text.toList = []) :
    Request.ofLine? text = none := by
  simp [Request.ofLine?, h]

theorem request_of_quit {text : String} (h : Text.trim text.toList = "quit".toList) :
    Request.ofLine? text = some .quit := by
  simp [Request.ofLine?, h]

theorem request_of_expand {text : String} {code : List Char}
    (h : Text.trim text.toList = "expand ".toList ++ code) :
    Request.ofLine? text = some (.expand (String.ofList code)) := by
  have hlength : "expand ".length = 7 := by decide
  simp [Request.ofLine?, h, hlength]

theorem request_of_program {text : String} (hblank : Text.trim text.toList ≠ [])
    (hquit : Text.trim text.toList ≠ "quit".toList)
    (hexpand : ¬ "expand ".toList <+: Text.trim text.toList) :
    Request.ofLine? text = some (.run (String.ofList (Text.trim text.toList))) := by
  rw [← List.isPrefixOf_iff_prefix] at hexpand
  simp only [Request.ofLine?, List.isEmpty_iff, hblank, hquit, hexpand, if_false,
    Bool.false_eq_true]

/-! ## One round -/

namespace Session

/-- A session with the given lines left and the given text said so far, on a machine with excerpts
of the usual width. -/
structure At (s : Session) (lines : List (List UInt8)) (output : ByteArray) (errors : String) :
    Prop where
  lines : Console.lines s.machine.host.input = lines
  output : s.machine.host.output = output
  errors : s.errors = errors
  radius : s.machine.radius = Excerpt.defaultRadius

variable {s s₁ s₂ : Session} {lines : List (List UInt8)} {output : ByteArray} {errors : String}

theorem At.say (h : s.At lines output errors) (text : String) :
    (s.say text).At lines (output ++ text.toUTF8) errors :=
  ⟨h.lines, congrArg (· ++ text.toUTF8) h.output, h.errors, h.radius⟩

theorem At.complain (h : s.At lines output errors) (text : String) :
    (s.complain text).At lines output (errors ++ text) :=
  ⟨h.lines, h.output, congrArg (· ++ text) h.errors, h.radius⟩

theorem At.silent (h : s.At lines output errors) : s.At lines output (errors ++ "") := by
  rwa [String.append_empty]

theorem At.ask (h : s.At lines output errors) :
    (s.say prompt).At lines (output ++ prompted "") errors := by
  have hsaid := h.say prompt
  rwa [← String.append_empty (s := prompt)] at hsaid

/-- What is said after a prompt, with nothing on standard error. -/
theorem At.reply (h : s.At lines (output ++ prompted "") errors) (text : String) :
    (s.say text).At lines (output ++ prompted text) (errors ++ "") := by
  have hsaid := (h.say text).silent
  rwa [ByteArray.append_assoc] at hsaid

theorem At.listen (h : s.At lines output errors) :
    ∃ s₁, s.listen = (Entry.ofLine (Text.decode?
        (Console.splitLine s.machine.host.input).1.toByteArray), s₁) ∧
      s₁.At (Console.lines (Console.splitLine s.machine.host.input).2) output errors :=
  ⟨_, rfl, rfl, h.output, h.errors, h.radius⟩

theorem At.listen_nil (h : s.At [] output errors) :
    ∃ s₁, (s.say prompt).listen = (.ended, s₁) ∧ s₁.At [] (output ++ prompted "") errors := by
  obtain ⟨s₁, hlisten, hs₁⟩ := h.ask.listen
  obtain ⟨-, hsplit⟩ | ⟨line, rest, -, hlines, -⟩ :=
    Console.splitLine_of_lines (s.say prompt).machine.host.input
  · rw [hsplit] at hlisten hs₁
    exact ⟨s₁, hlisten, hs₁⟩
  · rw [h.ask.lines] at hlines
    cases hlines

theorem At.listen_cons {line : List UInt8} (h : s.At (line :: lines) output errors) :
    ∃ s₁, (s.say prompt).listen = (entryOf (Console.lineText? line), s₁) ∧
      s₁.At lines (output ++ prompted "") errors := by
  obtain ⟨s₁, hlisten, hs₁⟩ := h.ask.listen
  obtain ⟨hlines, -⟩ | ⟨line', rest, hsplit, hlines, hline⟩ :=
    Console.splitLine_of_lines (s.say prompt).machine.host.input
  · rw [h.ask.lines] at hlines
    cases hlines
  · rw [h.ask.lines] at hlines
    cases hlines
    rw [hsplit] at hlisten hs₁
    rw [← entry_of_isLine hline]
    exact ⟨s₁, hlisten, hs₁⟩

/-- The machine of a session runs a program as a new one does. -/
theorem At.execute {program : String} {least n : Nat} {result : Except Fault Unit}
    {m : Machine Console} (h : s.At lines output errors)
    (hrun : (Machine.onInput lines.flatten).executeWithin least program = some (result, m))
    (hreads : ((Machine.onInput lines.flatten).load program).reads least = n) :
    ∃ machine, (∀ fuel, least ≤ fuel →
        s.machine.executeWithin fuel program = some (result, machine)) ∧
      (s.conclude result machine).At (lines.drop n) (output ++ m.host.output)
        (errors ++ complaint result) := by
  have hinput : lines.flatten = s.machine.host.input := by
    rw [← h.lines, Console.flatten_lines]
  rw [hinput] at hrun hreads
  obtain ⟨machine, hexec, hleft, hsaid, hradius⟩ := Machine.executeWithin_afresh h.radius hrun
  refine ⟨machine, fun fuel hfuel => ?_, ?_⟩
  · obtain ⟨more, rfl⟩ := Nat.exists_eq_add_of_le hfuel
    exact Machine.runWithin_add least more _ _ hexec
  · have hlines := (Machine.runWithin_console hrun).1
    have hat : ({ s with machine } : Session).At (lines.drop n) (output ++ m.host.output) errors := by
      refine ⟨?_, ?_, h.errors, hradius⟩
      · rw [hleft, hlines, hreads, ← h.lines]
        rfl
      · rw [hsaid, h.output]
    obtain fault | _ := result
    · exact hat.complain _
    · exact hat.silent

theorem converseWithin_of_stop {entry : Entry} (hl : (s.say prompt).listen = (entry, s₁))
    (ha : s₁.answer entry = (.stop, s₂)) (fuel : Nat) : converseWithin (fuel + 1) s = some s₂ := by
  simp only [converseWithin, hl, ha]

theorem converseWithin_of_again {entry : Entry} (hl : (s.say prompt).listen = (entry, s₁))
    (ha : s₁.answer entry = (.again, s₂)) (fuel : Nat) :
    converseWithin (fuel + 1) s = converseWithin fuel s₂ := by
  simp only [converseWithin, hl, ha]

theorem converseWithin_of_execute {entry : Entry} {program : String}
    (hl : (s.say prompt).listen = (entry, s₁)) (ha : s₁.answer entry = (.execute program, s₂))
    (fuel : Nat) :
    converseWithin (fuel + 1) s =
      (s₂.machine.executeWithin fuel program).bind fun o =>
        converseWithin fuel (s₂.conclude o.1 o.2) := by
  simp only [converseWithin, hl, ha]
  cases s₂.machine.executeWithin fuel program <;> rfl

end Session

variable {s : Session} {lines : List (List UInt8)} {output : ByteArray} {errors : String}
  {reply : Reply}

/-- A session replies to a line as the rules say, with enough fuel for the program on it. -/
theorem Round.converse (h : Round lines reply) (hs : s.At lines output errors) :
    ∃ s' least, s'.At reply.rest (output ++ reply.output) (errors ++ reply.errors) ∧
      ∀ fuel, least ≤ fuel → Session.converseWithin (fuel + 1) s =
        if reply.ended then some s' else Session.converseWithin fuel s' := by
  cases h with
  | noLine =>
    obtain ⟨s₁, hl, hs₁⟩ := hs.listen_nil
    exact ⟨_, 0, hs₁.reply _, fun fuel _ => Session.converseWithin_of_stop hl rfl fuel⟩
  | endMark h =>
    obtain ⟨s₁, hl, hs₁⟩ := hs.listen_cons
    rw [h] at hl
    exact ⟨_, 0, hs₁.reply _, fun fuel _ => Session.converseWithin_of_stop hl rfl fuel⟩
  | unreadable h =>
    obtain ⟨s₁, hl, hs₁⟩ := hs.listen_cons
    rw [h] at hl
    exact ⟨_, 0, hs₁.complain _, fun fuel _ => Session.converseWithin_of_stop hl rfl fuel⟩
  | @quit _ _ text h ht =>
    obtain ⟨s₁, hl, hs₁⟩ := hs.listen_cons
    rw [h, entryOf_of_trim (by rw [ht]; decide)] at hl
    have ha : s₁.answer (.line text) = (.stop, s₁) := by
      simp only [Session.answer, request_of_quit ht]
    exact ⟨_, 0, hs₁.silent, fun fuel _ => Session.converseWithin_of_stop hl ha fuel⟩
  | interrupt h =>
    obtain ⟨s₁, hl, hs₁⟩ := hs.listen_cons
    rw [h] at hl
    exact ⟨_, 0, hs₁.reply _, fun fuel _ => Session.converseWithin_of_again hl rfl fuel⟩
  | @blank _ _ text h ht =>
    obtain ⟨s₁, hl, hs₁⟩ := hs.listen_cons
    rw [h, entryOf_of_trim (by rw [ht]; decide)] at hl
    have ha : s₁.answer (.line text) = (.again, s₁) := by
      simp only [Session.answer, request_of_blank ht]
    exact ⟨_, 0, hs₁.silent, fun fuel _ => Session.converseWithin_of_again hl ha fuel⟩
  | @expand _ _ text code h ht =>
    obtain ⟨s₁, hl, hs₁⟩ := hs.listen_cons
    rw [h, entryOf_of_trim (by rw [ht]; simp)] at hl
    have ha : s₁.answer (.line text) =
        (.again, s₁.say (TapeLang.expand (String.ofList code) ++ "\n")) := by
      simp only [Session.answer, request_of_expand ht]
    exact ⟨_, 0, hs₁.reply _, fun fuel _ => Session.converseWithin_of_again hl ha fuel⟩
  | @run line rest program least n result m h hrun hreads =>
    obtain ⟨s₁, hl, hs₁⟩ := hs.listen_cons
    cases h with
    | @intro text htext hend hinterrupt hblank hquit hexpand =>
      rw [htext, entryOf_text hend hinterrupt] at hl
      have ha : s₁.answer (.line text) =
          (.execute (TapeLang.expand (String.ofList (Text.trim text.toList))), s₁) := by
        simp only [Session.answer, request_of_program hblank hquit hexpand]
      obtain ⟨machine, hexec, hafter⟩ := hs₁.execute hrun hreads
      rw [ByteArray.append_assoc] at hafter
      refine ⟨_, least, hafter, fun fuel hfuel => ?_⟩
      rw [Session.converseWithin_of_execute hl ha, hexec fuel hfuel]
      rfl

/-! ## Whole dialogues -/

/-- More fuel does not change the end of a session. -/
theorem Session.converseWithin_add (fuel more : Nat) (s s' : Session)
    (h : Session.converseWithin fuel s = some s') :
    Session.converseWithin (fuel + more) s = some s' := by
  induction fuel generalizing s with
  | zero => cases h
  | succ fuel ih =>
    rw [Nat.succ_add]
    rcases hl : (s.say Session.prompt).listen with ⟨entry, s₁⟩
    rcases ha : s₁.answer entry with ⟨_ | _ | program, s₂⟩
    · rwa [Session.converseWithin_of_stop hl ha] at h ⊢
    · rw [Session.converseWithin_of_again hl ha] at h ⊢
      exact ih s₂ h
    · rw [Session.converseWithin_of_execute hl ha, Option.bind_eq_some_iff] at h
      obtain ⟨o, hexec, hafter⟩ := h
      rw [Session.converseWithin_of_execute hl ha,
        show s₂.machine.executeWithin (fuel + more) program = some o from
          Machine.runWithin_add fuel more _ _ hexec]
      exact ih _ hafter

theorem Session.converseWithin_unique {fuel fuel' : Nat} {s a b : Session}
    (ha : Session.converseWithin fuel s = some a) (hb : Session.converseWithin fuel' s = some b) :
    a = b := by
  have ha' := Session.converseWithin_add fuel fuel' s a ha
  have hb' := Session.converseWithin_add fuel' fuel s b hb
  rw [Nat.add_comm, ha'] at hb'
  exact Option.some.inj hb'

/-- A session goes through the whole dialogue on its lines. -/
theorem Dialogue.converse (h : Dialogue lines reply) (hs : s.At lines output errors) :
    ∃ fuel s', Session.converseWithin fuel s = some s' ∧
      s'.At reply.rest (output ++ reply.output) (errors ++ reply.errors) := by
  induction h generalizing s output errors with
  | last h hended =>
    obtain ⟨s', least, hs', hconverse⟩ := h.converse hs
    have hend := hconverse least (Nat.le_refl _)
    rw [hended, if_pos rfl] at hend
    exact ⟨least + 1, s', hend, hs'⟩
  | @more lines reply reply' h hended _ ih =>
    obtain ⟨s₁, least, hs₁, hconverse⟩ := h.converse hs
    obtain ⟨fuel, s', hend, hs'⟩ := ih hs₁
    -- the fuel of one prompt bounds its program and is also what the later prompts have left
    have hnext := hconverse (fuel + least) (Nat.le_add_left _ _)
    rw [hended, if_neg Bool.false_ne_true, Session.converseWithin_add fuel least s₁ s' hend] at hnext
    refine ⟨fuel + least + 1, s', hnext, ?_⟩
    rwa [ByteArray.append_assoc, String.append_assoc] at hs'

theorem Session.start_at (input : List UInt8) :
    (Session.start input).At (Console.lines input) Session.banner.toUTF8 "" :=
  ⟨rfl, ByteArray.empty_append, rfl, rfl⟩

/-- A session is a dialogue in which every program runs on a new machine. If every program that a line
of standard input asks for ends, there is a dialogue on these lines, and the session ends with success
and with exactly what is said in it. Each line of the input is taken once and in order, at a prompt or
by a `,`, or is left; and a running program takes one line with each `,` that it performs. A session
with another past but the same input left goes on in the same way: what it says is added to what was
said before, and nothing else of its past matters. -/
theorem session_follows_dialogue (input : List UInt8) (h : EveryRunEnds (Console.lines input)) :
    (∃ reply, Dialogue (Console.lines input) reply) ∧
    (∀ reply, Dialogue (Console.lines input) reply →
      (∀ outcome, (∃ fuel, Session.runWithin fuel input = some outcome) ↔ outcome =
        { exit := 0, output := Session.banner.toUTF8 ++ reply.output, errors := reply.errors }) ∧
      Console.lines input = reply.taken.map Taken.line ++ reply.rest ∧
      ∀ s : Session, s.machine.host.input = input → s.machine.radius = Excerpt.defaultRadius →
        ∃ s', (∀ t, (∃ fuel, Session.converseWithin fuel s = some t) ↔ t = s') ∧
          s'.machine.host.input = reply.rest.flatten ∧
          s'.machine.host.output = s.machine.host.output ++ reply.output ∧
          s'.errors = s.errors ++ reply.errors) ∧
    ∀ left program limit,
      let x := (Machine.onInput left).load program
      Console.lines (x.stepFor limit).2.host.input =
        (Console.lines left).drop (x.reads limit) := by
  refine ⟨exists_dialogue h, fun reply hd => ⟨fun outcome => ?_, hd.lines_eq, ?_⟩, ?_⟩
  · obtain ⟨fuel, s', hend, hs'⟩ := hd.converse (Session.start_at input)
    have houtcome : s'.outcome =
        { exit := 0, output := Session.banner.toUTF8 ++ reply.output, errors := reply.errors } := by
      rw [Session.outcome, hs'.output, hs'.errors, String.empty_append]
    constructor
    · rintro ⟨fuel', hfuel'⟩
      obtain ⟨t, ht, rfl⟩ := Option.map_eq_some_iff.mp hfuel'
      rw [Session.converseWithin_unique ht hend, houtcome]
    · rintro rfl
      refine ⟨fuel, ?_⟩
      rw [Session.runWithin, hend, Option.map_some, houtcome]
  · intro s hinput hradius
    obtain ⟨fuel, s', hend, hs'⟩ := hd.converse (s := s) ⟨by rw [hinput], rfl, rfl, hradius⟩
    refine ⟨s', fun t => ⟨?_, ?_⟩, ?_, hs'.output, hs'.errors⟩
    · rintro ⟨fuel', ht⟩
      exact Session.converseWithin_unique ht hend
    · rintro rfl
      exact ⟨fuel, hend⟩
    · rw [← hs'.lines, Console.flatten_lines]
  · intro left program limit x
    exact x.stepFrom_console 0 limit

theorem session_follows_dialogue_past_failed_line :
    let lines := [",.]\n", "65\n", "+.\n"].map fun line => line.toUTF8.data.toList
    Console.lines lines.flatten = lines ∧ EveryRunEnds (Console.lines lines.flatten) ∧
      ∀ outcome, (∃ fuel, Session.runWithin fuel lines.flatten = some outcome) ↔ outcome =
        { exit := 0
          output := Session.banner.toUTF8 ++ "\n> A\n> \x01\n> \nGoodbye!\n".toUTF8
          errors := "Error: Closing bracket has no corresponding opening bracket " ++
            "(line: 1, column: 3)\n        ,.]          \n          ^\n" } := by
  intro lines
  have hlines : Console.lines lines.flatten = lines := by decide +kernel
  have hends : EveryRunEnds (Console.lines lines.flatten) := by
    intro line rest program hcomes hask
    have hsuffix := hcomes.isSuffix
    rw [hlines] at hsuffix
    simp only [lines, List.map_cons, List.map_nil, List.suffix_cons_iff, List.cons.injEq,
      List.suffix_nil, reduceCtorEq, or_false] at hsuffix
    obtain ⟨rfl, rfl⟩ | ⟨rfl, rfl⟩ | ⟨rfl, rfl⟩ := hsuffix
    · have htext : Console.lineText? ",.]\n".toUTF8.data.toList = some ",.]" := by decide +kernel
      have hprogram : expand (String.ofList (Text.trim ",.]".toList)) = ",.]" := by decide +kernel
      rw [hask.program_eq htext, hprogram]
      exact ⟨_, 4, rfl⟩
    · have htext : Console.lineText? "65\n".toUTF8.data.toList = some "65" := by decide +kernel
      have hprogram : expand (String.ofList (Text.trim "65".toList)) = "" := by decide +kernel
      rw [hask.program_eq htext, hprogram]
      exact ⟨_, 4, rfl⟩
    · have htext : Console.lineText? "+.\n".toUTF8.data.toList = some "+." := by decide +kernel
      have hprogram : expand (String.ofList (Text.trim "+.".toList)) = "+." := by decide +kernel
      rw [hask.program_eq htext, hprogram]
      exact ⟨_, 4, rfl⟩
  obtain ⟨⟨reply, hd⟩, hfollows, -⟩ := session_follows_dialogue lines.flatten hends
  obtain ⟨houtcome, -, hany⟩ := hfollows reply hd
  -- a session that has said nothing yet shows what is said in the dialogue
  let s : Session := { machine := Machine.onInput lines.flatten }
  have hrun : (Session.converseWithin 7 s).map (fun t => (t.machine.host.output, t.errors)) =
      some ("\n> A\n> \x01\n> \nGoodbye!\n".toUTF8,
        "Error: Closing bracket has no corresponding opening bracket " ++
          "(line: 1, column: 3)\n        ,.]          \n          ^\n") := by decide +kernel
  obtain ⟨t, ht, hsaid⟩ := Option.map_eq_some_iff.mp hrun
  obtain ⟨s', hs', -, houtput, herrors⟩ := hany s rfl rfl
  rw [(hs' t).mp ⟨7, ht⟩, houtput, herrors] at hsaid
  obtain ⟨hsaid, hcomplained⟩ := Prod.mk.inj hsaid
  have hempty : s.machine.host.output ++ reply.output = reply.output := ByteArray.empty_append
  have hempty' : s.errors ++ reply.errors = reply.errors := String.empty_append
  rw [← hempty, ← hempty', hsaid, hcomplained] at houtcome
  exact ⟨hlines, hends, houtcome⟩

end TapeLang.CommandLine
