import TapeLang.CommandLine.Session
import TapeLang.Proofs.Console.Runs

/-! Sessions as dialogues.

A session keeps one machine, with whatever the last program left in it, and reads its commands from
the same input as its programs. `Dialogue` describes a session without a machine of its own, on the
lines of standard input. At each prompt a line is taken and replied to by one of the rules of
`Round`; a line that asks for a program is replied to by a run on a new machine, which takes one more
line for each `,`. All lines are accounted for (`Dialogue.lines_eq`), and there is a dialogue if
every program in it ends (`exists_dialogue`). -/
namespace TapeLang.CommandLine
set_option autoImplicit false

/-! ## Dialogues -/

/-- A line of standard input that was taken. -/
inductive Taken where
  /-- The line was read at a prompt. -/
  | command (line : List UInt8)
  /-- The line was read by a `,` of the running program. -/
  | answer (line : List UInt8)

def Taken.line : Taken → List UInt8
  | command line => line
  | answer line => line

/-- What is said, which lines are taken for it and which are left, and whether that was the end. -/
structure Reply where
  output : ByteArray
  errors : String := ""
  taken : List Taken
  rest : List (List UInt8)
  ended : Bool := false

/-- A reply and the one that follows it. -/
def Reply.andThen (a b : Reply) : Reply where
  output := a.output ++ b.output
  errors := a.errors ++ b.errors
  taken := a.taken ++ b.taken
  rest := b.rest
  ended := b.ended

/-- A prompt and a text after it. -/
def prompted (text : String) : ByteArray :=
  (Session.prompt ++ text).toUTF8

/-- What is said about the result of a program. -/
def complaint : Except Fault Unit → String
  | .ok () => ""
  | .error fault => fault.report ++ "\n"

/-- The line asks for a program to be run: its text is none of the other things that a session takes,
and the program is the expansion of the text without the white space around it. -/
inductive AsksFor : List UInt8 → String → Prop
  | intro {line : List UInt8} {text : String} (htext : Console.lineText? line = some text)
      (hend : text ≠ "\x04") (hinterrupt : text ≠ "\x03") (hblank : Text.trim text.toList ≠ [])
      (hquit : Text.trim text.toList ≠ "quit".toList)
      (hexpand : ¬ "expand ".toList <+: Text.trim text.toList) :
      AsksFor line (expand (String.ofList (Text.trim text.toList)))

/-- The reply at a prompt, with the given lines to come. -/
inductive Round : List (List UInt8) → Reply → Prop
  | noLine : Round [] { output := prompted "\nGoodbye!\n", taken := [], rest := [], ended := true }
  | endMark {line : List UInt8} {rest : List (List UInt8)}
      (h : Console.lineText? line = some "\x04") :
      Round (line :: rest)
        { output := prompted "\nGoodbye!\n", taken := [.command line], rest, ended := true }
  | unreadable {line : List UInt8} {rest : List (List UInt8)} (h : Console.lineText? line = none) :
      Round (line :: rest)
        { output := prompted "", errors := "Input error: I/O error\n", taken := [.command line], rest,
          ended := true }
  | quit {line : List UInt8} {rest : List (List UInt8)} {text : String}
      (h : Console.lineText? line = some text) (ht : Text.trim text.toList = "quit".toList) :
      Round (line :: rest) { output := prompted "", taken := [.command line], rest, ended := true }
  | interrupt {line : List UInt8} {rest : List (List UInt8)}
      (h : Console.lineText? line = some "\x03") :
      Round (line :: rest) { output := prompted "^C\n", taken := [.command line], rest }
  | blank {line : List UInt8} {rest : List (List UInt8)} {text : String}
      (h : Console.lineText? line = some text) (ht : Text.trim text.toList = []) :
      Round (line :: rest) { output := prompted "", taken := [.command line], rest }
  | expand {line : List UInt8} {rest : List (List UInt8)} {text : String} {code : List Char}
      (h : Console.lineText? line = some text)
      (ht : Text.trim text.toList = "expand ".toList ++ code) :
      Round (line :: rest)
        { output := prompted (TapeLang.expand (String.ofList code) ++ "\n"),
          taken := [.command line], rest }
  | run {line : List UInt8} {rest : List (List UInt8)} {program : String} {fuel n : Nat}
      {result : Except Fault Unit} {m : Machine Console} (h : AsksFor line program)
      (hrun : (Machine.onInput rest.flatten).executeWithin fuel program = some (result, m))
      (hreads : ((Machine.onInput rest.flatten).load program).reads fuel = n) :
      Round (line :: rest)
        { output := prompted "" ++ m.host.output, errors := complaint result,
          taken := .command line :: (rest.take n).map .answer, rest := rest.drop n }

/-- Replies at one prompt after the other, to the end of the session. -/
inductive Dialogue : List (List UInt8) → Reply → Prop
  | last {lines : List (List UInt8)} {reply : Reply} (h : Round lines reply)
      (hended : reply.ended = true) : Dialogue lines reply
  | more {lines : List (List UInt8)} {reply reply' : Reply} (h : Round lines reply)
      (hended : reply.ended = false) (hrest : Dialogue reply.rest reply') :
      Dialogue lines (reply.andThen reply')

/-- The lines that may be left at a prompt. -/
inductive Comes (lines : List (List UInt8)) : List (List UInt8) → Prop
  | start : Comes lines lines
  | next {left : List (List UInt8)} {reply : Reply} (h : Comes lines left) (hr : Round left reply)
      (hended : reply.ended = false) : Comes lines reply.rest

/-- Every program that a line asks for comes to an end. -/
def EveryRunEnds (lines : List (List UInt8)) : Prop :=
  ∀ line rest program, Comes lines (line :: rest) → AsksFor line program →
    ∃ o, (Machine.onInput rest.flatten).Executes program o

theorem Round.lines_eq {lines : List (List UInt8)} {reply : Reply} (h : Round lines reply) :
    lines = reply.taken.map Taken.line ++ reply.rest := by
  cases h with
  | noLine | endMark | unreadable | quit | interrupt | blank | expand => rfl
  | @run line rest program fuel n =>
    have hmap : ((rest.take n).map Taken.answer).map Taken.line = rest.take n := by
      rw [List.map_map]
      exact List.map_id _
    rw [List.map_cons, hmap, List.cons_append, List.take_append_drop]
    rfl

theorem Comes.isSuffix {lines left : List (List UInt8)} (h : Comes lines left) : left <:+ lines := by
  induction h with
  | start => exact List.suffix_refl lines
  | next _ hr _ ih => exact List.IsSuffix.trans ⟨_, hr.lines_eq.symm⟩ ih

theorem Dialogue.lines_eq {lines : List (List UInt8)} {reply : Reply} (h : Dialogue lines reply) :
    lines = reply.taken.map Taken.line ++ reply.rest := by
  induction h with
  | last h _ => exact h.lines_eq
  | @more lines reply reply' h _ _ ih =>
    rw [h.lines_eq, ih, Reply.andThen, List.map_append, List.append_assoc]

theorem AsksFor.program_eq {line : List UInt8} {program text : String} (h : AsksFor line program)
    (ht : Console.lineText? line = some text) :
    program = expand (String.ofList (Text.trim text.toList)) := by
  cases h with
  | intro htext =>
    rw [ht] at htext
    cases htext
    rfl

theorem exists_round (lines : List (List UInt8))
    (h : ∀ line rest program, lines = line :: rest → AsksFor line program →
      ∃ o, (Machine.onInput rest.flatten).Executes program o) :
    ∃ reply, Round lines reply ∧ (reply.ended = false → reply.rest.length < lines.length) := by
  cases lines with
  | nil => exact ⟨_, Round.noLine, fun hended => by cases hended⟩
  | cons line rest =>
    have hless : rest.length < (line :: rest).length := Nat.lt_succ_self _
    cases htext : Console.lineText? line with
    | none => exact ⟨_, Round.unreadable htext, fun _ => hless⟩
    | some text =>
      by_cases hend : text = "\x04"
      · subst hend
        exact ⟨_, Round.endMark htext, fun _ => hless⟩
      by_cases hinterrupt : text = "\x03"
      · subst hinterrupt
        exact ⟨_, Round.interrupt htext, fun _ => hless⟩
      by_cases hblank : Text.trim text.toList = []
      · exact ⟨_, Round.blank htext hblank, fun _ => hless⟩
      by_cases hquit : Text.trim text.toList = "quit".toList
      · exact ⟨_, Round.quit htext hquit, fun _ => hless⟩
      by_cases hexpand : "expand ".toList <+: Text.trim text.toList
      · obtain ⟨code, hcode⟩ := hexpand
        exact ⟨_, Round.expand htext hcode.symm, fun _ => hless⟩
      · have hask := AsksFor.intro htext hend hinterrupt hblank hquit hexpand
        obtain ⟨⟨result, m⟩, fuel, hrun⟩ := h line rest _ rfl hask
        refine ⟨_, Round.run hask hrun rfl, fun _ => ?_⟩
        simp only [List.length_drop, List.length_cons]
        omega

theorem exists_dialogue {lines : List (List UInt8)} (h : EveryRunEnds lines) :
    ∃ reply, Dialogue lines reply := by
  -- a reply that is not the last takes a line, so the induction is on the number of lines left
  have hcomes : ∀ n left, left.length = n → Comes lines left → ∃ reply, Dialogue left reply := by
    intro n
    induction n using Nat.strongRecOn with
    | ind n ih =>
      intro left hn hleft
      obtain ⟨reply, hround, hless⟩ := exists_round left fun line rest program heq hask =>
        h line rest program (heq ▸ hleft) hask
      cases hended : reply.ended with
      | true => exact ⟨reply, Dialogue.last hround hended⟩
      | false =>
        obtain ⟨reply', hrest⟩ := ih reply.rest.length (hn ▸ hless hended) reply.rest rfl
          (Comes.next hleft hround hended)
        exact ⟨_, Dialogue.more hround hended hrest⟩
  exact hcomes lines.length lines rfl Comes.start

end TapeLang.CommandLine
