import TapeLang.Host.Buffer
import TapeLang.Host.LineScript
import TapeLang.Proofs.CommandLine.Commands
import TapeLang.Proofs.Machine.Twins

/-! A program that is run from a file reads standard input as it would read a script of lines.

Standard input hands over each line with its newline, and a script without. The byte that is stored
is the same, and a line that is not UTF-8 fails on both sides, so a console and a script of its lines
are in accord (`Console.scripted`) for a whole run. -/
namespace TapeLang
set_option autoImplicit false

namespace Console

/-- Standard input as a script: its lines without their newlines, where a line that is not UTF-8 is a
read that fails. -/
def script (input : List UInt8) : LineScript :=
  ⟨(lines input).map lineText?⟩

/-- The devices hold in memory what the console has written, and have the lines of its input for a
script. -/
def IsScripted (c : Console) (d : Devices Buffer LineScript) : Prop :=
  d.output = some { bytes := c.output } ∧ d.input = some (script c.input)

theorem IsScripted.write {c : Console} {d : Devices Buffer LineScript} (h : c.IsScripted d)
    (byte : UInt8) : (Host.write d byte).1 = (Host.write c byte).1 ∧
      IsScripted (Host.write c byte).2 (Host.write d byte).2 := by
  obtain ⟨output, input, calls⟩ := d
  obtain ⟨rfl, hinput⟩ := h
  exact ⟨rfl, rfl, hinput⟩

theorem IsScripted.flush {c : Console} {d : Devices Buffer LineScript} (h : c.IsScripted d) :
    (Host.flush d).1 = (Host.flush c).1 ∧
      IsScripted (Host.flush c).2 (Host.flush d).2 := by
  obtain ⟨output, input, calls⟩ := d
  obtain ⟨rfl, hinput⟩ := h
  exact ⟨rfl, rfl, hinput⟩

theorem IsScripted.readLine {c : Console} {d : Devices Buffer LineScript} (h : c.IsScripted d) :
    (Host.readLine d).1.map Line.value = (Host.readLine c).1.map Line.value ∧
      IsScripted (Host.readLine c).2 (Host.readLine d).2 := by
  obtain ⟨output, input, calls⟩ := d
  obtain ⟨houtput, rfl⟩ := h
  simp only [Host.readLine, Console.readLine, Devices.readLine, script]
  obtain ⟨hnone, hs⟩ | ⟨line, rest, hs, hlines, hline⟩ := splitLine_of_lines c.input
  · simp only [hnone, hs]
    exact ⟨rfl, houtput, rfl⟩
  · simp only [hlines, hs]
    exact ⟨hline.map_value.symm, houtput, rfl⟩

/-- A console and a script of its lines answer alike for any number of lines. -/
def scripted : Accord Console (Devices Buffer LineScript) where
  Agree _ := IsScripted
  fewer h := h
  write h := h.write
  flush h := h.flush
  readLine h := h.readLine

end Console

namespace CommandLine

/-- What a run leaves behind, by its result and the bytes that it has written: exit code zero, or
one with the report of the fault on standard error. -/
def Outcome.Shows (outcome : Outcome) (result : Except Fault Unit) (bytes : ByteArray) : Prop :=
  outcome.output = bytes ∧
    (result = .ok () ∧ outcome.exit = 0 ∧ outcome.errors = "" ∨
      ∃ fault, result = .error fault ∧ outcome.exit = 1 ∧ outcome.errors = fault.report ++ "\n")

theorem Outcome.shows_ofResult (result : Except Fault Unit) (bytes : ByteArray) :
    (Outcome.ofResult result bytes).Shows result bytes := by
  obtain fault | _ := result
  · exact ⟨rfl, Or.inr ⟨fault, rfl, rfl, rfl⟩⟩
  · exact ⟨rfl, Or.inl ⟨rfl, rfl, rfl⟩⟩

/-- Running a file on standard input is executing its program with the output in memory and the lines
of standard input for a script. With any fuel both take too long, or both end; then the bytes on
standard output are those in memory, and the exit code and the text on standard error tell the
result. The newline that standard input leaves at the end of a line does not change the byte that the
line stores. -/
theorem run_equals_scripted_run {read : String → Except FileError ByteArray}
    {arguments : List String} {file source : String} {dialect : Dialect} {radius : Nat}
    (h : Command.parse? arguments = some (.run file dialect radius))
    (hf : read file = .ok source.toUTF8) (input : List UInt8) :
    let scripted : Machine (Devices Buffer LineScript) :=
      { host := { output := some {}, input := some (Console.script input) }, radius }
    (∀ fuel,
      performWithin fuel read input arguments = none ∧
          scripted.executeWithin fuel (dialect.program source) = none ∨
        ∃ outcome result m buffer, performWithin fuel read input arguments = some outcome ∧
          scripted.executeWithin fuel (dialect.program source) = some (result, m) ∧
          m.host.output = some buffer ∧ outcome.Shows result buffer.bytes) ∧
    ∀ text : String, text.toList.getLast? ≠ some '\n' →
      Line.value (text.push '\n') = Line.value text := by
  intro scripted
  refine ⟨fun fuel => ?_, fun text htext => Line.value_newline htext⟩
  rw [performWithin_run h hf]
  have htwins : ∀ n, Machine.Twins Console.scripted n
      ((machine radius input).load (dialect.program source))
      (scripted.load (dialect.program source)) := fun n => ⟨rfl, rfl, rfl, rfl⟩
  obtain ⟨hx, hy⟩ | ⟨⟨result, x⟩, ⟨result', y⟩, hx, hy, hresult, hafter⟩ :=
    (htwins (0 + _)).runWithin fuel
  · refine Or.inl ⟨?_, hy⟩
    rw [Machine.executeWithin, hx, Option.map_none]
  · obtain rfl : result' = result := hresult
    refine Or.inr ⟨_, result', y, _, ?_, hy, hafter.host.1, Outcome.shows_ofResult result' _⟩
    rw [Machine.executeWithin, hx, Option.map_some]

theorem run_equals_scripted_run_of_broken_line :
    let read : String → Except FileError ByteArray := fun _ => .ok ",.,.".toUTF8
    let input : List UInt8 := [0x37, 0x0D, 0x0A, 0xFF, 0x0A]
    Command.parse? ["run", "echo.bf", "--dialect=brainfuck"] = some (.run "echo.bf" .plain 10) ∧
      Console.script input = ⟨[some "7\r", none]⟩ ∧
      ∃ outcome, performWithin 5 read input ["run", "echo.bf", "--dialect=brainfuck"] = some outcome ∧
        outcome.exit = 1 ∧ outcome.output = [7].toByteArray ∧
        outcome.errors = "Error: input collaborator failed\n" := by
  intro read input
  have h : Command.parse? ["run", "echo.bf", "--dialect=brainfuck"] =
      some (.run "echo.bf" .plain 10) := by decide +kernel
  have hscript : Console.script input = ⟨[some "7\r", none]⟩ := by decide +kernel
  refine ⟨h, hscript, ?_⟩
  obtain ⟨-, hnone⟩ | ⟨outcome, result, m, buffer, ho, hm, hbuffer, hshows⟩ :=
    (run_equals_scripted_run h (rfl : read "echo.bf" = .ok ",.,.".toUTF8) input).1 5
  · rw [hscript] at hnone
    cases hnone
  · rw [hscript] at hm
    cases hm
    cases hbuffer
    obtain ⟨hbytes, ⟨hok, -⟩ | ⟨fault, hfault, hexit, herrors⟩⟩ := hshows
    · cases hok
    · cases hfault
      exact ⟨outcome, ho, hexit, hbytes, herrors⟩

end CommandLine

end TapeLang
