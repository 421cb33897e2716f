import TapeLang.Proofs.Console.Lines
import TapeLang.Proofs.Machine.Twins

/-! Programs that run on the console.

A step takes a line off the input if it performs a `,`, and leaves the input alone otherwise
(`step_console`), so the lines that are left show how many `,` were performed
(`stepFrom_console`, `runWithin_console`). What was written before a run only stands in front of what
the run writes (`Console.appended`), and loading a program clears all else, so a machine that has run
other programs executes a program as a new one does (`executeWithin_afresh`). -/
namespace TapeLang
set_option autoImplicit false

/-! ## Lines taken by steps -/

/-- A request takes as many lines off the input as it asks for. -/
theorem Request.lines_of_answer (c : Console) (request : Request) :
    Console.lines (request.answer c).2.input = (Console.lines c.input).drop request.lines := by
  cases request with
  | nothing | write => rfl
  | read =>
    have hinput : (Request.read.answer c).2.input = (Console.splitLine c.input).2 := by
      simp only [answer, Host.flush, Host.readLine, Console.readLine]
      cases Text.decode? (Console.splitLine c.input).1.toByteArray <;> rfl
    rw [hinput]
    obtain ⟨hnone, hs⟩ | ⟨line, rest, hs, hlines, -⟩ := Console.splitLine_of_lines c.input
    · rw [hs, hnone]
      rfl
    · rw [hs, hlines]
      rfl

namespace Machine

/-- A step takes a line if it performs a `,`, and none otherwise. -/
theorem step_console (x : Machine Console) :
    Console.lines x.step.2.host.input = (Console.lines x.host.input).drop x.reading ∧
      x.step.2.radius = x.radius := by
  rw [step_eq, reading_eq]
  cases x.state.due with
  | none => exact ⟨rfl, rfl⟩
  | some request => exact ⟨request.lines_of_answer x.host, rfl⟩

theorem stepFrom_console (x : Machine Console) (taken limit : Nat) :
    Console.lines (x.stepFrom taken limit).2.host.input =
      (Console.lines x.host.input).drop (x.reads limit) := by
  induction limit generalizing x taken with
  | zero => rfl
  | succ limit ih =>
    have hstep := x.step_console.1
    rcases hx : x.step with ⟨s, x'⟩
    rw [hx] at hstep
    obtain rfl | ⟨r, rfl⟩ := s.next_or_ofResult
    · simp only [stepFrom, hx]
      rw [ih x' (taken + 1), hstep, List.drop_drop, reads_of_next hx]
    · obtain ⟨hreads, hsteps, -⟩ := stopped_of_ofResult hx taken limit
      rw [hreads, hsteps, hstep]

theorem conclude_console (x : Machine Console) (r : Except Fault Unit) :
    (x.conclude r).2.host = x.host ∧ (x.conclude r).2.radius = x.radius := by
  obtain fault | _ := r
  · exact ⟨rfl, rfl⟩
  · exact ⟨rfl, rfl⟩

theorem runWithin_console {x m : Machine Console} {fuel : Nat} {result : Except Fault Unit}
    (h : x.runWithin fuel = some (result, m)) :
    Console.lines m.host.input = (Console.lines x.host.input).drop (x.reads fuel) ∧
      m.radius = x.radius := by
  induction fuel generalizing x with
  | zero => cases h
  | succ fuel ih =>
    obtain ⟨hlines, hradius⟩ := x.step_console
    rcases hx : x.step with ⟨s, x'⟩
    rw [hx] at hlines hradius
    obtain rfl | ⟨r, rfl⟩ := s.next_or_ofResult
    · simp only [runWithin, hx] at h
      obtain ⟨hlines', hradius'⟩ := ih h
      refine ⟨?_, hradius'.trans hradius⟩
      rw [hlines', hlines, List.drop_drop, reads_of_next hx]
    · obtain ⟨hreads, -, hrun⟩ := stopped_of_ofResult hx 0 fuel
      rw [hrun] at h
      obtain ⟨hhost, hsame⟩ := x'.conclude_console r
      rw [Option.some.inj h] at hhost hsame
      rw [hreads, hhost, hlines]
      exact ⟨rfl, hsame.trans hradius⟩

end Machine

/-! ## Output written before -/

theorem Console.append_push (a b : ByteArray) (byte : UInt8) :
    (a ++ b).push byte = a ++ b.push byte := by
  apply ByteArray.ext
  simp [ByteArray.data_append, ByteArray.data_push]

/-- A console and another on the same input, on which some bytes were written before. -/
def Console.appended (before : ByteArray) : Accord Console Console where
  Agree _ c d := d.input = c.input ∧ d.output = before ++ c.output
  fewer h := h
  write h byte := by
    refine ⟨rfl, h.1, ?_⟩
    exact (congrArg (·.push byte) h.2).trans (append_push before _ byte)
  flush h := ⟨rfl, h⟩
  readLine h := by
    simp only [Host.readLine, Console.readLine, h.1, h.2, and_self]

namespace Machine

/-- A new machine on the given input. -/
def onInput (input : List UInt8) : Machine Console :=
  { host := { input } }

/-- A machine executes a program as a new one does on the input that is left, whatever it has run
before, and its output is added to what is there. -/
theorem executeWithin_afresh {x : Machine Console} (hx : x.radius = Excerpt.defaultRadius)
    {fuel : Nat} {source : String} {result : Except Fault Unit} {m : Machine Console}
    (h : (onInput x.host.input).executeWithin fuel source = some (result, m)) :
    ∃ x', x.executeWithin fuel source = some (result, x') ∧
      x'.host.input = m.host.input ∧ x'.host.output = x.host.output ++ m.host.output ∧
      x'.radius = Excerpt.defaultRadius := by
  have htwins : ∀ n, Twins (Console.appended x.host.output) n
      ((onInput x.host.input).load source) (x.load source) :=
    fun n => ⟨rfl, hx, rfl, ByteArray.append_empty.symm⟩
  obtain ⟨hnone, -⟩ | ⟨a, ⟨result', x'⟩, ha, hb, hresult, hafter⟩ := (htwins (0 + _)).runWithin fuel
  · rw [executeWithin, hnone] at h
    cases h
  · rw [executeWithin, ha] at h
    obtain rfl := Option.some.inj h
    obtain rfl : result' = result := hresult
    exact ⟨x', hb, hafter.host.1, hafter.host.2, (runWithin_console hb).2.trans hx⟩

end Machine

end TapeLang
