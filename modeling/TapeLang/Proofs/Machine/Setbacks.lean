import TapeLang.Proofs.Machine.Operations
import TapeLang.Proofs.Resumption

/-! What a failing step leaves behind.

A search may have walked through the whole program before it fails, and a `,` may have flushed the
output and used up a line. None of it shows in the state: a step that fails leaves the state as it
was, with the cursor on the instruction that failed (`Thwarts`), and of the devices it leaves the
bytes of the output and all lines but the one that could not be read (`Spares`). A run that fails
stops there, or at the end of the program if only its last flush was refused. -/
namespace TapeLang
set_option autoImplicit false

/-! ## Instructions that fail -/

/-- The instruction that a character spells can fail with the fault when the current cell has the
given value. -/
inductive Thwarts : Char → UInt8 → Fault → Prop
  | opening (position : Position) (excerpt : Excerpt) :
      Thwarts '[' 0 (.unmatched .opening position excerpt)
  | closing {value : UInt8} (h : value ≠ 0) (position : Position) (excerpt : Excerpt) :
      Thwarts ']' value (.unmatched .closing position excerpt)
  | write (value : UInt8) : Thwarts '.' value .output
  | flush (value : UInt8) : Thwarts ',' value .output
  | read (value : UInt8) : Thwarts ',' value .input

theorem Token.eq_of_ofChar_action {ch : Char} {a : Action} (h : Token.ofChar ch = .action a) :
    ch = a.instruction.toChar :=
  (Instruction.toChar_of_ofChar? (Token.ofChar_eq_action h)).symm

theorem Action.thwarts_of_perform {η : Type} [Host η] {c c' : Config η} {a : Action} {fault : Fault}
    (h : Action.perform c a = (.error fault, c')) :
    Thwarts a.instruction.toChar c.cell fault := by
  cases a with
  | right | left | increment | decrement => cases h
  | write =>
    simp only [Action.perform] at h
    split at h <;> cases h
    exact Thwarts.write c.cell
  | read =>
    simp only [Action.perform] at h
    split at h
    · cases h
      exact Thwarts.flush c.cell
    · split at h <;> cases h
      exact Thwarts.read c.cell

theorem Program.thwarts_of_visit {η : Type} [Host η] {p : Program} {radius k : Nat} {c c' : Config η}
    {fault : Fault} (hk : k < p.length) (h : p.visit radius k c = (.error fault, c')) :
    ∃ ch, p.get? k = some ch ∧ Thwarts ch c.cell fault := by
  obtain ⟨ch, hc⟩ := exists_get? hk
  refine ⟨ch, hc, ?_⟩
  cases ht : Token.ofChar ch with
  | comment =>
    rw [visit_comment hc ht] at h
    cases h
  | action a =>
    rw [visit_action hc ht] at h
    rcases ha : Action.perform c a with ⟨f | _, c₁⟩
    · rw [ha] at h
      cases h
      rw [Token.eq_of_ofChar_action ht]
      exact Action.thwarts_of_perform ha
    · rw [ha] at h
      cases h
  | bracket b =>
    cases b with
    | opening =>
      obtain rfl := Token.eq_open_of_ofChar ht
      rw [visit_open hc] at h
      split at h
      · rename_i hz
        rw [(leap_eq_error (Prod.mk.inj h).1).1, hz]
        simp only [unmatchedFault, hc]
        exact Thwarts.opening _ _
      · cases h
    | closing =>
      obtain rfl := Token.eq_close_of_ofChar ht
      rw [visit_close hc] at h
      split at h
      · cases h
      · rename_i hz
        rw [(leap_eq_error (Prod.mk.inj h).1).1]
        simp only [unmatchedFault, hc]
        exact Thwarts.closing hz _ _

/-! ## Devices after a failure -/

def Call.isRead : Call → Bool
  | .readLine _ => true
  | _ => false

variable {ω ι : Type} [Sink ω] [Source ι]

/-- What an instruction that fails does to the devices. No byte is accepted, an output that keeps its
bytes keeps the same ones, and the input is asked for a line at most once, which is the reason for the
failure if it is. -/
structure Devices.Spares (d : Devices ω ι) (fault : Fault) (d' : Devices ω ι) : Prop where
  calls : ∃ calls, d'.calls.toList = d.calls.toList ++ calls ∧
    (∀ byte, .write byte true ∉ calls) ∧
    calls.countP Call.isRead ≤ if fault = .input then 1 else 0
  written : ∀ _ : Recorder ω, d'.written = d.written
  input : d'.input = d.input ∨ fault = .input ∧ ∃ source, d.input = some source ∧
    (Source.readLine source).1 = none ∧ d'.input = some (Source.readLine source).2

namespace Devices

variable {d d' : Devices ω ι}

theorem spares_self (d : Devices ω ι) (fault : Fault) : d.Spares fault d where
  calls := ⟨[], by simp⟩
  written _ := rfl
  input := Or.inl rfl

theorem spares_write {byte : UInt8} (h : Host.write d byte = (false, d')) :
    d.Spares .output d' := by
  obtain ⟨_ | o, input, calls⟩ := d
  · cases h
  · simp only [Host.write, Devices.write, Prod.mk.injEq] at h
    obtain ⟨hrefused, rfl⟩ := h
    refine ⟨⟨[.write byte false], ?_, by simp, by simp [Call.isRead]⟩, fun recorder => ?_, Or.inl rfl⟩
    · rw [hrefused, Array.toList_push]
    · have hb := recorder.bytes_write o byte
      rwa [hrefused, if_neg Bool.false_ne_true] at hb

theorem spares_flush {flushed : Bool} (h : Host.flush d = (flushed, d')) (fault : Fault) :
    d.Spares fault d' := by
  obtain ⟨_ | o, input, calls⟩ := d
  · cases h
    exact spares_self _ fault
  · simp only [Host.flush, Devices.flush, Prod.mk.injEq] at h
    obtain ⟨-, rfl⟩ := h
    refine ⟨⟨[.flush (Sink.flush o).1], Array.toList_push, by simp, by simp [Call.isRead]⟩,
      fun recorder => recorder.bytes_flush o, Or.inl rfl⟩

theorem Spares.input_eq (h : d.Spares .output d') : d'.input = d.input := by
  obtain hin | ⟨hfault, -⟩ := h.input
  · exact hin
  · cases hfault

/-- A read that fails after the output was flushed. -/
theorem Spares.readLine {d'' : Devices ω ι} (h : d.Spares .output d')
    (hr : Host.readLine d' = (none, d'')) : d.Spares .input d'' := by
  have hin := h.input_eq
  obtain ⟨calls, hcalls, hwrites, hreads⟩ := h.calls
  have hwritten := h.written
  obtain ⟨output, _ | source, record⟩ := d'
  · cases hr
  · simp only [Host.readLine, Devices.readLine, Prod.mk.injEq] at hr
    obtain ⟨hnone, rfl⟩ := hr
    simp only at hcalls hin
    rw [if_neg (by decide)] at hreads
    refine ⟨⟨calls ++ [.readLine false], ?_, ?_, ?_⟩, hwritten, Or.inr ⟨rfl, source, hin.symm, hnone, rfl⟩⟩
    · rw [hnone, Array.toList_push, hcalls, List.append_assoc]
      rfl
    · simpa using hwrites
    · rw [List.countP_append, if_pos rfl]
      simp only [List.countP_singleton, Call.isRead, if_true]
      omega

end Devices

theorem Action.spares_perform {c c' : Config (Devices ω ι)} {a : Action} {fault : Fault}
    (h : Action.perform c a = (.error fault, c')) : c.host.Spares fault c'.host := by
  cases a with
  | right | left | increment | decrement => cases h
  | write =>
    simp only [Action.perform] at h
    split at h <;> cases h
    rename_i hw
    exact Devices.spares_write hw
  | read =>
    simp only [Action.perform] at h
    split at h
    · rename_i hf
      cases h
      exact Devices.spares_flush hf .output
    · rename_i hf
      split at h <;> cases h
      rename_i hr
      exact (Devices.spares_flush hf .output).readLine hr

theorem Program.spares_visit {p : Program} {radius k : Nat} {c c' : Config (Devices ω ι)}
    {fault : Fault} (h : p.visit radius k c = (.error fault, c')) : c.host.Spares fault c'.host := by
  unfold Program.visit at h
  split at h
  · split at h <;> cases h
    rename_i ha
    exact Action.spares_perform ha
  · cases (Prod.mk.inj h).2
    exact Devices.spares_self _ fault
  · cases (Prod.mk.inj h).2
    exact Devices.spares_self _ fault
  · cases h

/-! ## Steps and runs that fail -/

namespace Machine

variable {m m' : Machine (Devices ω ι)} {fault : Fault}

theorem kept_of_fail (hw : m.state.WellPlaced) (h : m.step = (.fail fault, m')) :
    m'.state = m.state ∧
      (∃ ch, m.state.program.get? m.state.cursor.position = some ch ∧
        Thwarts ch m.state.cell fault) ∧
      m.host.Spares fault m'.host := by
  have hs := stands_self hw
  by_cases hk : m.place < m.state.program.length
  · obtain ⟨x, k, c, hx, -, -, -⟩ | ⟨x, f, c, hx, hstate, hx', hv⟩ := hs.step_cases hk
    · rw [h] at hx
      have hne := (Prod.mk.inj hx).1
      split at hne <;> cases hne
    · rw [h] at hx
      cases hx
      have hpos := hs.position_eq hk
      obtain ⟨ch, hc, ht⟩ := Program.thwarts_of_visit hk hv
      have hspares := Program.spares_visit hv
      rw [← hx'.config] at hspares
      exact ⟨hstate, ⟨ch, hpos ▸ hc, ht⟩, hspares⟩
  · obtain ⟨x, hx, -⟩ := hs.step_end (Nat.le_of_not_lt hk)
    rw [h] at hx
    cases hx

theorem Proceeds.reached {n : Nat} (h : m.Proceeds n m') : Reached m m' := by
  induction h with
  | stay m => exact Reached.start
  | @more n m m₁ m' h _ ih =>
    have h₁ : Reached m m.step.2 := Reached.start.step
    rw [h] at h₁
    exact h₁.trans ih

theorem halted_of_step (h : m.step = (.halt, m')) : m'.state.halted = true := by
  have hstep := m.outcome_step
  rw [h] at hstep
  cases hstep with
  | rest => rfl
  | halt => rfl

theorem flush_of_finish (h : m.finish = (.error fault, m')) :
    fault = .output ∧ m.flush = (.error .output, m') := by
  simp only [finish, flush_eq] at h ⊢
  cases hf : (Host.flush m.host).1 <;> rw [hf] at h <;> cases h
  exact ⟨rfl, rfl⟩

/-- Where a run that fails leaves the machine: before the step that failed, or at the end of the
program, which is not reset. -/
theorem Runs.state_of_error (hw : m.state.WellPlaced) (h : m.Runs (.error fault, m')) :
    (∃ n x x', m.Proceeds n x ∧ x.step = (.fail fault, x') ∧ m'.state = x.state) ∨
      fault = .output ∧ ∃ n x x', m.Proceeds n x ∧ x.step = (.halt, x') ∧
        x'.state.halted = true ∧ x'.flush = (.error .output, m') ∧ m'.state = x'.state := by
  obtain ⟨result, x', hstop, hc⟩ := (m.runs_iff_stops _).mp h
  have hkept := conclude_of_error hc.symm
  obtain ⟨n, x, hx, hstep⟩ := hstop.proceeds
  obtain f | _ := result
  · left
    cases (Prod.mk.inj hc).1
    obtain ⟨hstate, -, -⟩ := kept_of_fail (hx.reached.wellPlaced hw) hstep
    exact ⟨n, x, x', hx, hstep, by rw [hkept, hstate]⟩
  · right
    obtain ⟨hfault, hflush⟩ := flush_of_finish hc.symm
    exact ⟨hfault, n, x, x', hx, hstep, halted_of_step hstep, hflush, by rw [hkept]⟩

/-- A step that fails changes nothing of the state, whatever was done to the machine before. The
cursor is on the instruction that failed, the output has accepted no byte, and the input was asked for
one line at most, and only if that is what failed. A run that fails leaves the machine in the state
before the step that failed, or in the state at the end of the program if the flush there was
refused. -/
theorem failures_change_nothing (m : Machine (Devices ω ι)) (hm : Operated m) (fault : Fault)
    (m' : Machine (Devices ω ι)) :
    (m.step = (.fail fault, m') →
      m'.state = m.state ∧
      (∃ ch, m.state.program.get? m.state.cursor.position = some ch ∧
        Thwarts ch m.state.cell fault) ∧
      m.host.Spares fault m'.host) ∧
    (m.Runs (.error fault, m') →
      (∃ n x x', m.Proceeds n x ∧ x.step = (.fail fault, x') ∧ m'.state = x.state) ∨
        fault = .output ∧ ∃ n x x', m.Proceeds n x ∧ x.step = (.halt, x') ∧
          x'.state.halted = true ∧ x'.flush = (.error .output, m') ∧ m'.state = x'.state) :=
  ⟨kept_of_fail hm.wellPlaced, fun h => h.state_of_error hm.wellPlaced⟩

theorem failures_change_nothing_of_failed_read :
    ∃ m m' m'' : Machine (Devices Buffer LineScript), Operated m ∧ m.step = (.fail .input, m') ∧
      m.state.pointer = 1 ∧ m.state.tape.stored = 1 ∧ m'.state = m.state ∧
      m'.host.input = some ⟨[some "5"]⟩ ∧ m.host.Spares .input m'.host ∧
      m.Runs (.error .input, m'') ∧ ∃ n x x', m.Proceeds n x ∧ x.step = (.fail .input, x') ∧
        m''.state = x.state := by
  have h₀ : Operated ({ host := {}, radius := 3 } : Machine (Devices Buffer LineScript)) :=
    Operated.new 3
  have h₁ := h₀.after (.attachOutput {}) rfl
  have h₂ := h₁.after (.attachInput ⟨[none, some "5"]⟩) rfl
  have h₃ := h₂.after (.load ">+,") rfl
  have h₄ := (h₃.after .step rfl).after .step rfl
  obtain ⟨hstate, -, hspares⟩ := (failures_change_nothing _ h₄ .input _).1 rfl
  obtain hrun | ⟨hfault, -⟩ := (failures_change_nothing _ h₄ .input _).2 ⟨1, rfl⟩
  · exact ⟨_, _, _, h₄, rfl, rfl, rfl, hstate, rfl, hspares, ⟨1, rfl⟩, hrun⟩
  · cases hfault

end Machine

end TapeLang
