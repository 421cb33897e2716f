import TapeLang.Host.Buffer
import TapeLang.Host.LineScript
import TapeLang.Proofs.Brackets.Faults

/-! Machines under any sequence of operations.

A machine is new, or comes from another one by an operation: a program is loaded, started anew, run
or taken a step further, a single instruction is performed from outside, or a device is exchanged.
Operations that run a program count when the run ends. Every operation keeps the machine
`WellPlaced`, and from there the faults of the machine itself cannot occur. -/
namespace TapeLang
set_option autoImplicit false

/-- The faults that a program or its host can be blamed for. -/
inductive Fault.Reportable : Fault → Prop
  | unmatched (bracket : Bracket) (position : Position) (excerpt : Excerpt) :
      Reportable (.unmatched bracket position excerpt)
  | output : Reportable .output
  | input : Reportable .input

theorem State.WellPlaced.withTape {s : State} (h : s.WellPlaced) (pointer : Int) (tape : Tape) :
    State.WellPlaced { s with pointer, tape } :=
  ⟨h.cursor_length, h.cursor_inside, h.halted_at_end⟩

namespace Machine

/-! ## What each part of an operation does to the place -/

section Host

variable {η : Type}

theorem stands_self {m : Machine η} (h : m.state.WellPlaced) :
    m.Stands m.state.program m.radius m.place m.config :=
  ⟨rfl, rfl, rfl, rfl, h⟩

variable [Host η]

theorem Reached.wellPlaced {m x : Machine η} (hx : Reached m x) (h : m.state.WellPlaced) :
    x.state.WellPlaced := by
  obtain ⟨k, c, hs⟩ := hx.stands (stands_self h)
  exact hs.wellPlaced

theorem wellPlaced_perform {m : Machine η} (h : m.state.WellPlaced) (a : Action) :
    (m.perform a.instruction).2.state.WellPlaced := by
  obtain ⟨pointer, tape, hp, -⟩ := m.perform_action a
  rw [hp]
  exact h.withTape pointer tape

theorem state_flush (m : Machine η) : m.flush.2.state = m.state := by
  rw [flush_eq]

theorem state_conclude (m : Machine η) (r : Except Fault Unit) :
    (m.conclude r).2.state = m.state ∨
      (m.conclude r).2.state = State.start m.state.program := by
  have hflush := m.state_flush
  obtain fault | _ := r
  · exact Or.inl hflush
  · simp only [conclude, finish]
    generalize m.flush = flushed at hflush ⊢
    obtain ⟨_ | _, m'⟩ := flushed
    · exact Or.inl hflush
    · right
      rw [state_reset, hflush]

theorem Runs.wellPlaced {m m' : Machine η} {r : Except Fault Unit} (h : m.Runs (r, m'))
    (hw : m.state.WellPlaced) : m'.state.WellPlaced := by
  obtain ⟨result, m₁, hstop, hc⟩ := (m.runs_iff_stops _).mp h
  obtain ⟨x, hx, hs⟩ := hstop.reached
  have hw₁ : m₁.state.WellPlaced := by
    have hx' := hx.step.wellPlaced hw
    rwa [hs] at hx'
  have hstate := m₁.state_conclude result
  rw [← hc] at hstate
  obtain he | he := hstate
  · exact he ▸ hw₁
  · exact he ▸ State.wellPlaced_start _

/-! ## Faults -/

theorem reportable_of_step {m : Machine η} (hw : m.state.WellPlaced) {fault : Fault}
    (h : m.step.1 = .fail fault) : fault.Reportable := by
  obtain (rfl | rfl) | ⟨rfl, -, hbracket⟩ := (stands_self hw).fault_of_step h
  · exact Fault.Reportable.output
  · exact Fault.Reportable.input
  · obtain ⟨bracket, excerpt, hf⟩ := Program.unmatchedFault_of_bracket m.radius hbracket
    rw [hf]
    exact Fault.Reportable.unmatched _ _ _

theorem Runs.reportable {m m' : Machine η} (hw : m.state.WellPlaced) {fault : Fault}
    (h : m.Runs (.error fault, m')) : fault.Reportable := by
  obtain rfl | ⟨x, hx, hf⟩ := h.reached_fault
  · exact Fault.Reportable.output
  · exact reportable_of_step (hx.wellPlaced hw) hf

end Host

/-! ## Operations -/

/-- What may be asked of a machine from outside. -/
inductive Operation (ω ι : Type) where
  | load (source : String)
  | reset
  | step
  | run
  | execute (source : String)
  | moveRight
  | moveLeft
  | increment
  | decrement
  | writeCell
  | readCell
  | flush
  | attachOutput (output : ω)
  | attachInput (input : ι)

variable {ω ι : Type} [Sink ω] [Source ι]

/-- An operation comes to an end and leaves the machine as the last argument says, whatever its
result. -/
def Performs (m : Machine (Devices ω ι)) : Operation ω ι → Machine (Devices ω ι) → Prop
  | .load source, m' => m' = m.load source
  | .reset, m' => m' = m.reset
  | .step, m' => m' = m.step.2
  | .run, m' => ∃ r, m.Runs (r, m')
  | .execute source, m' => ∃ r, m.Executes source (r, m')
  | .moveRight, m' => m' = m.update State.moveRight
  | .moveLeft, m' => m' = m.update State.moveLeft
  | .increment, m' => m' = m.update State.increment
  | .decrement, m' => m' = m.update State.decrement
  | .writeCell, m' => m' = m.writeCell.2
  | .readCell, m' => m' = m.readCell.2
  | .flush, m' => m' = m.flush.2
  | .attachOutput output, m' => m' = m.updateHost fun d => d.attachOutput output
  | .attachInput input, m' => m' = m.updateHost fun d => d.attachInput input

/-- The machines that any sequence of operations makes of a new one, which has no program and no
devices. -/
inductive Operated : Machine (Devices ω ι) → Prop
  | new (radius : Nat) : Operated { host := {}, radius }
  | after {m m' : Machine (Devices ω ι)} (op : Operation ω ι) (hm : Operated m)
      (hop : m.Performs op m') : Operated m'

theorem Performs.wellPlaced {m m' : Machine (Devices ω ι)} {op : Operation ω ι}
    (h : m.Performs op m') (hw : m.state.WellPlaced) : m'.state.WellPlaced := by
  cases op with
  | load source =>
    subst h
    exact State.wellPlaced_start _
  | reset =>
    subst h
    exact State.wellPlaced_start _
  | step =>
    subst h
    exact Reached.start.step.wellPlaced hw
  | run =>
    obtain ⟨r, hr⟩ := h
    exact hr.wellPlaced hw
  | execute source =>
    obtain ⟨r, hr⟩ := h
    exact Runs.wellPlaced hr (State.wellPlaced_start _)
  | moveRight =>
    subst h
    exact wellPlaced_perform hw .right
  | moveLeft =>
    subst h
    exact wellPlaced_perform hw .left
  | increment =>
    subst h
    exact wellPlaced_perform hw .increment
  | decrement =>
    subst h
    exact wellPlaced_perform hw .decrement
  | writeCell =>
    subst h
    exact wellPlaced_perform hw .write
  | readCell =>
    subst h
    exact wellPlaced_perform hw .read
  | flush =>
    subst h
    rwa [state_flush]
  | attachOutput output =>
    subst h
    exact hw
  | attachInput input =>
    subst h
    exact hw

theorem Operated.wellPlaced {m : Machine (Devices ω ι)} (h : Operated m) :
    m.state.WellPlaced := by
  induction h with
  | new radius => exact State.wellPlaced_start _
  | after op _ hop ih => exact hop.wellPlaced ih

/-- Whatever is done to a machine, its cursor belongs to its program and stands inside it, and a
program that has halted is on its last character. So no step moves the cursor below the first
character, no step and no run fails for a reason that lies in the machine itself, and a step of a
machine that has halted changes nothing and calls no device. -/
theorem operations_keep_place (m : Machine (Devices ω ι)) (h : Operated m) :
    m.state.WellPlaced ∧
    (∀ ch x, m.state.program.get? m.state.cursor.position = some ch →
      m.performChar ch = (.ok (), x) → x.state.cursor.advance 1 ≠ .error .beforeStart) ∧
    (∀ fault, m.step.1 = .fail fault → fault.Reportable) ∧
    (∀ fault x, m.Runs (.error fault, x) → fault.Reportable) ∧
    (∀ source fault x, m.Executes source (.error fault, x) → fault.Reportable) ∧
    (m.state.halted = true → m.step = (.halt, m)) := by
  have hw := h.wellPlaced
  refine ⟨hw, ?_, ?_, ?_, ?_, m.step_of_halted⟩
  · intro ch x _ _
    rw [Cursor.advance_one]
    split <;> exact fun he => by cases he
  · intro fault hf
    exact reportable_of_step hw hf
  · intro fault x hr
    exact hr.reportable hw
  · intro source fault x hr
    exact Runs.reportable (State.wellPlaced_start _) hr

theorem operations_keep_place_of_refused_last_flush :
    ∃ m : Machine (Devices Buffer LineScript), Operated m ∧ m.state.halted = true ∧
      m.state.cursor.position = 1 ∧ m.state.WellPlaced ∧ m.step = (.halt, m) := by
  have h₀ : Operated ({ host := {}, radius := 3 } : Machine (Devices Buffer LineScript)) :=
    Operated.new 3
  have h₁ := h₀.after (.attachOutput { flushesLeft := some 0 }) rfl
  have h₂ := h₁.after (.load "+.") rfl
  have h₃ := h₂.after .run ⟨.error .output, 5, rfl⟩
  obtain ⟨hplace, -, -, -, -, hstep⟩ := operations_keep_place _ h₃
  exact ⟨_, h₃, rfl, rfl, hplace, hstep rfl⟩

end Machine

end TapeLang
