import TapeLang.Proofs.Console.Runs
import TapeLang.Proofs.Machine.Operations

/-! A machine that executes a program keeps nothing of its past.

Loading a program replaces the whole state of a machine, so its past can only live on in the devices:
the calls made before stay on record, and a buffer keeps its bytes. Neither can be seen by a program.
This is an accord (`Devices.continued`), so a machine executes a program as a new one does
(`executeWithin_continued`), and two executions on the same lines say the same
(`Executes.repeated`). -/
namespace TapeLang
set_option autoImplicit false

variable {ω ι : Type}

/-! ## Devices with a past -/

/-- A relation between outputs that give the same answers to all calls. -/
structure Sink.Indistinct [Sink ω] (related : ω → ω → Prop) : Prop where
  write : ∀ {o o' : ω}, related o o' → ∀ byte, (Sink.write o' byte).1 = (Sink.write o byte).1 ∧
    related (Sink.write o byte).2 (Sink.write o' byte).2
  flush : ∀ {o o' : ω}, related o o' → (Sink.flush o').1 = (Sink.flush o).1 ∧
    related (Sink.flush o).2 (Sink.flush o').2

theorem Sink.indistinct_eq [Sink ω] : Sink.Indistinct (Eq : ω → ω → Prop) where
  write := by
    rintro o _ rfl byte
    exact ⟨rfl, rfl⟩
  flush := by
    rintro o _ rfl
    exact ⟨rfl, rfl⟩

/-- Two outputs that are both attached and related, or both missing. -/
inductive Paired (related : ω → ω → Prop) : Bool → Option ω → Option ω → Prop
  | missing : Paired related false none none
  | attached {o o' : ω} (h : related o o') : Paired related true (some o) (some o')

theorem paired_eq_self (output : Option ω) : Paired Eq output.isSome output output := by
  cases output with
  | none => exact Paired.missing
  | some o => exact Paired.attached rfl

theorem Paired.eq {attached : Bool} {a b : Option ω} (h : Paired Eq attached a b) : b = a := by
  cases h with
  | missing => rfl
  | attached h => rw [h]

/-- Devices, and the same devices with other calls before, where the outputs give the same
answers. -/
def Devices.continued [Sink ω] [Source ι] {related : ω → ω → Prop} (h : Sink.Indistinct related)
    (attached : Bool) (earlier : Array Call) : Accord (Devices ω ι) (Devices ω ι) where
  Agree _ d e := Paired related attached d.output e.output ∧ e.input = d.input ∧
    e.calls = earlier ++ d.calls
  fewer h := h
  write := by
    rintro n ⟨output, input, calls⟩ ⟨output', input', calls'⟩ ⟨hout, hin, hcalls⟩ byte
    simp only at hout hin hcalls
    cases hout with
    | missing => exact ⟨rfl, Paired.missing, hin, hcalls⟩
    | attached ho =>
      obtain ⟨hanswer, hafter⟩ := h.write ho byte
      refine ⟨hanswer, Paired.attached hafter, hin, ?_⟩
      simp only [Host.write, Devices.write, hanswer, hcalls, Array.append_push]
  flush := by
    rintro n ⟨output, input, calls⟩ ⟨output', input', calls'⟩ ⟨hout, hin, hcalls⟩
    simp only at hout hin hcalls
    cases hout with
    | missing => exact ⟨rfl, Paired.missing, hin, hcalls⟩
    | attached ho =>
      obtain ⟨hanswer, hafter⟩ := h.flush ho
      refine ⟨hanswer, Paired.attached hafter, hin, ?_⟩
      simp only [Host.flush, Devices.flush, hanswer, hcalls, Array.append_push]
  readLine := by
    rintro n ⟨output, input, calls⟩ ⟨output', input', calls'⟩ ⟨hout, hin, hcalls⟩
    simp only at hout hin hcalls
    subst hin hcalls
    cases input' with
    | none => exact ⟨rfl, hout, rfl, rfl⟩
    | some source =>
      refine ⟨rfl, hout, rfl, ?_⟩
      simp only [Host.readLine, Devices.readLine, Array.append_push]

/-! ## Executions on devices with a past -/

namespace Machine

variable [Sink ω] [Source ι] {x y m m' : Machine (Devices ω ι)} {source : String}
  {r : Except Fault Unit}

/-- Two machines execute a program alike if the one has the devices of the other, with other calls
before. Their states do not matter. -/
theorem executeWithin_continued {related : ω → ω → Prop} (h : Sink.Indistinct related)
    {attached : Bool} {earlier : Array Call}
    (hhost : (Devices.continued h attached earlier).Agree 0 x.host y.host)
    (hradius : y.radius = x.radius) (fuel : Nat) (source : String) :
    x.executeWithin fuel source = none ∧ y.executeWithin fuel source = none ∨
      ∃ r x' y', x.executeWithin fuel source = some (r, x') ∧
        y.executeWithin fuel source = some (r, y') ∧ y'.state = x'.state ∧ y'.radius = x'.radius ∧
        (Devices.continued h attached earlier).Agree 0 x'.host y'.host := by
  have htwins : ∀ n, Twins (Devices.continued h attached earlier) n (x.load source)
      (y.load source) := fun n => ⟨rfl, hradius, hhost⟩
  obtain hnone | ⟨⟨r, x'⟩, ⟨r', y'⟩, hx, hy, hresult, hafter⟩ := (htwins (0 + _)).runWithin fuel
  · exact Or.inl hnone
  · obtain rfl : r' = r := hresult
    exact Or.inr ⟨r', x', y', hx, hy, hafter.state, hafter.radius, hafter.host⟩

/-- A new machine with excerpts of the same width, on the devices as they are now. -/
def renewed (m : Machine (Devices ω ι)) : Machine (Devices ω ι) :=
  { host := { output := m.host.output, input := m.host.input }, radius := m.radius }

theorem executeWithin_renewed (m : Machine (Devices ω ι)) (fuel : Nat) (source : String) :
    m.executeWithin fuel source = (m.renewed.executeWithin fuel source).map fun o =>
      (o.1, o.2.updateHost fun d => { d with calls := m.host.calls ++ d.calls }) := by
  have hhost : (Devices.continued Sink.indistinct_eq m.host.output.isSome m.host.calls).Agree 0
      m.renewed.host m.host := ⟨paired_eq_self _, rfl, Array.append_empty.symm⟩
  obtain ⟨hx, hy⟩ | ⟨r, ⟨state, ⟨output, input, calls⟩, radius⟩,
      ⟨state', ⟨output', input', calls'⟩, radius'⟩, hx, hy, hstate, hradius, hout, hin, hcalls⟩ :=
    executeWithin_continued Sink.indistinct_eq hhost rfl fuel source
  · rw [hx, hy]
    rfl
  · have hsame := hout.eq
    simp only at hstate hradius hsame hin hcalls
    subst hstate hradius hsame hin hcalls
    rw [hx, hy]
    rfl

/-! ## What an execution leaves behind -/

theorem Executes.concluded (h : m.Executes source (r, m')) :
    ∃ result m₁, (r, m') = conclude m₁ result ∧
      m₁.state.program = Program.ofString source ∧ m₁.radius = m.radius := by
  obtain ⟨result, m₁, hstop, hc⟩ := ((m.load source).runs_iff_stops _).mp h
  obtain ⟨x, hx, hs⟩ := hstop.reached
  obtain ⟨k, c, hstands⟩ := hx.step.stands (m.stands_load source)
  rw [hs] at hstands
  exact ⟨result, m₁, hc, hstands.program, hstands.radius⟩

/-- A program that ends without a fault leaves the state in which it started: only a halt whose flush
succeeds ends in success, and it resets the machine. -/
theorem Executes.state_of_ok (h : m.Executes source (.ok (), m')) :
    m'.state = State.start (Program.ofString source) := by
  obtain ⟨result, m₁, hc, hprogram, -⟩ := h.concluded
  obtain fault | _ := result
  · cases hc
  · have hflush := m₁.state_flush
    simp only [conclude, finish] at hc
    generalize m₁.flush = flushed at hflush hc
    obtain ⟨_ | _, m₂⟩ := flushed <;> cases hc
    rw [state_reset, hflush, hprogram]

theorem radius_flush (m : Machine (Devices ω ι)) : m.flush.2.radius = m.radius := by
  rw [flush_eq]

theorem Executes.radius (h : m.Executes source (r, m')) : m'.radius = m.radius := by
  obtain ⟨result, m₁, hc, -, hradius⟩ := h.concluded
  rw [← hradius, ← m₁.radius_flush]
  obtain fault | _ := result
  · cases hc
    rfl
  · simp only [conclude, finish] at hc
    generalize m₁.flush = flushed at hc ⊢
    obtain ⟨_ | _, m₂⟩ := flushed <;> cases hc <;> rfl

end Machine

/-! ## Programs executed twice -/

/-- A buffer that refuses nothing, and the same buffer with other bytes in front. -/
def Buffer.Extended (before : ByteArray) (b b' : Buffer) : Prop :=
  ∃ said, b = { bytes := said } ∧ b' = { bytes := before ++ said }

theorem Buffer.indistinct_extended (before : ByteArray) :
    Sink.Indistinct (Buffer.Extended before) where
  write := by
    rintro _ _ ⟨said, rfl, rfl⟩ byte
    refine ⟨rfl, said.push byte, rfl, ?_⟩
    simp only [Sink.write, Buffer.write, Buffer.spend, Console.append_push]
  flush := by
    rintro _ _ ⟨said, rfl, rfl⟩
    exact ⟨rfl, said, rfl, rfl⟩

namespace Machine

variable [Source ι] {x x' : Machine (Devices Buffer ι)} {source : String} {r : Except Fault Unit}

/-- A new machine with an empty buffer. -/
def onBuffer (radius : Nat) (input : Option ι) : Machine (Devices Buffer ι) :=
  { host := { output := some {}, input }, radius }

/-- What a machine says is added to its buffer, and is what a new machine says. -/
theorem executeWithin_onBuffer {before : ByteArray}
    (hout : x.host.output = some { bytes := before }) (fuel : Nat) (source : String) :
    (onBuffer x.radius x.host.input).executeWithin fuel source = none ∧
        x.executeWithin fuel source = none ∨
      ∃ r said z x', (onBuffer x.radius x.host.input).executeWithin fuel source = some (r, z) ∧
        x.executeWithin fuel source = some (r, x') ∧ x'.state = z.state ∧
        z.host.output = some { bytes := said } ∧
        x'.host.output = some { bytes := before ++ said } := by
  have hpaired : Paired (Buffer.Extended before) true (some {}) x.host.output := by
    rw [hout]
    exact Paired.attached ⟨ByteArray.empty, rfl, by rw [ByteArray.append_empty]⟩
  have hhost : (Devices.continued (Buffer.indistinct_extended before) true x.host.calls).Agree 0
      (onBuffer x.radius x.host.input).host x.host := ⟨hpaired, rfl, Array.append_empty.symm⟩
  obtain hnone | ⟨r, z, x', hz, hx, hstate, -, hafter, -⟩ :=
    executeWithin_continued (Buffer.indistinct_extended before) hhost rfl fuel source
  · exact Or.inl hnone
  · refine Or.inr ⟨r, ?_⟩
    generalize ho : z.host.output = o at hafter
    generalize ho' : x'.host.output = o' at hafter
    cases hafter with
    | attached hextended =>
      obtain ⟨said, rfl, rfl⟩ := hextended
      exact ⟨said, z, x', hz, hx, hstate, ho, ho'⟩

/-- A program that is executed again on the same lines has the same result and says the same. -/
theorem Executes.repeated {before : ByteArray} (hout : x.host.output = some { bytes := before })
    (h : x.Executes source (r, x')) :
    ∃ said x'', x'.host.output = some { bytes := before ++ said } ∧
      (x'.updateHost fun d => { d with input := x.host.input }).Executes source (r, x'') ∧
      x''.state = x'.state ∧ x''.host.output = some { bytes := before ++ said ++ said } := by
  have hradius := h.radius
  obtain ⟨fuel, hfuel⟩ := h
  obtain ⟨-, hnone⟩ | ⟨r', said, z, x₁, hz, hx, hstate, hsaid, hafter⟩ :=
    executeWithin_onBuffer hout fuel source
  · rw [hfuel] at hnone
    cases hnone
  · rw [hfuel] at hx
    cases hx
    have hout' : (x'.updateHost fun d => { d with input := x.host.input }).host.output =
        some { bytes := before ++ said } := hafter
    obtain ⟨hnone, -⟩ | ⟨r₂, said₂, z₂, x₂, hz₂, hx₂, hstate₂, hsaid₂, hafter₂⟩ :=
      executeWithin_onBuffer hout' fuel source
    · have hz' : (onBuffer x'.radius x.host.input).executeWithin fuel source = none := hnone
      rw [hradius, hz] at hz'
      cases hz'
    · have hz' : (onBuffer x'.radius x.host.input).executeWithin fuel source = some (r₂, z₂) := hz₂
      rw [hradius, hz] at hz'
      cases hz'
      rw [hsaid] at hsaid₂
      cases hsaid₂
      exact ⟨said, x₂, hafter, ⟨fuel, hx₂⟩, hstate₂.trans hstate.symm, hafter₂⟩

/-- A machine executes a program as a new machine does that has excerpts of the same width and the
same devices, whatever was done to it before: with the same result, the same state after it, and the
same devices and calls, which are added to the calls on record. After a success it is clean: the
cursor and the pointer are at zero, no cell is stored, it has not halted and the program is still
loaded. So a program that is executed twice on the same lines says the same twice. -/
theorem executions_forget_past {ω ι : Type} [Sink ω] [Source ι] (m : Machine (Devices ω ι))
    (source : String) :
    (∀ fuel, m.executeWithin fuel source = (m.renewed.executeWithin fuel source).map fun o =>
      (o.1, o.2.updateHost fun d => { d with calls := m.host.calls ++ d.calls })) ∧
    (∀ m', m.Executes source (.ok (), m') → m'.state.cursor.position = 0 ∧ m'.state.pointer = 0 ∧
      m'.state.tape.stored = 0 ∧ m'.state.halted = false ∧ m'.state.program.toString = source) ∧
    ∀ (x x' : Machine (Devices Buffer ι)) (before : ByteArray) (r : Except Fault Unit),
      x.host.output = some { bytes := before } → x.Executes source (r, x') →
        ∃ said x'', x'.host.output = some { bytes := before ++ said } ∧
          (x'.updateHost fun d => { d with input := x.host.input }).Executes source (r, x'') ∧
          x''.state = x'.state ∧ x''.host.output = some { bytes := before ++ said ++ said } := by
  refine ⟨fun fuel => m.executeWithin_renewed fuel source, ?_, ?_⟩
  · intro m' hm'
    rw [hm'.state_of_ok]
    exact ⟨rfl, rfl, Tape.stored_empty, rfl, Program.toString_ofString source⟩
  · intro x x' before r hout hx
    exact hx.repeated hout

theorem executions_forget_past_after_fault :
    ∃ m x x' : Machine (Devices Buffer LineScript), Operated m ∧ m.state.pointer = 1 ∧
      m.state.tape.stored = 2 ∧ m.host.output = some {} ∧ m.Executes ",." (.ok (), x) ∧
      x.state.pointer = 0 ∧ x.state.tape.stored = 0 ∧ ∃ said,
        x.host.output = some { bytes := ByteArray.empty ++ said } ∧ said = [65].toByteArray ∧
        (x.updateHost fun d => { d with input := m.host.input }).Executes ",." (.ok (), x') ∧
        x'.host.output = some { bytes := ByteArray.empty ++ said ++ said } := by
  have h₀ : Operated ({ host := {}, radius := 3 } : Machine (Devices Buffer LineScript)) :=
    Operated.new 3
  have h₁ := h₀.after (.attachOutput {}) rfl
  have h₂ := h₁.after (.attachInput ⟨[some "7", some "65", none]⟩) rfl
  have h₃ := h₂.after (.execute ",>+]") ⟨_, 9, rfl⟩
  obtain ⟨m, hm, hpointer, hstored, hhost, hradius⟩ :
      ∃ m : Machine (Devices Buffer LineScript), Operated m ∧ m.state.pointer = 1 ∧
        m.state.tape.stored = 2 ∧ m.host = ⟨some {}, some ⟨[some "65", none]⟩,
          #[.flush true, .readLine true, .flush true]⟩ ∧ m.radius = 3 :=
    ⟨_, h₃, rfl, rfl, rfl, rfl⟩
  -- of the machine that has failed, an execution needs only the host and the width of excerpts
  obtain ⟨x, hexec, hbytes⟩ : ∃ x, m.Executes ",." (.ok (), x) ∧
      x.host.output = some { bytes := [65].toByteArray } := by
    obtain ⟨state, host, radius⟩ := m
    cases hhost
    cases hradius
    exact ⟨_, ⟨9, rfl⟩, rfl⟩
  have hout : m.host.output = some {} := by rw [hhost]
  obtain ⟨-, hclean, htwice⟩ := executions_forget_past m ",."
  obtain ⟨-, hpointer', hstored', -⟩ := hclean x hexec
  obtain ⟨said, x', hsaid, hagain, -, hafter⟩ := htwice m x ByteArray.empty _ hout hexec
  have hsame : said = [65].toByteArray := by
    rw [hsaid, ByteArray.empty_append] at hbytes
    exact congrArg Buffer.bytes (Option.some.inj hbytes)
  exact ⟨m, x, x', hm, hpointer, hstored, hout, hexec, hpointer', hstored', said, hsaid, hsame,
    hagain, hafter⟩

end Machine

end TapeLang
