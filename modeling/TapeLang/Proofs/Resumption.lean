import TapeLang.Host.Buffer
import TapeLang.Host.LineScript
import TapeLang.Proofs.Machine.Walk

/-! Runs that are interrupted and taken up again.

A run that ends because its output or its input failed leaves the machine on the instruction that
was not performed, or at the end of the program if the last flush failed. With any output attached
that goes on with the same bytes, the machine can run on. However often that happens, no byte is lost
and none is written twice.

The uninterrupted run is taken as a walk to a fixed goal. A machine that `Tracks` the goal stands at
a place of that walk, with devices that `Mirror` those of the walk: a step of the machine is a step
of the walk, or is refused and stays at its place (`visit_mirrors`). -/
namespace TapeLang
set_option autoImplicit false

/-! ## Outputs that keep what they take -/

/-- A place that takes output and keeps the bytes that it did not refuse. -/
class Recorder (ω : Type) [Sink ω] where
  bytes : ω → List UInt8
  bytes_write : ∀ (o : ω) (byte : UInt8), bytes (Sink.write o byte).2 =
    if (Sink.write o byte).1 then bytes o ++ [byte] else bytes o
  bytes_flush : ∀ o : ω, bytes (Sink.flush o).2 = bytes o

instance : Recorder Buffer where
  bytes b := b.bytes.data.toList
  bytes_write := by
    rintro ⟨bytes, writesLeft, flushesLeft⟩ byte
    obtain _ | _ | n := writesLeft
    · exact Array.toList_push
    · rfl
    · exact Array.toList_push
  bytes_flush _ := rfl

/-- The bytes that the attached output has kept. -/
def Devices.written {ω ι : Type} [Sink ω] [Recorder ω] (d : Devices ω ι) : List UInt8 :=
  match d.output with
  | some o => Recorder.bytes o
  | none => []

section Growth

variable {ω ι : Type} [Sink ω] [Recorder ω] [Source ι]

theorem Devices.written_write (d : Devices ω ι) (byte : UInt8) :
    d.written <+: (Host.write d byte).2.written := by
  obtain ⟨_ | o, input, calls⟩ := d
  · exact List.prefix_refl _
  · change Recorder.bytes o <+: Recorder.bytes (Sink.write o byte).2
    rw [Recorder.bytes_write]
    split
    · exact List.prefix_append _ _
    · exact List.prefix_refl _

theorem Devices.written_flush (d : Devices ω ι) : (Host.flush d).2.written = d.written := by
  obtain ⟨_ | o, input, calls⟩ := d
  · rfl
  · exact Recorder.bytes_flush o

theorem Devices.written_readLine (d : Devices ω ι) : (Host.readLine d).2.written = d.written := by
  obtain ⟨output, _ | source, calls⟩ := d <;> rfl

theorem Action.written_perform (c : Config (Devices ω ι)) (a : Action) :
    c.host.written <+: (Action.perform c a).2.host.written := by
  cases a with
  | right | left | increment | decrement => exact List.prefix_refl _
  | write =>
    have hw := Devices.written_write c.host c.cell
    simp only [Action.perform]
    generalize Host.write c.host c.cell = called at hw ⊢
    obtain ⟨_ | _, host⟩ := called <;> exact hw
  | read =>
    have hf := Devices.written_flush c.host
    simp only [Action.perform]
    generalize Host.flush c.host = flushed at hf ⊢
    obtain ⟨_ | _, host⟩ := flushed
    · exact hf ▸ List.prefix_refl _
    · have hr := Devices.written_readLine host
      simp only
      generalize Host.readLine host = called at hr ⊢
      obtain ⟨_ | line, host'⟩ := called <;> exact (hr.trans hf) ▸ List.prefix_refl _

theorem Program.written_visit (p : Program) (radius k : Nat) (c : Config (Devices ω ι)) :
    c.host.written <+: (p.visit radius k c).2.host.written := by
  unfold Program.visit
  split
  · rename_i a _
    have ha := Action.written_perform c a
    generalize Action.perform c a = done at ha ⊢
    obtain ⟨_ | _, c'⟩ := done <;> exact ha
  all_goals exact List.prefix_refl _

theorem Program.Walk.written {p : Program} {radius n k : Nat} {c : Config (Devices ω ι)}
    {r : Except Fault Nat × Config (Devices ω ι)} (h : p.Walk radius n k c r) :
    c.host.written <+: r.2.host.written := by
  induction h with
  | stay k c => exact List.prefix_refl _
  | @fault k c c' f _ hv =>
    have hw := p.written_visit radius k c
    rwa [hv] at hw
  | @next n k k₁ c c₁ r _ hv _ ih =>
    have hw := p.written_visit radius k c
    rw [hv] at hw
    exact hw.trans ih

end Growth

/-! ## Devices that mirror the uninterrupted ones -/

variable {ω : Type} [Sink ω] [Recorder ω]

/-- The output has kept the same bytes as one that refuses nothing, and the lines are the same except
for those that fail. -/
inductive Mirror : Devices ω LineScript → Devices Buffer LineScript → Prop
  | intro (o : ω) (bytes : ByteArray) (h : Recorder.bytes o = bytes.data.toList)
      (lines : List (Option String)) (calls calls' : Array Call) :
      Mirror ⟨some o, some ⟨lines⟩, calls⟩
        ⟨some { bytes }, some ⟨lines.filter Option.isSome⟩, calls'⟩

namespace Mirror

variable {d : Devices ω LineScript} {e : Devices Buffer LineScript}

theorem written_eq (h : Mirror d e) : d.written = e.written := by
  obtain ⟨o, bytes, h, lines, calls, calls'⟩ := h
  exact h

theorem write (h : Mirror d e) (byte : UInt8) :
    (∃ d' e', Host.write d byte = (true, d') ∧ Host.write e byte = (true, e') ∧ Mirror d' e') ∨
      ∃ d', Host.write d byte = (false, d') ∧ Mirror d' e := by
  obtain ⟨o, bytes, h, lines, calls, calls'⟩ := h
  have hb := Recorder.bytes_write o byte
  rcases hw : Sink.write o byte with ⟨_ | _, o'⟩
  · rw [hw, if_neg Bool.false_ne_true, h] at hb
    refine Or.inr ⟨⟨some o', some ⟨lines⟩, calls.push (.write byte false)⟩, ?_,
      Mirror.intro o' bytes hb _ _ _⟩
    simp only [Host.write, Devices.write, hw]
  · rw [hw, if_pos rfl, h] at hb
    refine Or.inl ⟨⟨some o', some ⟨lines⟩, calls.push (.write byte true)⟩, _, ?_, rfl,
      Mirror.intro o' (bytes.push byte) (hb.trans Array.toList_push.symm) _ _ _⟩
    simp only [Host.write, Devices.write, hw]

theorem flush (h : Mirror d e) :
    ∃ flushed d' e', Host.flush d = (flushed, d') ∧ Host.flush e = (true, e') ∧ Mirror d' e ∧
      Mirror d' e' := by
  obtain ⟨o, bytes, h, lines, calls, calls'⟩ := h
  have hb := (Recorder.bytes_flush o).trans h
  exact ⟨_, _, _, rfl, rfl, Mirror.intro _ bytes hb _ _ _, Mirror.intro _ bytes hb _ _ _⟩

theorem readLine (h : Mirror d e) :
    (∃ line d' e', Host.readLine d = (some line, d') ∧ Host.readLine e = (some line, e') ∧
        Mirror d' e') ∨
      ∃ d', Host.readLine d = (none, d') ∧ Mirror d' e := by
  obtain ⟨o, bytes, h, lines, calls, calls'⟩ := h
  obtain _ | ⟨_ | line, lines⟩ := lines
  · exact Or.inl ⟨"", _, _, rfl, rfl, Mirror.intro o bytes h [] _ _⟩
  · exact Or.inr ⟨_, rfl, Mirror.intro o bytes h lines _ _⟩
  · exact Or.inl ⟨line, _, _, rfl, rfl, Mirror.intro o bytes h lines _ _⟩

end Mirror

/-- The same pointer and cells, with devices that mirror the others. -/
structure Config.Mirrors (c : Config (Devices ω LineScript)) (d : Config (Devices Buffer LineScript)) :
    Prop where
  pointer : c.pointer = d.pointer
  cells : c.cells = d.cells
  host : Mirror c.host d.host

namespace Config.Mirrors

variable {c : Config (Devices ω LineScript)} {d : Config (Devices Buffer LineScript)}

theorem cell (h : c.Mirrors d) : c.cell = d.cell := by
  rw [Config.cell, h.pointer, h.cells, Config.cell]

theorem withHost (h : c.Mirrors d) {host : Devices ω LineScript} {host' : Devices Buffer LineScript}
    (hm : Mirror host host') : (c.withHost host).Mirrors (d.withHost host') :=
  ⟨h.pointer, h.cells, hm⟩

theorem store (h : c.Mirrors d) (value : UInt8) : (c.store value).Mirrors (d.store value) := by
  refine ⟨h.pointer, ?_, h.host⟩
  rw [Config.store, h.pointer, h.cells]
  rfl

theorem perform (h : c.Mirrors d) (a : Action) :
    (∃ c' d', Action.perform c a = (.ok (), c') ∧ Action.perform d a = (.ok (), d') ∧
        c'.Mirrors d') ∨
      ∃ f c', Action.perform c a = (.error f, c') ∧ (f = .output ∨ f = .input) ∧ c'.Mirrors d := by
  cases a with
  | right =>
    exact Or.inl ⟨_, _, rfl, rfl, ⟨congrArg (· + 1) h.pointer, h.cells, h.host⟩⟩
  | left =>
    exact Or.inl ⟨_, _, rfl, rfl, ⟨congrArg (· - 1) h.pointer, h.cells, h.host⟩⟩
  | increment =>
    refine Or.inl ⟨_, _, rfl, rfl, ?_⟩
    rw [h.cell]
    exact h.store _
  | decrement =>
    refine Or.inl ⟨_, _, rfl, rfl, ?_⟩
    rw [h.cell]
    exact h.store _
  | write =>
    simp only [Action.perform, h.cell]
    obtain ⟨host, host', hw, hw', hm⟩ | ⟨host, hw, hm⟩ := h.host.write d.cell
    · exact Or.inl ⟨_, _, by rw [hw], by rw [hw'], h.withHost hm⟩
    · exact Or.inr ⟨_, _, by rw [hw], Or.inl rfl, h.withHost hm⟩
  | read =>
    simp only [Action.perform]
    obtain ⟨_ | _, host, host', hf, hf', hm, hm'⟩ := h.host.flush
    · exact Or.inr ⟨_, _, by rw [hf], Or.inl rfl, h.withHost hm⟩
    · simp only [hf, hf']
      -- if the read fails, the other side has not flushed either: the action starts again there
      obtain ⟨line, host₁, host₂, hr, hr', hm₁⟩ | ⟨host₁, hr, -⟩ := hm'.readLine
      · exact Or.inl ⟨_, _, by rw [hr], by rw [hr'], (h.withHost hm₁).store _⟩
      · obtain ⟨line, _, _, hr', -, -⟩ | ⟨host₂, hr₂, hm₂⟩ := hm.readLine
        · rw [hr] at hr'
          cases hr'
        · exact Or.inr ⟨_, _, by rw [hr₂], Or.inr rfl, h.withHost hm₂⟩

end Config.Mirrors

/-- A visit of no action depends on the current cell alone and changes nothing. -/
theorem Program.visit_still {η θ : Type} [Host η] [Host θ] (p : Program) (radius k : Nat)
    {c : Config η} {d : Config θ} (hcell : c.cell = d.cell)
    (h : ∀ a, (p.get? k).map Token.ofChar ≠ some (.action a)) :
    ∃ r, p.visit radius k c = (r, c) ∧ p.visit radius k d = (r, d) := by
  unfold visit
  cases ht : (p.get? k).map Token.ofChar with
  | none => exact ⟨_, rfl, rfl⟩
  | some token =>
    cases token with
    | comment => exact ⟨_, rfl, rfl⟩
    | action a => exact absurd ht (h a)
    | bracket b =>
      rw [hcell]
      cases b with
      | opening => exact ⟨_, rfl, rfl⟩
      | closing => exact ⟨_, rfl, rfl⟩

/-- A visit has the same outcome on both sides, or it is refused and the other side need not move. Of
the faults, only that of a bracket is common to both sides, and it changes nothing. -/
theorem Program.visit_mirrors (p : Program) (radius k : Nat) {c : Config (Devices ω LineScript)}
    {d : Config (Devices Buffer LineScript)} (h : c.Mirrors d) :
    (∃ k' c' d', p.visit radius k c = (.ok k', c') ∧ p.visit radius k d = (.ok k', d') ∧
        c'.Mirrors d') ∨
      (∃ f c', p.visit radius k c = (.error f, c') ∧ (f = .output ∨ f = .input) ∧ c'.Mirrors d) ∨
      ∃ f, p.visit radius k c = (.error f, c) ∧ p.visit radius k d = (.error f, d) := by
  by_cases ht : ∃ a, (p.get? k).map Token.ofChar = some (.action a)
  · obtain ⟨a, ht⟩ := ht
    simp only [visit, ht]
    obtain ⟨c', d', hc, hd, hm⟩ | ⟨f, c', hc, hf, hm⟩ := h.perform a
    · exact Or.inl ⟨k + 1, c', d', by rw [hc], by rw [hd], hm⟩
    · exact Or.inr (Or.inl ⟨f, c', by rw [hc], hf, hm⟩)
  · obtain ⟨f | k', hc, hd⟩ := p.visit_still radius k h.cell (not_exists.mp ht)
    · exact Or.inr (Or.inr ⟨f, hc, hd⟩)
    · exact Or.inl ⟨k', c, d, hc, hd, h⟩

/-! ## Machines on the way to a goal -/

namespace Machine

theorem Stands.mirror {x : Machine (Devices ω LineScript)} {p : Program} {radius k : Nat}
    {c : Config (Devices ω LineScript)} {d : Config (Devices Buffer LineScript)}
    (hs : x.Stands p radius k c) (hm : c.Mirrors d) : Mirror x.host d.host := by
  have hhost := hm.host
  rwa [← hs.config] at hhost

/-- The machine mirrors a place of a walk that ends with the goal. -/
def Tracks (p : Program) (radius : Nat)
    (goal : Except Fault Unit × Config (Devices Buffer LineScript))
    (x : Machine (Devices ω LineScript)) : Prop :=
  ∃ n k c d, x.Stands p radius k c ∧ c.Mirrors d ∧
    p.Walk radius n k d (goal.1.map fun _ => p.length, goal.2)

variable {p : Program} {radius : Nat} {goal : Except Fault Unit × Config (Devices Buffer LineScript)}
  {x : Machine (Devices ω LineScript)}

/-- One step on the way to a goal. The machine is still on its way after it, and if it did not go on
then a call was refused, or the goal is reached. -/
theorem Tracks.step (h : x.Tracks p radius goal) :
    ∃ s x', x.step = (s, x') ∧ x'.Tracks p radius goal ∧
      (s = .next ∨ s = .fail .output ∨ s = .fail .input ∨
        s = Step.ofResult goal.1 ∧ Mirror x'.host goal.2.host) := by
  obtain ⟨n, k, c, d, hs, hm, hw⟩ := h
  by_cases hk : k < p.length
  · obtain ⟨k', c', d', hc, hd, hm'⟩ | ⟨f, c', hc, hf, hm'⟩ | ⟨f, hc, hd⟩ :=
      p.visit_mirrors radius k hm
    · obtain ⟨x', hx, hs'⟩ := hs.step_ok hk hc
      obtain ⟨n', -, hw'⟩ := hw.uncons hk (fun j => Program.length_le_of_map) hd
      refine ⟨_, x', hx, ⟨n', k', c', d', hs', hm', hw'⟩, ?_⟩
      by_cases hk' : k' < p.length
      · exact Or.inl (if_pos hk')
      · obtain ⟨hgoal, hend⟩ := hw'.ok_of_end (Nat.le_of_not_lt hk')
        rw [if_neg hk', hgoal, hend]
        exact Or.inr (Or.inr (Or.inr ⟨rfl, hs'.mirror hm'⟩))
    · obtain ⟨x', hx, hs'⟩ := hs.step_error hk hc
      refine ⟨_, x', hx, ⟨n, k, c', d, hs', hm', hw⟩, ?_⟩
      obtain rfl | rfl := hf
      · exact Or.inr (Or.inl rfl)
      · exact Or.inr (Or.inr (Or.inl rfl))
    · obtain ⟨x', hx, hs'⟩ := hs.step_error hk hc
      refine ⟨_, x', hx, ⟨n, k, c, d, hs', hm, hw⟩, ?_⟩
      obtain ⟨hgoal, hend⟩ := hw.error_of_fault hk hd
      rw [hgoal, hend]
      exact Or.inr (Or.inr (Or.inr ⟨rfl, hs'.mirror hm⟩))
  · obtain ⟨x', hx, hs'⟩ := hs.step_end (Nat.le_of_not_lt hk)
    obtain ⟨hgoal, hend⟩ := hw.ok_of_end (Nat.le_of_not_lt hk)
    refine ⟨_, x', hx, ⟨n, k, c, d, hs', hm, hw⟩, ?_⟩
    rw [hgoal, hend]
    exact Or.inr (Or.inr (Or.inr ⟨rfl, hs'.mirror hm⟩))

theorem Tracks.written (h : x.Tracks p radius goal) : x.host.written <+: goal.2.host.written := by
  obtain ⟨n, k, c, d, hs, hm, hw⟩ := h
  rw [(hs.mirror hm).written_eq]
  exact hw.written

theorem Tracks.stepFrom (h : x.Tracks p radius goal) (taken limit : Nat) :
    (x.stepFrom taken limit).2.Tracks p radius goal := by
  induction limit generalizing x taken with
  | zero => exact h
  | succ limit ih =>
    obtain ⟨s, x', hx, h', -⟩ := h.step
    rw [Machine.stepFrom, hx]
    cases s with
    | next => exact ih h' (taken + 1)
    | halt => exact h'
    | fail f => exact h'

theorem Tracks.withHost (h : x.Tracks p radius goal) {host : Devices ω LineScript}
    (hm : ∀ e, Mirror x.host e → Mirror host e) :
    (⟨x.state, host, x.radius⟩ : Machine (Devices ω LineScript)).Tracks p radius goal := by
  obtain ⟨n, k, c, d, hs, hc, hw⟩ := h
  obtain ⟨rfl, rfl, rfl, rfl, hp⟩ := hs
  exact ⟨n, x.place, _, d, ⟨rfl, rfl, rfl, rfl, hp⟩, ⟨hc.pointer, hc.cells, hm _ hc.host⟩, hw⟩

theorem Tracks.stops (h : x.Tracks p radius goal) {s : Step} {x' : Machine (Devices ω LineScript)}
    (hstop : x.Stops s x') :
    x'.Tracks p radius goal ∧ (s = .fail .output ∨ s = .fail .input ∨
      s = Step.ofResult goal.1 ∧ Mirror x'.host goal.2.host) := by
  induction hstop with
  | last hx hne =>
    obtain ⟨s, x', hx', h', hcases⟩ := h.step
    rw [hx] at hx'
    cases hx'
    exact ⟨h', hcases.resolve_left hne⟩
  | more hx _ ih =>
    obtain ⟨s, x', hx', h', -⟩ := h.step
    rw [hx] at hx'
    cases hx'
    exact ih h'

/-- A run on the way to the goal is interrupted or ends as the goal says, and after a fault of either
kind the machine is still on its way. -/
theorem Tracks.runs (h : x.Tracks p radius goal) {r : Except Fault Unit}
    {x' : Machine (Devices ω LineScript)} (hr : x.Runs (r, x')) :
    x'.host.written <+: goal.2.host.written ∧ (∀ f, r = .error f → x'.Tracks p radius goal) ∧
      (r = .error .output ∨ r = .error .input ∨
        r = (settle goal.2.host goal.1).1 ∧ x'.host.written = goal.2.host.written) := by
  obtain ⟨result, x₁, hstop, hc⟩ := (x.runs_iff_stops _).mp hr
  obtain ⟨h₁, hcases⟩ := h.stops hstop
  have hset := x₁.conclude_settle result
  rw [← hc] at hset
  obtain ⟨hresult, hhost⟩ := Prod.mk.inj hset
  have hwritten : x'.host.written = x₁.host.written := by
    rw [hhost.trans (settle_host x₁.host result), Devices.written_flush]
  refine ⟨hwritten ▸ h₁.written, ?_, ?_⟩
  · rintro f rfl
    rw [conclude_of_error hc.symm]
    apply h₁.withHost
    intro e he
    obtain ⟨_, _, _, hf, -, hm, -⟩ := he.flush
    rwa [hf]
  · obtain hs | hs | ⟨hs, hm⟩ := hcases
    · obtain rfl : result = .error .output := Step.ofResult_injective hs
      exact Or.inl hresult
    · obtain rfl : result = .error .input := Step.ofResult_injective hs
      exact Or.inr (Or.inl hresult)
    · obtain rfl := Step.ofResult_injective hs
      rw [hm.written_eq] at hwritten
      obtain ⟨flushed, host, host', hf, hf', -, -⟩ := hm.flush
      obtain ⟨f | _, d⟩ := goal
      · exact Or.inr (Or.inr ⟨hresult, hwritten⟩)
      -- the goal is the end, where this machine flushes once more and may be refused
      · simp only [settle, hf, hf', if_true] at hresult ⊢
        cases flushed with
        | true => exact Or.inr (Or.inr ⟨hresult, hwritten⟩)
        | false => exact Or.inl hresult

/-! ## Taking up a run again -/

/-- The machines with which a run is started and taken up again, each time with an output that goes
on with the bytes kept so far. -/
inductive Resumed (start : Machine (Devices ω LineScript)) : Machine (Devices ω LineScript) → Prop
  | start : Resumed start start
  | again {x x' : Machine (Devices ω LineScript)} {f : Fault} (hx : Resumed start x)
      (hr : x.Runs (.error f, x')) (hf : f = .output ∨ f = .input) (o : ω)
      (ho : Recorder.bytes o = x'.host.written) :
      Resumed start (x'.updateHost fun d => d.attachOutput o)

theorem Resumed.tracks {start : Machine (Devices ω LineScript)} (h : Resumed start x)
    (hs : start.Tracks p radius goal) : x.Tracks p radius goal := by
  induction h with
  | start => exact hs
  | @again x x' f _ hr _ o ho ih =>
    obtain ⟨-, hgoes, -⟩ := ih.runs hr
    apply (hgoes f rfl).withHost
    intro e he
    generalize x'.host = host at ho he
    obtain ⟨o', bytes, hb, lines, calls, calls'⟩ := he
    exact Mirror.intro o bytes (ho.trans hb) lines calls calls'

/-- Failures of devices are survived without losing or repeating a byte. Let a program be run on an
output that refuses nothing and on the lines that do not fail, with a result and the bytes written.
Run it on an output that refuses calls and on all lines, and take the run up again, each time with
an output that goes on with the same bytes, for as long as the result is a failure of a device. Then
at every moment the bytes are a first part of those bytes, and a result that is not a failure of a
device is that result, with exactly those bytes written. -/
theorem resumed_runs (m : Machine (Devices ω LineScript)) (m₀ : Machine (Devices Buffer LineScript))
    (source : String) (lines : List (Option String)) (o : ω) (hradius : m₀.radius = m.radius)
    (hout : m.host.output = some o) (hempty : Recorder.bytes o = [])
    (hin : m.host.input = some ⟨lines⟩) (hout₀ : m₀.host.output = some {})
    (hin₀ : m₀.host.input = some ⟨lines.filter Option.isSome⟩) (result : Except Fault Unit)
    (y : Machine (Devices Buffer LineScript)) (href : m₀.Executes source (result, y))
    (x : Machine (Devices ω LineScript)) (hx : Resumed (m.load source) x) :
    (∀ limit, (x.stepFor limit).2.host.written <+: y.host.written) ∧
      ∀ r x', x.Runs (r, x') → x'.host.written <+: y.host.written ∧
        (r ≠ .error .output → r ≠ .error .input →
          r = result ∧ x'.host.written = y.host.written) := by
  have hs₀ := m₀.stands_load source
  obtain ⟨n, r₀, d, hw, hset⟩ := (hs₀.runs_iff_walk result y.host).mp ⟨y, href, rfl⟩
  have hstart : (m.load source).Tracks (Program.ofString source) m.radius (r₀, d) := by
    refine ⟨n, 0, _, _, m.stands_load source, ⟨rfl, rfl, ?_⟩, hradius ▸ hw⟩
    obtain ⟨state, ⟨output, input, calls⟩, radius⟩ := m
    obtain ⟨state₀, ⟨output₀, input₀, calls₀⟩, radius₀⟩ := m₀
    cases hout
    cases hin
    cases hout₀
    cases hin₀
    exact Mirror.intro o ByteArray.empty hempty lines calls calls₀
  have hbytes : y.host.written = d.host.written := by
    have hhost : y.host = (Host.flush d.host).2 := by
      rw [← settle_host d.host r₀, hset]
    rw [hhost, Devices.written_flush]
  rw [hbytes]
  have htracks := hx.tracks hstart
  refine ⟨fun limit => (htracks.stepFrom 0 limit).written, ?_⟩
  intro r x' hr
  obtain ⟨hgrown, -, hends⟩ := htracks.runs hr
  refine ⟨hgrown, ?_⟩
  intro houtput hinput
  obtain ⟨rfl, hwritten⟩ := (hends.resolve_left houtput).resolve_left hinput
  rw [hset]
  exact ⟨rfl, hwritten⟩

theorem resumed_runs_after_every_failure :
    let m : Machine (Devices Buffer LineScript) :=
      { host := { output := some { flushesLeft := some 0 }, input := some ⟨[none, some "7"]⟩ } }
    ∃ x x', Resumed (m.load ",.") x ∧ x.Runs (.ok (), x') ∧ x'.host.written = [7] := by
  intro m
  let m₀ : Machine (Devices Buffer LineScript) :=
    { host := { output := some {}, input := some ⟨[some "7"]⟩ } }
  have h₀ : Resumed (m.load ",.") (m.load ",.") := Resumed.start
  -- refused in turn: the flush before the read, the read, the write, and the last flush
  have h₁ := h₀.again ⟨9, rfl⟩ (Or.inl rfl) { writesLeft := some 0 } rfl
  have h₂ := h₁.again ⟨9, rfl⟩ (Or.inr rfl) { writesLeft := some 0 } rfl
  have h₃ := h₂.again ⟨9, rfl⟩ (Or.inl rfl) { flushesLeft := some 0 } rfl
  have h₄ := h₃.again ⟨9, rfl⟩ (Or.inl rfl) { bytes := ⟨#[7]⟩ } rfl
  obtain ⟨-, hends⟩ := resumed_runs m m₀ ",." [none, some "7"] { flushesLeft := some 0 } rfl rfl rfl
    rfl rfl rfl (.ok ()) _ ⟨9, rfl⟩ _ h₄
  have hruns := hends (.ok ()) _ ⟨9, rfl⟩
  have hwritten := (hruns.2 (fun h => by cases h) (fun h => by cases h)).2
  exact ⟨_, _, h₄, ⟨9, rfl⟩, hwritten⟩

end Machine

end TapeLang
