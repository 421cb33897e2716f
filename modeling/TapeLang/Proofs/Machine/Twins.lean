import TapeLang.Proofs.Machine.Walk

/-! Two machines on hosts that answer alike.

A program learns of its host only by the answers to its calls, and of a line only its value. An
`Accord` is a relation between two kinds of hosts that says so much: calls are answered alike and
lead to related hosts again. It carries the number of lines for which that is known, so that hosts
which agree up to some line can be compared up to there.

Machines in the same state on related hosts are `Twins`. The same is due in both, and their hosts answer
alike (`Accord.answer`), so they take the same steps (`Twins.step`). By induction they stay twins through
any number of steps (`Twins.stepFrom`) and through a run (`Twins.runWithin`), as long as the lines that
are read do not outnumber those for which the hosts agree. -/
namespace TapeLang
set_option autoImplicit false

/-! ## Hosts -/

/-- A relation between two kinds of hosts that every call keeps, by the number of lines for which
the hosts agree. -/
structure Accord (η θ : Type) [Host η] [Host θ] where
  /-- The hosts agree for so many further lines. -/
  Agree : Nat → η → θ → Prop
  fewer : ∀ {n h k}, Agree (n + 1) h k → Agree n h k
  write : ∀ {n h k}, Agree n h k → ∀ byte, (Host.write k byte).1 = (Host.write h byte).1 ∧
    Agree n (Host.write h byte).2 (Host.write k byte).2
  flush : ∀ {n h k}, Agree n h k → (Host.flush k).1 = (Host.flush h).1 ∧
    Agree n (Host.flush h).2 (Host.flush k).2
  readLine : ∀ {n h k}, Agree (n + 1) h k →
    (Host.readLine k).1.map Line.value = (Host.readLine h).1.map Line.value ∧
      Agree n (Host.readLine h).2 (Host.readLine k).2

/-- Hosts that agree give the same answer to a request. A request for a line uses up one of the lines
for which they agree, also if the flush before it fails. -/
theorem Accord.answer {η θ : Type} [Host η] [Host θ] (accord : Accord η θ) {n : Nat} {h : η} {k : θ}
    (request : Request) (ha : accord.Agree (n + request.lines) h k) :
    (request.answer k).1 = (request.answer h).1 ∧
      accord.Agree n (request.answer h).2 (request.answer k).2 := by
  cases request with
  | nothing effect => exact ⟨rfl, ha⟩
  | write byte =>
    obtain ⟨hanswer, hafter⟩ := accord.write ha byte
    simp only [Request.answer]
    generalize Host.write h byte = a at hanswer hafter ⊢
    generalize Host.write k byte = b at hanswer hafter ⊢
    obtain ⟨_ | _, h'⟩ := a <;> obtain ⟨_ | _, k'⟩ := b <;> cases hanswer
    · exact ⟨rfl, hafter⟩
    · exact ⟨rfl, hafter⟩
  | read =>
    obtain ⟨hflush, hflushed⟩ := accord.flush ha
    simp only [Request.answer]
    generalize Host.flush h = a at hflush hflushed ⊢
    generalize Host.flush k = b at hflush hflushed ⊢
    obtain ⟨_ | _, h'⟩ := a <;> obtain ⟨_ | _, k'⟩ := b <;> cases hflush
    · exact ⟨rfl, accord.fewer hflushed⟩
    · obtain ⟨hline, hafter⟩ := accord.readLine hflushed
      simp only at hline hafter ⊢
      generalize Host.readLine h' = a at hline hafter ⊢
      generalize Host.readLine k' = b at hline hafter ⊢
      obtain ⟨_ | line, h''⟩ := a <;> obtain ⟨_ | line', k''⟩ := b
      · exact ⟨rfl, hafter⟩
      · cases hline
      · cases hline
      · have hvalue : Line.value line' = Line.value line := Option.some.inj hline
        simp only [hvalue]
        exact ⟨trivial, hafter⟩

theorem Step.next_or_ofResult (s : Step) : s = .next ∨ ∃ r, s = Step.ofResult r := by
  cases s with
  | next => exact Or.inl rfl
  | halt => exact Or.inr ⟨.ok (), rfl⟩
  | fail fault => exact Or.inr ⟨.error fault, rfl⟩

namespace Machine

/-! ## Lines that are read -/

variable {η θ : Type}

/-- The number of lines that the next step reads. -/
def reading (m : Machine η) : Nat :=
  m.awaitsLine.toNat

/-- A step reads a line if that is what is due. -/
theorem reading_eq (m : Machine η) : m.reading = (m.state.due.map Request.lines).getD 0 := by
  unfold reading awaitsLine State.due
  cases m.state.halted with
  | true => rfl
  | false =>
    cases m.state.program.get? m.state.cursor.position with
    | none => rfl
    | some c =>
      by_cases hread : Instruction.ofChar? c = some .read
      · simp [State.lines_requestChar, hread]
      · simp [State.lines_requestChar, hread]

variable [Host η] [Host θ]

/-- The number of `,` instructions among the steps that `stepFor` takes. -/
def reads : Nat → Machine η → Nat
  | 0, _ => 0
  | limit + 1, m =>
    match m.step with
    | (.next, m') => m.reading + reads limit m'
    | _ => m.reading

theorem reads_of_next {m m' : Machine η} (h : m.step = (.next, m')) (limit : Nat) :
    m.reads (limit + 1) = m.reading + m'.reads limit := by
  simp only [reads, h]

/-- What the first step decides if it does not go on. -/
theorem stopped_of_ofResult {m m' : Machine η} {r : Except Fault Unit}
    (h : m.step = (Step.ofResult r, m')) (taken limit : Nat) :
    m.reads (limit + 1) = m.reading ∧
      m.stepFrom taken (limit + 1) = ((Step.ofResult r, taken + 1), m') ∧
      m.runWithin (limit + 1) = some (m'.conclude r) := by
  obtain _ | _ := r <;> simp only [reads, stepFrom, runWithin, h, Step.ofResult, conclude, and_self]

/-! ## Twins -/

/-- Two machines in the same state, with excerpts of the same width, on hosts that agree for so
many further lines. -/
structure Twins (accord : Accord η θ) (n : Nat) (x : Machine η) (y : Machine θ) : Prop where
  state : y.state = x.state
  radius : y.radius = x.radius
  host : accord.Agree n x.host y.host

/-- The same answer, and machines that are twins. -/
def Matched {α : Type} (accord : Accord η θ) (n : Nat) (a : α × Machine η) (b : α × Machine θ) :
    Prop :=
  b.1 = a.1 ∧ Twins accord n a.2 b.2

namespace Twins

variable {accord : Accord η θ} {n : Nat} {x : Machine η} {y : Machine θ}

theorem fewer (h : Twins accord (n + 1) x y) : Twins accord n x y :=
  ⟨h.state, h.radius, accord.fewer h.host⟩

theorem update (h : Twins accord n x y) (f : State → State) :
    Twins accord n (x.update f) (y.update f) :=
  ⟨congrArg f h.state, h.radius, h.host⟩

theorem flush (h : Twins accord n x y) : Matched accord n x.flush y.flush := by
  obtain ⟨hanswer, hhost⟩ := accord.flush h.host
  rw [flush_eq, flush_eq, hanswer]
  exact ⟨rfl, h.state, h.radius, hhost⟩

theorem reading (h : Twins accord n x y) : y.reading = x.reading := by
  rw [reading_eq, reading_eq, h.state]

/-- Twins take the same step, and the hosts agree for one line less if the step reads one. -/
theorem step (h : Twins accord (n + x.reading) x y) : Matched accord n x.step y.step := by
  have hreading := x.reading_eq
  rw [Machine.step_eq, Machine.step_eq, h.state]
  cases hd : x.state.due with
  | none =>
    rw [hd] at hreading
    rw [hreading] at h
    exact ⟨rfl, h.update fun s => { s with halted := true }⟩
  | some request =>
    rw [hd] at hreading
    rw [hreading] at h
    obtain ⟨hanswer, hhost⟩ := accord.answer request h.host
    simp only [react, h.state, h.radius, hanswer]
    exact ⟨rfl, rfl, rfl, hhost⟩

theorem step_eq {s : Step} {x' : Machine η} (h : Twins accord (n + x.reading) x y)
    (hx : x.step = (s, x')) : ∃ y', y.step = (s, y') ∧ Twins accord n x' y' := by
  obtain ⟨hs, htwins⟩ := h.step
  rcases hy : y.step with ⟨s', y'⟩
  rw [hx, hy] at hs htwins
  obtain rfl : s' = s := hs
  exact ⟨y', rfl, htwins⟩

/-! ## Many steps, and runs -/

theorem stepFrom (taken limit : Nat) (h : Twins accord (n + x.reads limit) x y) :
    y.reads limit = x.reads limit ∧
      Matched accord n (x.stepFrom taken limit) (y.stepFrom taken limit) := by
  induction limit generalizing x y taken with
  | zero => exact ⟨rfl, rfl, h⟩
  | succ limit ih =>
    rcases hx : x.step with ⟨s, x'⟩
    obtain rfl | ⟨r, rfl⟩ := s.next_or_ofResult
    · have e : n + x.reads (limit + 1) = n + x'.reads limit + x.reading := by
        rw [reads_of_next hx]
        omega
      rw [e] at h
      obtain ⟨y', hy, htwins⟩ := h.step_eq hx
      obtain ⟨hreads, hmatched⟩ := ih (taken + 1) htwins
      simp only [Machine.stepFrom, hx, hy]
      refine ⟨?_, hmatched⟩
      rw [reads_of_next hx, reads_of_next hy, hreads, h.reading]
    · obtain ⟨hreads, hsteps, -⟩ := stopped_of_ofResult hx taken limit
      rw [hreads] at h
      obtain ⟨y', hy, htwins⟩ := h.step_eq hx
      obtain ⟨hreads', hsteps', -⟩ := stopped_of_ofResult hy taken limit
      rw [hreads, hsteps, hreads', hsteps', h.reading]
      exact ⟨rfl, rfl, htwins⟩

theorem conclude (h : Twins accord n x y) (r : Except Fault Unit) :
    Matched accord n (x.conclude r) (y.conclude r) := by
  obtain ⟨hflush, htwins⟩ := h.flush
  obtain fault | _ := r
  · exact ⟨rfl, htwins⟩
  · simp only [Machine.conclude, finish]
    generalize x.flush = a at hflush htwins ⊢
    generalize y.flush = b at hflush htwins ⊢
    obtain ⟨_ | _, x'⟩ := a <;> obtain ⟨_ | _, y'⟩ := b <;> cases hflush
    · exact ⟨rfl, htwins⟩
    · exact ⟨rfl, htwins.update fun s => State.start s.program⟩

/-- Runs of twins both take too long for the fuel, or both end, with the same result. -/
theorem runWithin (fuel : Nat) (h : Twins accord (n + x.reads fuel) x y) :
    x.runWithin fuel = none ∧ y.runWithin fuel = none ∨
      ∃ a b, x.runWithin fuel = some a ∧ y.runWithin fuel = some b ∧ Matched accord n a b := by
  induction fuel generalizing x y with
  | zero => exact Or.inl ⟨rfl, rfl⟩
  | succ fuel ih =>
    rcases hx : x.step with ⟨s, x'⟩
    obtain rfl | ⟨r, rfl⟩ := s.next_or_ofResult
    · have e : n + x.reads (fuel + 1) = n + x'.reads fuel + x.reading := by
        rw [reads_of_next hx]
        omega
      rw [e] at h
      obtain ⟨y', hy, htwins⟩ := h.step_eq hx
      simp only [Machine.runWithin, hx, hy]
      exact ih htwins
    · obtain ⟨hreads, -, hrun⟩ := stopped_of_ofResult hx 0 fuel
      rw [hreads] at h
      obtain ⟨y', hy, htwins⟩ := h.step_eq hx
      obtain ⟨-, -, hrun'⟩ := stopped_of_ofResult hy 0 fuel
      exact Or.inr ⟨_, _, hrun, hrun', htwins.conclude r⟩

end Twins

end Machine

end TapeLang
