import TapeLang.Proofs.Excerpts

/-! The width of excerpts has no part in what a program does.

A machine reads its radius only to report a bracket. So a machine with another radius takes the same
step, up to the excerpt of a report (`step_withRadius`), and by induction the same steps and the same run
(`Stands.stepFrom_withRadius`, `Stands.runWithin_withRadius`). The excerpts of the two reports are windows
around the same bracket, and one lies in the middle of the other. -/
namespace TapeLang
set_option autoImplicit false

/-! ## Reports with another width -/

/-- The report with an excerpt of another width. -/
def Fault.reframed (p : Program) (radius : Nat) : Fault → Fault
  | .unmatched bracket position _ =>
    .unmatched bracket position (p.excerpt position.offset radius)
  | fault => fault

def Step.reframed (p : Program) (radius : Nat) : Step → Step
  | .fail fault => .fail (fault.reframed p radius)
  | step => step

namespace Program

theorem reframed_unmatchedFault (p : Program) (index r s : Nat) :
    (p.unmatchedFault index r).reframed p s = p.unmatchedFault index s := by
  unfold unmatchedFault
  split <;> rfl

theorem mapError_check (p : Program) (r s : Nat) :
    (p.check r).mapError (Fault.reframed p s) = p.check s := by
  unfold check
  cases p.unmatched? with
  | none => rfl
  | some index =>
    show Except.error _ = Except.error _
    rw [reframed_unmatchedFault]

end Program

/-! ## One step -/

theorem Fault.reframed_of_call {fault : Fault} (h : fault = .output ∨ fault = .input) (p : Program)
    (radius : Nat) : fault.reframed p radius = fault := by
  obtain rfl | rfl := h <;> rfl

namespace State

theorem jump_reframed (s : State) (r₁ r₂ : Nat) (partner : Except Edge Nat) :
    s.jump r₂ partner = (s.jump r₁ partner).mapError (Fault.reframed s.program r₂) := by
  cases partner with
  | ok index => rfl
  | error edge => simp only [jump, Except.mapError, Program.reframed_unmatchedFault]

/-- Of all that may come of an answer, only a jump without a partner shows the radius. -/
theorem enact_reframed (s : State) (r₁ r₂ : Nat) {answer : Except Fault Effect}
    (h : ∀ fault, answer = .error fault → fault = .output ∨ fault = .input) :
    s.enact r₂ answer = (s.enact r₁ answer).mapError (Fault.reframed s.program r₂) := by
  cases answer with
  | error fault => exact congrArg Except.error (Fault.reframed_of_call (h fault rfl) _ _).symm
  | ok effect =>
    cases effect with
    | stay | right | left | store => rfl
    | jump partner => exact s.jump_reframed r₁ r₂ partner

theorem react_reframed (s : State) (r₁ r₂ : Nat) {answer : Except Fault Effect}
    (h : ∀ fault, answer = .error fault → fault = .output ∨ fault = .input) :
    s.react r₂ answer = ((s.react r₁ answer).1.reframed s.program r₂, (s.react r₁ answer).2) := by
  unfold react
  rw [s.enact_reframed r₁ r₂ h]
  cases s.enact r₁ answer with
  | error fault => rfl
  | ok s' =>
    simp only [Except.mapError]
    obtain ⟨cursor, hs⟩ | hs := s'.advance_cases <;> rw [hs] <;> rfl

end State

namespace Machine

variable {η : Type}

def withRadius (m : Machine η) (radius : Nat) : Machine η :=
  { m with radius }

@[simp] theorem state_withRadius (m : Machine η) (r : Nat) : (m.withRadius r).state = m.state := rfl

/-- The same outcome on a machine with another radius. -/
def reframed (p : Program) (r : Nat) (o : Except Fault Unit × Machine η) :
    Except Fault Unit × Machine η :=
  (o.1.mapError (Fault.reframed p r), o.2.withRadius r)

variable [Host η]

theorem flush_withRadius (m : Machine η) (p : Program) (r : Nat) :
    (m.withRadius r).flush = reframed p r m.flush := by
  simp only [flush_eq, withRadius]
  cases (Host.flush m.host).1 <;> rfl

/-- A machine with another radius takes the same step, up to the excerpt of a report. -/
theorem step_withRadius (m : Machine η) (r : Nat) :
    (m.withRadius r).step = (m.step.1.reframed m.state.program r, m.step.2.withRadius r) := by
  rw [step_eq, step_eq, state_withRadius]
  cases m.state.due with
  | none => rfl
  | some request =>
    have hcall : ∀ fault, (request.answer m.host).1 = .error fault → fault = .output ∨ fault = .input :=
      fun _ => Request.fault_of_answer
    simp only [react, withRadius, m.state.react_reframed m.radius r hcall]

/-! ## Many steps, and runs -/

theorem finish_withRadius (m : Machine η) (p : Program) (r : Nat) :
    (m.withRadius r).finish = reframed p r m.finish := by
  simp only [finish, m.flush_withRadius p r]
  obtain ⟨_ | _, m'⟩ := m.flush <;> rfl

theorem abandon_withRadius (m : Machine η) (p : Program) (r : Nat) (fault : Fault) :
    (m.withRadius r).abandon (fault.reframed p r) = reframed p r (m.abandon fault) := by
  simp only [abandon, m.flush_withRadius p r, reframed, Except.mapError]

variable {m : Machine η} {p : Program} {radius k : Nat} {c : Config η}

theorem Stands.stepFrom_withRadius (h : m.Stands p radius k c) (r taken limit : Nat) :
    (m.withRadius r).stepFrom taken limit =
      (((m.stepFrom taken limit).1.1.reframed p r, (m.stepFrom taken limit).1.2),
        (m.stepFrom taken limit).2.withRadius r) := by
  -- the place only shows that the program stays the one that excerpts are taken from
  induction limit generalizing m k c taken with
  | zero => rfl
  | succ limit ih =>
    obtain ⟨k', c', hs⟩ := h.step_stands
    have hstep := m.step_withRadius r
    rw [h.program] at hstep
    simp only [stepFrom, hstep]
    rcases hm : m.step with ⟨_ | _ | fault, m'⟩
    · rw [hm] at hs
      exact ih hs (taken + 1)
    · rfl
    · rfl

theorem Stands.runWithin_withRadius (h : m.Stands p radius k c) (r fuel : Nat) :
    (m.withRadius r).runWithin fuel = (m.runWithin fuel).map (reframed p r) := by
  induction fuel generalizing m k c with
  | zero => rfl
  | succ fuel ih =>
    obtain ⟨k', c', hs⟩ := h.step_stands
    have hstep := m.step_withRadius r
    rw [h.program] at hstep
    simp only [runWithin, hstep]
    rcases hm : m.step with ⟨_ | _ | fault, m'⟩
    · rw [hm] at hs
      exact ih hs
    · exact congrArg some (m'.finish_withRadius p r)
    · exact congrArg some (m'.abandon_withRadius p r fault)

end Machine

/-! ## Two widths -/

/-- The window of an excerpt with the radius `r` is the middle of the window of one with the radius
`s`. -/
structure Excerpt.Within (r s : Nat) (e e' : Excerpt) : Prop where
  width : e.window.toList.length = 2 * r + 1
  middle : ∃ left right, left.length = s - r ∧ right.length = s - r ∧
    e'.window.toList = left ++ e.window.toList ++ right

/-- The same fault, except that the excerpt of a report is within the other. -/
def Fault.Within (r s : Nat) : Fault → Fault → Prop
  | .unmatched bracket position e, .unmatched bracket' position' e' =>
    bracket' = bracket ∧ position' = position ∧ e.Within r s e'
  | fault, fault' => fault' = fault

def Step.Within (r s : Nat) : Step → Step → Prop
  | .fail fault, .fail fault' => fault.Within r s fault'
  | step, step' => step' = step

/-- Both succeed, or both fail with the same fault, up to the excerpt. -/
def ResultWithin (r s : Nat) : Except Fault Unit → Except Fault Unit → Prop
  | .error fault, .error fault' => fault.Within r s fault'
  | result, result' => result' = result

section

variable {r s : Nat} (h : r ≤ s) (p : Program)

include h

theorem Fault.within_reframed (fault : Fault) :
    (fault.reframed p r).Within r s (fault.reframed p s) := by
  cases fault with
  | unmatched bracket position excerpt =>
    refine ⟨rfl, rfl, ?_, p.window_within _ h⟩
    rw [Program.window_eq_stretch, Program.length_stretch]
  | outside | internal | output | input => rfl

theorem Step.within_reframed (step : Step) :
    (step.reframed p r).Within r s (step.reframed p s) := by
  cases step with
  | fail fault => exact fault.within_reframed h p
  | next | halt => rfl

theorem resultWithin_mapError (result : Except Fault Unit) :
    ResultWithin r s (result.mapError (Fault.reframed p r))
      (result.mapError (Fault.reframed p s)) := by
  cases result with
  | error fault => exact fault.within_reframed h p
  | ok u => simp only [ResultWithin, Except.mapError]

theorem Program.check_within : ResultWithin r s (p.check r) (p.check s) := by
  have hframes := resultWithin_mapError h p (p.check r)
  rwa [p.mapError_check, p.mapError_check] at hframes

end

/-- The radius of a machine has no part in what a program does. Two machines that differ in it take
the same steps of a program: after any number of them the states and the devices are the same, with the
same calls made, and so are the answers of the steps and the result of the run. Only the report of a
bracket shows more or less of the text around it; what it shows with the smaller radius is the middle of
what it shows with the larger. The same holds of the check. -/
theorem Machine.radius_only_frames {ω ι : Type} [Sink ω] [Source ι] (m : Machine (Devices ω ι))
    (source : String) (r s : Nat) (h : r ≤ s) :
    let p := Program.ofString source
    let x := (m.withRadius r).load source
    let y := (m.withRadius s).load source
    (∀ limit, (y.stepFor limit).2.state = (x.stepFor limit).2.state ∧
      (y.stepFor limit).2.host = (x.stepFor limit).2.host ∧
      (y.stepFor limit).1.2 = (x.stepFor limit).1.2 ∧
      (x.stepFor limit).1.1.Within r s (y.stepFor limit).1.1) ∧
    (∀ fuel, Option.Rel
      (fun a b => b.2.state = a.2.state ∧ b.2.host = a.2.host ∧ ResultWithin r s a.1 b.1)
      ((m.withRadius r).executeWithin fuel source) ((m.withRadius s).executeWithin fuel source)) ∧
    ResultWithin r s (p.check r) (p.check s) := by
  intro p x y
  have hstands := m.stands_load source
  refine ⟨?_, ?_, p.check_within h⟩
  · intro limit
    have hx : x.stepFor limit = _ := hstands.stepFrom_withRadius r 0 limit
    have hy : y.stepFor limit = _ := hstands.stepFrom_withRadius s 0 limit
    rw [hx, hy]
    exact ⟨rfl, rfl, rfl, Step.within_reframed h p _⟩
  · intro fuel
    have hx : (m.withRadius r).executeWithin fuel source = _ := hstands.runWithin_withRadius r fuel
    have hy : (m.withRadius s).executeWithin fuel source = _ := hstands.runWithin_withRadius s fuel
    rw [hx, hy]
    cases (m.load source).runWithin fuel with
    | none => exact Option.Rel.none
    | some o => exact Option.Rel.some ⟨rfl, rfl, resultWithin_mapError h p o.1⟩

theorem Machine.radius_only_frames_of_stray_bracket :
    let m : Machine (Devices Buffer LineScript) := { host := { output := some {} } }
    ∃ a b, (m.withRadius 1).executeWithin 9 "+.\n]" = some a ∧
      (m.withRadius 3).executeWithin 9 "+.\n]" = some b ∧ b.2.state = a.2.state ∧
      b.2.host.calls = #[.write 1 true, .flush true] ∧ ResultWithin 1 3 a.1 b.1 := by
  intro m
  obtain ⟨-, hruns, -⟩ := radius_only_frames m "+.\n]" 1 3 (by decide)
  have hcalls : ((m.withRadius 3).executeWithin 9 "+.\n]").map (·.2.host.calls) =
    some #[.write 1 true, .flush true] := rfl
  obtain ⟨a, ha⟩ : ∃ a, (m.withRadius 1).executeWithin 9 "+.\n]" = some a := ⟨_, rfl⟩
  obtain ⟨b, hb⟩ : ∃ b, (m.withRadius 3).executeWithin 9 "+.\n]" = some b := ⟨_, rfl⟩
  have hrel := hruns 9
  rw [ha, hb] at hrel
  rw [hb] at hcalls
  cases hrel with
  | some hab => exact ⟨a, b, ha, hb, hab.1, Option.some.inj hcalls, hab.2.2⟩

end TapeLang
