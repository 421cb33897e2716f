import TapeLang.Machine.Step

/-! Runs: steps repeated until the program ends or fails. A program may run for ever, so a run is
given a bound on its steps, and has no result if the bound is reached first. -/
namespace TapeLang.Machine
set_option autoImplicit false

variable {η : Type} [Host η]

/-- Takes up to `limit` further steps after `taken` ones, and stops after the first that does not go
on. -/
@[specialize] def stepFrom : (taken limit : Nat) → Machine η → (Step × Nat) × Machine η
  | taken, 0, m => ((.next, taken), m)
  | taken, limit + 1, m =>
    match m.step with
    | (.next, m) => stepFrom (taken + 1) limit m
    | (step, m) => ((step, taken + 1), m)

/-- Takes up to `limit` steps and stops after the first that does not go on. The result has the last
step and the number of steps taken, which are `next` and zero if the limit is zero. -/
@[specialize] def stepFor (limit : Nat) (m : Machine η) : (Step × Nat) × Machine η :=
  stepFrom 0 limit m

/-- The steps that `stepFor` takes, each with the state after it. -/
@[specialize] def trace : Nat → Machine η → List (Step × State)
  | 0, _ => []
  | limit + 1, m =>
    match m.step with
    | (.next, m) => (.next, m.state) :: trace limit m
    | (step, m) => [(step, m.state)]

/-- Ends a run of a program that has halted: the output is flushed, and if that succeeds the machine
is reset. -/
def finish (m : Machine η) : Except Fault Unit × Machine η :=
  match m.flush with
  | (.ok (), m) => (.ok (), m.reset)
  | (.error fault, m) => (.error fault, m)

/-- Ends a run that failed: the output is flushed, and the fault stays the result whether or not
that succeeds. The machine is left where it failed. -/
def abandon (m : Machine η) (fault : Fault) : Except Fault Unit × Machine η :=
  (.error fault, m.flush.2)

/-- Runs the loaded program from where it stands. There is no result if `fuel` steps do not
suffice. -/
@[specialize] def runWithin : (fuel : Nat) → Machine η → Option (Except Fault Unit × Machine η)
  | 0, _ => none
  | fuel + 1, m =>
    match m.step with
    | (.next, m) => runWithin fuel m
    | (.halt, m) => some m.finish
    | (.fail fault, m) => some (m.abandon fault)

/-- More fuel does not change the result of a run that ended. -/
theorem runWithin_add (fuel more : Nat) (m : Machine η) (r : Except Fault Unit × Machine η)
    (h : m.runWithin fuel = some r) : m.runWithin (fuel + more) = some r := by
  induction fuel generalizing m with
  | zero => cases h
  | succ fuel ih =>
    rw [Nat.succ_add]
    rw [runWithin] at h ⊢
    rcases hs : m.step with ⟨step, m'⟩
    rw [hs] at h
    cases step with
    | next => exact ih m' h
    | halt => exact h
    | fail fault => exact h

/-- Loads a program and runs it. -/
@[specialize] def executeWithin (fuel : Nat) (m : Machine η) (source : String) :
    Option (Except Fault Unit × Machine η) :=
  (m.load source).runWithin fuel

end TapeLang.Machine
