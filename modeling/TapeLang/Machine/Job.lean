import TapeLang.Machine.Run
import TapeLang.Shorthand

/-! Jobs: a shorthand source with the machine that runs it. The source is expanded when it is first
needed, and the expansion is kept. -/
namespace TapeLang
set_option autoImplicit false

/-- A shorthand source, its expansion once it is known, and a machine. -/
structure Job (η : Type) where
  /-- The shorthand source. -/
  source : String
  /-- The expansion, if it was needed already. -/
  expansion : Option String := none
  /-- The machine that runs the expansion. -/
  machine : Machine η

namespace Job

variable {η : Type}

/-- Whether the expansion is known already. -/
def isExpanded (j : Job η) : Bool :=
  j.expansion.isSome

/-- The expansion, and the job that remembers it. -/
def expanded (j : Job η) : String × Job η :=
  match j.expansion with
  | some code => (code, j)
  | none =>
    let code := expand j.source
    (code, { j with expansion := some code })

/-- Runs the expansion from a clean start. -/
def executeWithin [Host η] (fuel : Nat) (j : Job η) : Option (Except Fault Unit × Job η) :=
  let (code, j) := j.expanded
  match j.machine.executeWithin fuel code with
  | some (result, machine) => some (result, { j with machine })
  | none => none

end Job

end TapeLang
