import TapeLang.Host.Buffer
import TapeLang.Host.LineScript
import TapeLang.Machine.Job
import TapeLang.Proofs.Machine.Walk

/-! Jobs: keeping the expansion cannot be noticed, except by asking for it.

What is asked of a job and what it answers is a list of events (`Job.Serves`). Between two of them a
job is in one of two states (`Job.standing`), by whether its expansion was needed before. From there
every operation is the one of its machine on the expansion, and leads to such a state again, so by
induction a job answers as a machine does that executes the expansion once for every run
(`serves_standing_iff`). -/
namespace TapeLang
set_option autoImplicit false

variable {η : Type}

/-! ## Events -/

/-- Something that was asked of a job, and the answer. -/
inductive Job.Event (η : Type) where
  /-- The job was run, with a result, and left the host so. -/
  | executed (result : Except Fault Unit) (host : η)
  /-- The expansion was asked for. -/
  | expanded (code : String)
  /-- It was asked whether the expansion is known. -/
  | isExpanded (known : Bool)

namespace Job.Event

/-- The result of a run and the host after it. -/
def execution? : Event η → Option (Except Fault Unit × η)
  | executed result host => some (result, host)
  | expanded _ => none
  | isExpanded _ => none

/-- Whether the expansion was needed for the answer. -/
def needsExpansion : Event η → Bool
  | executed _ _ => true
  | expanded _ => true
  | isExpanded _ => false

end Job.Event

theorem any_needsExpansion_iff (events : List (Job.Event η)) :
    events.any Job.Event.needsExpansion = true ↔
      (∃ result host, .executed result host ∈ events) ∨ ∃ code, .expanded code ∈ events := by
  rw [List.any_eq_true]
  constructor
  · rintro ⟨e, he, hneeds⟩
    cases e with
    | executed result host => exact Or.inl ⟨result, host, he⟩
    | expanded code => exact Or.inr ⟨code, he⟩
    | isExpanded known => cases hneeds
  · rintro (⟨result, host, he⟩ | ⟨code, he⟩)
    · exact ⟨_, he, rfl⟩
    · exact ⟨_, he, rfl⟩

/-- Every answer about the expansion says whether it was needed before, where `asked` says whether it
was needed before the first event. -/
def TellsNeed (asked : Bool) (events : List (Job.Event η)) : Prop :=
  ∀ before known after, events = before ++ .isExpanded known :: after →
    known = (asked || before.any Job.Event.needsExpansion)

theorem tellsNeed_nil (asked : Bool) : TellsNeed asked ([] : List (Job.Event η)) := by
  intro before known after h
  cases before <;> cases h

theorem tellsNeed_cons_iff (asked : Bool) (e : Job.Event η) (events : List (Job.Event η)) :
    TellsNeed asked (e :: events) ↔
      (∀ known, e = .isExpanded known → known = asked) ∧
        TellsNeed (asked || e.needsExpansion) events := by
  constructor
  · intro h
    constructor
    · rintro known rfl
      have hfirst := h [] known events rfl
      rwa [List.any_nil, Bool.or_false] at hfirst
    · intro before known after he
      have hlater := h (e :: before) known after (by rw [he, List.cons_append])
      rwa [List.any_cons, ← Bool.or_assoc] at hlater
  · rintro ⟨hfirst, hlater⟩ before known after he
    cases before with
    | nil =>
      obtain ⟨rfl, rfl⟩ := List.cons.inj he
      rw [List.any_nil, Bool.or_false]
      exact hfirst known rfl
    | cons e' before =>
      obtain ⟨rfl, rfl⟩ := List.cons.inj he
      rw [List.any_cons, ← Bool.or_assoc]
      exact hlater before known after rfl

/-! ## The two states of a job -/

namespace Job

/-- A job between two events, by whether its expansion was needed before. -/
def standing (source : String) (asked : Bool) (machine : Machine η) : Job η :=
  { source, expansion := if asked then some (expand source) else none, machine }

variable (source : String) (asked : Bool) (m : Machine η)

theorem expanded_standing :
    (standing source asked m).expanded = (expand source, standing source true m) := by
  cases asked <;> rfl

theorem isExpanded_standing : (standing source asked m).isExpanded = asked := by
  cases asked <;> rfl

theorem executeWithin_standing [Host η] (fuel : Nat) :
    (standing source asked m).executeWithin fuel =
      (m.executeWithin fuel (expand source)).map fun o => (o.1, standing source true o.2) := by
  rw [executeWithin, expanded_standing]
  simp only [standing]
  cases m.executeWithin fuel (expand source) <;> rfl

end Job

/-! ## Whole sequences of events -/

variable [Host η]

/-- A job answers what is asked of it, one after the other, and every run comes to an end. -/
def Job.Serves : List (Job.Event η) → Job η → Job η → Prop
  | [], j, j' => j' = j
  | .executed result host :: events, j, j' =>
    ∃ fuel j₁, j.executeWithin fuel = some (result, j₁) ∧ j₁.machine.host = host ∧
      Serves events j₁ j'
  | .expanded code :: events, j, j' => j.expanded.1 = code ∧ Serves events j.expanded.2 j'
  | .isExpanded known :: events, j, j' => j.isExpanded = known ∧ Serves events j j'

/-- A machine executes a program again and again, and every run comes to an end with the result that
the list gives, and with the host beside it. -/
def Machine.Repeats (program : String) :
    List (Except Fault Unit × η) → Machine η → Machine η → Prop
  | [], m, m' => m' = m
  | (result, host) :: results, m, m' =>
    ∃ m₁, m.Executes program (result, m₁) ∧ m₁.host = host ∧ Repeats program results m₁ m'

/-- The answers that a job gives are those of a machine without a memory for the expansion. -/
def Job.AnswersAs (source : String) (asked : Bool) (m : Machine η) (events : List (Job.Event η))
    (m' : Machine η) : Prop :=
  m.Repeats (expand source) (events.filterMap Job.Event.execution?) m' ∧
    (∀ code, .expanded code ∈ events → code = expand source) ∧ TellsNeed asked events

namespace Job

variable {source : String} {asked : Bool} {m m' : Machine η} {events : List (Event η)}

theorem answersAs_executed_iff {result : Except Fault Unit} {host : η} :
    AnswersAs source asked m (.executed result host :: events) m' ↔
      ∃ m₁, m.Executes (expand source) (result, m₁) ∧ m₁.host = host ∧
        AnswersAs source true m₁ events m' := by
  simp only [AnswersAs, tellsNeed_cons_iff, Event.needsExpansion, Bool.or_true, List.mem_cons,
    reduceCtorEq, false_or, false_imp_iff, implies_true, true_and]
  constructor
  · rintro ⟨⟨m₁, hexec, hhost, hrest⟩, hcode, htells⟩
    exact ⟨m₁, hexec, hhost, hrest, hcode, htells⟩
  · rintro ⟨m₁, hexec, hhost, hrest, hcode, htells⟩
    exact ⟨⟨m₁, hexec, hhost, hrest⟩, hcode, htells⟩

theorem answersAs_expanded_iff {code : String} :
    AnswersAs source asked m (.expanded code :: events) m' ↔
      code = expand source ∧ AnswersAs source true m events m' := by
  simp only [AnswersAs, tellsNeed_cons_iff, Event.needsExpansion, Bool.or_true, List.mem_cons,
    Event.expanded.injEq, forall_eq_or_imp, reduceCtorEq, false_imp_iff, implies_true, true_and]
  constructor
  · rintro ⟨hrest, ⟨hcode, hcodes⟩, htells⟩
    exact ⟨hcode, hrest, hcodes, htells⟩
  · rintro ⟨hcode, hrest, hcodes, htells⟩
    exact ⟨hrest, ⟨hcode, hcodes⟩, htells⟩

theorem answersAs_isExpanded_iff {known : Bool} :
    AnswersAs source asked m (.isExpanded known :: events) m' ↔
      known = asked ∧ AnswersAs source asked m events m' := by
  simp only [AnswersAs, tellsNeed_cons_iff, Event.needsExpansion, Bool.or_false, List.mem_cons,
    Event.isExpanded.injEq, forall_eq', reduceCtorEq, false_or]
  constructor
  · rintro ⟨hrest, hcode, hknown, htells⟩
    exact ⟨hknown, hrest, hcode, htells⟩
  · rintro ⟨hknown, hrest, hcode, htells⟩
    exact ⟨hrest, hcode, hknown, htells⟩

/-- A job whose expansion was needed before, or not, answers as a machine does. -/
theorem serves_standing_iff (source : String) (asked : Bool) (m : Machine η)
    (events : List (Event η)) (j' : Job η) :
    Serves events (standing source asked m) j' ↔
      ∃ m', AnswersAs source asked m events m' ∧
        j' = standing source (asked || events.any Event.needsExpansion) m' := by
  induction events generalizing asked m with
  | nil =>
    rw [List.any_nil, Bool.or_false]
    constructor
    · rintro rfl
      exact ⟨m, ⟨rfl, fun code hcode => (by cases hcode), tellsNeed_nil asked⟩, rfl⟩
    · rintro ⟨m', ⟨hm, -, -⟩, rfl⟩
      rw [Serves, show m' = m from hm]
  | cons e events ih =>
    rw [List.any_cons]
    cases e with
    | executed result host =>
      simp only [Serves, executeWithin_standing, Option.map_eq_some_iff, answersAs_executed_iff]
      constructor
      · rintro ⟨fuel, j₁, ⟨⟨result', m₁⟩, hexec, he⟩, hhost, hrest⟩
        cases he
        obtain ⟨m', hanswers, rfl⟩ := (ih true m₁).mp hrest
        exact ⟨m', ⟨m₁, ⟨fuel, hexec⟩, hhost, hanswers⟩, by simp [Event.needsExpansion]⟩
      · rintro ⟨m', ⟨m₁, ⟨fuel, hexec⟩, hhost, hanswers⟩, rfl⟩
        refine ⟨fuel, _, ⟨(result, m₁), hexec, rfl⟩, hhost, (ih true m₁).mpr ⟨m', hanswers, ?_⟩⟩
        simp [Event.needsExpansion]
    | expanded code =>
      simp only [Serves, expanded_standing, answersAs_expanded_iff, ih, Event.needsExpansion,
        Bool.or_true, Bool.true_or]
      constructor
      · rintro ⟨rfl, m', hanswers, rfl⟩
        exact ⟨m', ⟨rfl, hanswers⟩, rfl⟩
      · rintro ⟨m', ⟨rfl, hanswers⟩, rfl⟩
        exact ⟨rfl, m', hanswers, rfl⟩
    | isExpanded known =>
      simp only [Serves, isExpanded_standing, answersAs_isExpanded_iff, ih, Event.needsExpansion,
        Bool.false_or]
      constructor
      · rintro ⟨rfl, m', hanswers, rfl⟩
        exact ⟨m', ⟨rfl, hanswers⟩, rfl⟩
      · rintro ⟨m', ⟨rfl, hanswers⟩, rfl⟩
        exact ⟨rfl, m', hanswers, rfl⟩

/-- A job answers as a machine does that executes the expansion anew for every run. A sequence of
events is what a new job gives exactly if its runs have the results of that machine, each with the
devices and the calls to them as they are there after it, every text is the expansion, and the job
says that the expansion is known exactly after a run, be it a failed one, or after the expansion was
asked for. -/
theorem serves_iff_machine_repeats {ω ι : Type} [Sink ω] [Source ι] (source : String)
    (m : Machine (Devices ω ι)) (events : List (Event (Devices ω ι))) (j' : Job (Devices ω ι)) :
    Serves events { source, machine := m } j' ↔
      m.Repeats (expand source) (events.filterMap Event.execution?) j'.machine ∧
      (∀ code, .expanded code ∈ events → code = expand source) ∧
      (∀ before known after, events = before ++ .isExpanded known :: after →
        (known = true ↔ (∃ result host, .executed result host ∈ before) ∨
          ∃ code, .expanded code ∈ before)) ∧
      j'.source = source ∧
      j'.expansion = if events.any Event.needsExpansion then some (expand source) else none := by
  have hstart : ({ source, machine := m } : Job (Devices ω ι)) = standing source false m := rfl
  have htells : TellsNeed false events ↔
      ∀ before known after, events = before ++ .isExpanded known :: after →
        (known = true ↔ (∃ result host, .executed result host ∈ before) ∨
          ∃ code, .expanded code ∈ before) := by
    simp only [TellsNeed, Bool.false_or, ← any_needsExpansion_iff, Bool.coe_iff_coe]
  rw [hstart, serves_standing_iff, ← htells, Bool.false_or]
  constructor
  · rintro ⟨m', ⟨hrepeats, hcode, hknown⟩, rfl⟩
    exact ⟨hrepeats, hcode, hknown, rfl, rfl⟩
  · rintro ⟨hrepeats, hcode, hknown, hsource, hexpansion⟩
    obtain ⟨source', expansion, m'⟩ := j'
    simp only at hsource hexpansion
    subst hsource hexpansion
    exact ⟨m', ⟨hrepeats, hcode, hknown⟩, rfl⟩

theorem serves_iff_machine_repeats_of_failed_read :
    let m : Machine (Devices Buffer LineScript) :=
      { host := { output := some {}, input := some ⟨[none, some "7"]⟩ } }
    ∃ (failed : Devices Buffer LineScript) (j' : Job (Devices Buffer LineScript)),
      Serves [.isExpanded false, .executed (.error .input) failed, .isExpanded true, .expanded ",.."]
        { source := ",.2", machine := m } j' ∧
      failed.calls = #[.flush true, .readLine false, .flush true] ∧
      m.Repeats (expand ",.2") [(.error .input, failed)] j'.machine := by
  intro m
  have hexpand : expand ",.2" = ",.." := by decide +kernel
  obtain ⟨m₁, hrun, hcalls⟩ : ∃ m₁, m.executeWithin 9 ",.." = some (.error .input, m₁) ∧
      m₁.host.calls = #[.flush true, .readLine false, .flush true] := ⟨_, rfl, rfl⟩
  have hserves : Serves [.isExpanded false, .executed (.error .input) m₁.host, .isExpanded true,
      .expanded ",.."] { source := ",.2", machine := m } (standing ",.2" true m₁) := by
    refine ⟨rfl, 9, standing ",.2" true m₁, ?_, rfl, rfl, hexpand, rfl⟩
    have hjob := executeWithin_standing ",.2" false m 9
    rw [hexpand, hrun] at hjob
    exact hjob
  exact ⟨_, _, hserves, hcalls, ((serves_iff_machine_repeats ",.2" m _ _).mp hserves).1⟩

end Job

end TapeLang
