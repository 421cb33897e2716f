import TapeLang.Machine.Run
import TapeLang.Proofs.Machine.Visit

/-! Whole runs seen from the program text.

* `Program.Walk`: a number of visits in a row, from a place to a place or to a fault.
* `Machine.Stops`: steps until the first that does not go on.
* `Machine.Proceeds`: a number of steps in a row that all go on.
* `stops_iff_walk`: a machine stops as the walk from its place ends.
* `Machine.Runs`, `Machine.Executes`: a run, and a run of a program that is loaded first, come to an
  end with a result; `runs_iff_stops` ties them to `Stops`. -/
namespace TapeLang
set_option autoImplicit false

variable {η : Type} [Host η]

/-! ## Walks -/

/-- From a place with a configuration, exactly so many visits lead to a place or to a fault. -/
inductive Program.Walk (p : Program) (radius : Nat) :
    Nat → Nat → Config η → Except Fault Nat × Config η → Prop
  | stay (k : Nat) (c : Config η) : Walk p radius 0 k c (.ok k, c)
  | fault {k : Nat} {c c' : Config η} {f : Fault} (hk : k < p.length)
      (hv : p.visit radius k c = (.error f, c')) : Walk p radius 1 k c (.error f, c')
  | next {n k k₁ : Nat} {c c₁ : Config η} {r : Except Fault Nat × Config η} (hk : k < p.length)
      (hv : p.visit radius k c = (.ok k₁, c₁)) (rest : Walk p radius n k₁ c₁ r) :
      Walk p radius (n + 1) k c r

namespace Program

theorem Walk.trans {p : Program} {radius m n k k₁ : Nat} {c c₁ : Config η}
    {r : Except Fault Nat × Config η} (h₁ : p.Walk radius m k c (.ok k₁, c₁))
    (h₂ : p.Walk radius n k₁ c₁ r) : p.Walk radius (m + n) k c r := by
  generalize hr : ((.ok k₁, c₁) : Except Fault Nat × Config η) = r₁ at h₁
  induction h₁ with
  | stay k c =>
    cases hr
    rwa [Nat.zero_add]
  | fault hk hv => cases hr
  | next hk hv _ ih =>
    have e : ∀ m, m + 1 + n = m + n + 1 := by omega
    rw [e]
    exact Walk.next hk hv (ih hr)

theorem Walk.single {p : Program} {radius k k₁ : Nat} {c c₁ : Config η} (hk : k < p.length)
    (hv : p.visit radius k c = (.ok k₁, c₁)) : p.Walk radius 1 k c (.ok k₁, c₁) :=
  Walk.next hk hv (Walk.stay k₁ c₁)

theorem Walk.uncons {p : Program} {radius n k k₁ : Nat} {c c₁ : Config η}
    {r : Except Fault Nat × Config η} (h : p.Walk radius n k c r) (hk : k < p.length)
    (hr : ∀ j, r.1 = .ok j → p.length ≤ j) (hv : p.visit radius k c = (.ok k₁, c₁)) :
    ∃ n', n = n' + 1 ∧ p.Walk radius n' k₁ c₁ r := by
  cases h with
  | stay k c =>
    have := hr k rfl
    omega
  | fault _ hv' =>
    rw [hv] at hv'
    cases hv'
  | next _ hv' rest =>
    rw [hv] at hv'
    cases hv'
    exact ⟨_, rfl, rest⟩

theorem Walk.eq_of_fault {p : Program} {radius n k : Nat} {c c₁ : Config η} {f : Fault}
    {r : Except Fault Nat × Config η} (h : p.Walk radius n k c r) (hk : k < p.length)
    (hr : ∀ j, r.1 = .ok j → p.length ≤ j) (hv : p.visit radius k c = (.error f, c₁)) :
    r = (.error f, c₁) := by
  cases h with
  | stay k c =>
    have := hr k rfl
    omega
  | fault _ hv' =>
    rw [hv] at hv'
    exact hv'.symm ▸ rfl
  | next _ hv' _ =>
    rw [hv] at hv'
    cases hv'

theorem Walk.eq_of_end {p : Program} {radius n k : Nat} {c : Config η}
    {r : Except Fault Nat × Config η} (h : p.Walk radius n k c r) (hk : p.length ≤ k) :
    r = (.ok k, c) := by
  cases h with
  | stay k c => rfl
  | fault hlt _ => omega
  | next hlt _ _ => omega

theorem length_le_of_map {p : Program} {r : Except Fault Unit} {k : Nat}
    (h : (r.map fun _ => p.length) = .ok k) : p.length ≤ k := by
  obtain _ | _ := r <;> cases h
  exact Nat.le_refl _

theorem Walk.ok_of_end {p : Program} {radius n k : Nat} {c c' : Config η} {r : Except Fault Unit}
    (h : p.Walk radius n k c (r.map fun _ => p.length, c')) (hk : p.length ≤ k) :
    r = .ok () ∧ c' = c := by
  have he := h.eq_of_end hk
  obtain _ | _ := r <;> cases he
  exact ⟨rfl, rfl⟩

theorem Walk.error_of_fault {p : Program} {radius n k : Nat} {c c' c₁ : Config η}
    {r : Except Fault Unit} {f : Fault} (h : p.Walk radius n k c (r.map fun _ => p.length, c'))
    (hk : k < p.length) (hv : p.visit radius k c = (.error f, c₁)) : r = .error f ∧ c' = c₁ := by
  have he := h.eq_of_fault hk (fun j => length_le_of_map) hv
  obtain _ | _ := r <;> cases he
  exact ⟨rfl, rfl⟩

end Program

/-- The step with which a run ends that has a given result. -/
def Step.ofResult : Except Fault Unit → Step
  | .ok () => .halt
  | .error fault => .fail fault

theorem Step.ofResult_ne_next (r : Except Fault Unit) : Step.ofResult r ≠ .next := by
  obtain _ | _ := r <;> exact fun h => by cases h

theorem Step.ofResult_injective {r r' : Except Fault Unit}
    (h : Step.ofResult r = Step.ofResult r') : r = r' := by
  obtain _ | _ := r <;> rcases r' with _ | _ <;> cases h <;> rfl

namespace Machine

/-! ## Steps until the program stops -/

/-- Steps are taken until the first that does not go on, which is the given one. -/
inductive Stops : Machine η → Step → Machine η → Prop
  | last {m m' : Machine η} {s : Step} (h : m.step = (s, m')) (hs : s ≠ .next) : Stops m s m'
  | more {m m₁ m' : Machine η} {s : Step} (h : m.step = (.next, m₁)) (rest : Stops m₁ s m') :
      Stops m s m'

/-- Exactly so many steps that go on lead from one machine to another. -/
inductive Proceeds : Nat → Machine η → Machine η → Prop
  | stay (m : Machine η) : Proceeds 0 m m
  | more {n : Nat} {m m₁ m' : Machine η} (h : m.step = (.next, m₁)) (rest : Proceeds n m₁ m') :
      Proceeds (n + 1) m m'

theorem Proceeds.snoc {n : Nat} {m x m' : Machine η} (h : m.Proceeds n x)
    (hs : x.step = (.next, m')) : m.Proceeds (n + 1) m' := by
  induction h with
  | stay m => exact Proceeds.more hs (Proceeds.stay m')
  | more h _ ih => exact Proceeds.more h (ih hs)

theorem Stops.proceeds {m m' : Machine η} {s : Step} (h : m.Stops s m') :
    ∃ n x, m.Proceeds n x ∧ x.step = (s, m') := by
  induction h with
  | last h _ => exact ⟨0, _, Proceeds.stay _, h⟩
  | more h _ ih =>
    obtain ⟨n, x, hx, hs⟩ := ih
    exact ⟨n + 1, x, Proceeds.more h hx, hs⟩

theorem Stands.walk_of_stops {m m' : Machine η} {p : Program} {radius k : Nat} {c : Config η}
    {s : Step} (h : m.Stands p radius k c) (hs : m.Stops s m') :
    ∃ n r, s = Step.ofResult r ∧ p.Walk radius n k c (r.map fun _ => p.length, m'.config) := by
  induction hs generalizing k c with
  | @last m m' s hstep hne =>
    by_cases hk : k < p.length
    · obtain ⟨m₁, k', c', hm, hle, hs, hv⟩ | ⟨m₁, fault, c', hm, -, hs, hv⟩ := h.step_cases hk
      · rw [hm] at hstep
        by_cases hk' : k' < p.length
        · rw [if_pos hk'] at hstep
          cases hstep
          exact absurd rfl hne
        · rw [if_neg hk'] at hstep
          cases hstep
          obtain rfl : k' = p.length := by omega
          rw [hs.config]
          exact ⟨1, .ok (), rfl, Program.Walk.single hk hv⟩
      · rw [hm] at hstep
        cases hstep
        rw [hs.config]
        exact ⟨1, .error fault, rfl, Program.Walk.fault hk hv⟩
    · obtain ⟨m₁, hm, hs⟩ := h.step_end (Nat.le_of_not_lt hk)
      rw [hm] at hstep
      cases hstep
      have hend : k = p.length := Nat.le_antisymm h.index_le (Nat.le_of_not_lt hk)
      rw [hs.config, hend]
      exact ⟨0, .ok (), rfl, Program.Walk.stay _ c⟩
  | @more m m₁ m' s hstep _ ih =>
    by_cases hk : k < p.length
    · obtain ⟨m₂, k', c', hm, -, hs, hv⟩ | ⟨m₂, fault, c', hm, -, -, -⟩ := h.step_cases hk
      · rw [hm] at hstep
        obtain rfl := (Prod.mk.inj hstep).2
        obtain ⟨n, r, hr, hw⟩ := ih hs
        exact ⟨n + 1, r, hr, Program.Walk.next hk hv hw⟩
      · rw [hm] at hstep
        cases hstep
    · obtain ⟨m₂, hm, -⟩ := h.step_end (Nat.le_of_not_lt hk)
      rw [hm] at hstep
      cases hstep

theorem Stands.stops_of_walk {m : Machine η} {p : Program} {radius n k : Nat} {c c' : Config η}
    {r : Except Fault Unit} (h : m.Stands p radius k c)
    (hw : p.Walk radius n k c (r.map fun _ => p.length, c')) :
    ∃ m', m.Stops (Step.ofResult r) m' ∧ m'.config = c' := by
  generalize ho : (r.map (fun _ => p.length), c') = o at hw
  induction hw generalizing m with
  | stay k c =>
    cases r with
    | error fault => cases ho
    | ok u =>
      cases ho
      obtain ⟨m', hm, hs⟩ := h.step_end (Nat.le_refl _)
      exact ⟨m', Stops.last hm (Step.ofResult_ne_next _), hs.config⟩
  | fault hk hv =>
    cases r with
    | ok u => cases ho
    | error fault =>
      cases ho
      obtain ⟨m', hm, hs⟩ := h.step_error hk hv
      exact ⟨m', Stops.last hm (Step.ofResult_ne_next _), hs.config⟩
  | @next n k k₁ c c₁ o hk hv rest ih =>
    obtain ⟨m₁, hm, hs⟩ := h.step_ok hk hv
    by_cases hk₁ : k₁ < p.length
    · rw [if_pos hk₁] at hm
      obtain ⟨m', hstop, hc⟩ := ih hs ho
      exact ⟨m', Stops.more hm hstop, hc⟩
    · rw [if_neg hk₁] at hm
      rw [← ho] at rest
      obtain ⟨rfl, rfl⟩ := rest.ok_of_end (Nat.le_of_not_lt hk₁)
      exact ⟨m₁, Stops.last hm (Step.ofResult_ne_next _), hs.config⟩

theorem Stands.stops_iff_walk {m : Machine η} {p : Program} {radius k : Nat} {c : Config η}
    (h : m.Stands p radius k c) (r : Except Fault Unit) (c' : Config η) :
    (∃ m', m.Stops (Step.ofResult r) m' ∧ m'.config = c') ↔
      ∃ n, p.Walk radius n k c (r.map fun _ => p.length, c') := by
  constructor
  · rintro ⟨m', hs, rfl⟩
    obtain ⟨n, r', hr, hw⟩ := h.walk_of_stops hs
    obtain rfl := Step.ofResult_injective hr
    exact ⟨n, hw⟩
  · rintro ⟨n, hw⟩
    exact h.stops_of_walk hw

/-! ## Runs -/

/-- A run of the loaded program comes to an end, with a result and the machine after it. -/
def Runs (m : Machine η) (r : Except Fault Unit × Machine η) : Prop :=
  ∃ fuel, m.runWithin fuel = some r

/-- A program that is loaded and run comes to an end, with a result and the machine after it. -/
def Executes (m : Machine η) (source : String) (r : Except Fault Unit × Machine η) : Prop :=
  ∃ fuel, m.executeWithin fuel source = some r

theorem Runs.unique {m : Machine η} {r r' : Except Fault Unit × Machine η} (h : m.Runs r)
    (h' : m.Runs r') : r = r' := by
  obtain ⟨fuel, hf⟩ := h
  obtain ⟨fuel', hf'⟩ := h'
  have h₁ := runWithin_add fuel fuel' m r hf
  have h₂ := runWithin_add fuel' fuel m r' hf'
  rw [Nat.add_comm, h₁] at h₂
  exact Option.some.inj h₂

def conclude (m : Machine η) : Except Fault Unit → Except Fault Unit × Machine η
  | .ok () => m.finish
  | .error fault => m.abandon fault

theorem runs_iff_of_next {m m₁ : Machine η} (h : m.step = (.next, m₁))
    (r : Except Fault Unit × Machine η) : m.Runs r ↔ m₁.Runs r := by
  constructor
  · rintro ⟨fuel, hf⟩
    cases fuel with
    | zero => cases hf
    | succ fuel =>
      simp only [runWithin, h] at hf
      exact ⟨fuel, hf⟩
  · rintro ⟨fuel, hf⟩
    refine ⟨fuel + 1, ?_⟩
    simp only [runWithin, h, hf]

theorem runs_iff_of_ofResult {m m₁ : Machine η} (result : Except Fault Unit)
    (h : m.step = (Step.ofResult result, m₁)) (r : Except Fault Unit × Machine η) :
    m.Runs r ↔ r = m₁.conclude result := by
  have hrun : ∀ fuel, m.runWithin (fuel + 1) = some (m₁.conclude result) := by
    intro fuel
    obtain _ | _ := result <;> simp only [runWithin, h, Step.ofResult, conclude]
  constructor
  · rintro ⟨fuel, hf⟩
    cases fuel with
    | zero => cases hf
    | succ fuel =>
      rw [hrun] at hf
      exact (Option.some.inj hf).symm
  · rintro rfl
    exact ⟨1, hrun 0⟩

theorem runs_iff_stops (m : Machine η) (r : Except Fault Unit × Machine η) :
    m.Runs r ↔ ∃ result m', m.Stops (Step.ofResult result) m' ∧ r = m'.conclude result := by
  constructor
  · rintro ⟨fuel, hf⟩
    induction fuel generalizing m with
    | zero => cases hf
    | succ fuel ih =>
      rcases hs : m.step with ⟨_ | _ | fault, m₁⟩
      · simp only [runWithin, hs] at hf
        obtain ⟨result, m', hstop, hr⟩ := ih m₁ hf
        exact ⟨result, m', Stops.more hs hstop, hr⟩
      · have hr := (runs_iff_of_ofResult (.ok ()) hs r).mp ⟨fuel + 1, hf⟩
        exact ⟨.ok (), m₁, Stops.last hs (Step.ofResult_ne_next _), hr⟩
      · have hr := (runs_iff_of_ofResult (.error fault) hs r).mp ⟨fuel + 1, hf⟩
        exact ⟨.error fault, m₁, Stops.last hs (Step.ofResult_ne_next _), hr⟩
  · rintro ⟨result, m', hstop, rfl⟩
    generalize ho : Step.ofResult result = s at hstop
    induction hstop with
    | last h _ =>
      subst ho
      exact (runs_iff_of_ofResult result h _).mpr rfl
    | more h _ ih => exact (runs_iff_of_next h _).mpr (ih ho)

/-- What the end of a run gives back, and what it does to the host: the host flushes, which matters
for the result only if nothing went wrong before. -/
def settle (host : η) : Except Fault Unit → Except Fault Unit × η
  | .ok () => (if (Host.flush host).1 then .ok () else .error .output, (Host.flush host).2)
  | .error fault => (.error fault, (Host.flush host).2)

theorem settle_host (host : η) (r : Except Fault Unit) : (settle host r).2 = (Host.flush host).2 := by
  obtain _ | _ := r <;> rfl

theorem conclude_settle (m : Machine η) (r : Except Fault Unit) :
    ((m.conclude r).1, (m.conclude r).2.host) = settle m.host r := by
  obtain fault | _ := r
  · simp only [conclude, abandon, flush_eq, settle]
  · simp only [conclude, finish, flush_eq, settle]
    cases (Host.flush m.host).1 <;> rfl

theorem conclude_of_error {m m' : Machine η} {r : Except Fault Unit} {fault : Fault}
    (h : m.conclude r = (.error fault, m')) : m' = ⟨m.state, (Host.flush m.host).2, m.radius⟩ := by
  obtain fault' | _ := r
  · simp only [conclude, abandon, flush_eq] at h
    exact (Prod.mk.inj h).2.symm
  · simp only [conclude, finish, flush_eq] at h
    cases hf : (Host.flush m.host).1 <;> rw [hf] at h <;> cases h
    rfl

/-- A run gives what the end of the walk from its place gives. -/
theorem Stands.runs_iff_walk {m : Machine η} {p : Program} {radius k : Nat} {c : Config η}
    (h : m.Stands p radius k c) (r : Except Fault Unit) (host : η) :
    (∃ m', m.Runs (r, m') ∧ m'.host = host) ↔
      ∃ n result c', p.Walk radius n k c (result.map fun _ => p.length, c') ∧
        settle c'.host result = (r, host) := by
  constructor
  · rintro ⟨m', hr, rfl⟩
    obtain ⟨result, m₁, hs, hc⟩ := (m.runs_iff_stops _).mp hr
    obtain ⟨n, hw⟩ := (h.stops_iff_walk result m₁.config).mp ⟨m₁, hs, rfl⟩
    refine ⟨n, result, m₁.config, hw, ?_⟩
    have hset := m₁.conclude_settle result
    rw [← hc] at hset
    exact hset.symm
  · rintro ⟨n, result, c', hw, hset⟩
    obtain ⟨m₁, hs, rfl⟩ := (h.stops_iff_walk result c').mpr ⟨n, hw⟩
    have hc := (m₁.conclude_settle result).trans hset
    obtain ⟨rfl, hhost⟩ := Prod.mk.inj hc
    exact ⟨_, (m.runs_iff_stops _).mpr ⟨result, m₁, hs, rfl⟩, hhost⟩

end Machine

end TapeLang
