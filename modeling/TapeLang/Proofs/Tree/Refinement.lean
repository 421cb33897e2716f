import TapeLang.Host.Buffer
import TapeLang.Host.LineScript
import TapeLang.Proofs.Machine.Walk
import TapeLang.Proofs.Tree.Block

/-! A machine that searches for brackets runs a balanced text as the nested loops that it spells.

Both directions go by induction on the grammar of the text. The loop case carries a second
induction, on the evaluation in one direction and on the number of visits in the other. What makes
it go through is that the two brackets of a loop do the same (`visit_bracket`): each goes to the body
if the current cell is not zero and past the loop if it is. So a loop that runs again may as well be
met at its closing bracket, where the machine is after the body. -/
namespace TapeLang
set_option autoImplicit false

variable {η : Type} [Host η]

namespace Program

/-- Either bracket of a loop goes to the body or past the loop, as the current cell says. -/
theorem visit_bracket {p : Program} {i j k : Nat} (hp : p.Partners i j) (hk : k = i ∨ k = j)
    (radius : Nat) (c : Config η) :
    p.visit radius k c = (.ok (if c.cell = 0 then j + 1 else i + 1), c) := by
  have hclosing := closing_of_partners hp
  have hopening := opening_of_partners hp
  obtain ⟨-, hopen, hclose⟩ := hp.bounds
  obtain rfl | rfl := hk
  · rw [visit_open hopen, hclosing]
    split <;> rfl
  · rw [visit_close hclose, hopening]
    split <;> rfl

theorem Partners.lt_length {p : Program} {i j k : Nat} (hp : p.Partners i j) (hk : k = i ∨ k = j) :
    k < p.length := by
  obtain ⟨-, hopen, hclose⟩ := hp.bounds
  obtain rfl | rfl := hk
  · exact lt_length_of_get? hopen
  · exact lt_length_of_get? hclose

/-! ## From evaluations to walks -/

theorem walk_of_eval_loop {p : Program} {radius i j e k : Nat} {body rest : Block}
    (hp : p.Partners i j)
    (hbody : ∀ (c : Config η) r c', Eval body c (r, c') →
      ∃ n, p.Walk radius n (i + 1) c (r.map fun _ => j, c'))
    (hrest : ∀ (c : Config η) r c', Eval rest c (r, c') →
      ∃ n, p.Walk radius n (j + 1) c (r.map fun _ => e, c'))
    (hk : k = i ∨ k = j) {c c' : Config η} {r : Except Fault Unit}
    (h : Eval (.loop body rest) c (r, c')) :
    ∃ n, p.Walk radius n k c (r.map fun _ => e, c') := by
  generalize ht : Block.loop body rest = tree at h
  generalize ho : (r, c') = o at h
  induction h generalizing k with
  | done _ | act _ _ _ | actFails _ => cases ht
  | @skip _ _ c _ hz hr _ =>
    cases ht
    cases ho
    have hv := visit_bracket hp hk radius c
    rw [if_pos hz] at hv
    obtain ⟨n, hw⟩ := hrest c r c' hr
    exact ⟨n + 1, Walk.next (hp.lt_length hk) hv hw⟩
  | @again _ _ c c₁ _ hz hb _ _ ih =>
    cases ht
    have hv := visit_bracket hp hk radius c
    rw [if_neg hz] at hv
    obtain ⟨n₁, hw₁⟩ := hbody c (.ok ()) c₁ hb
    obtain ⟨n₂, hw₂⟩ := ih (Or.inr rfl) rfl ho
    exact ⟨n₁ + n₂ + 1, Walk.next (hp.lt_length hk) hv (hw₁.trans hw₂)⟩
  | @bodyFails _ _ c c₁ f hz hb _ =>
    cases ht
    cases ho
    have hv := visit_bracket hp hk radius c
    rw [if_neg hz] at hv
    obtain ⟨n, hw⟩ := hbody c (.error f) c' hb
    exact ⟨n + 1, Walk.next (hp.lt_length hk) hv hw⟩

/-- An evaluation that ends is a walk over the text of the block. -/
theorem walk_of_eval {p : Program} {text : List Char} {tree : Block} (ht : Parses text tree)
    (radius i : Nat) (h : p.Holds i text) (c : Config η) (r : Except Fault Unit) (c' : Config η)
    (he : Eval tree c (r, c')) :
    ∃ n, p.Walk radius n i c (r.map fun _ => i + text.length, c') := by
  induction ht generalizing i c r c' with
  | nil =>
    cases he
    exact ⟨0, Walk.stay i c⟩
  | @comment ch text tree htok _ ih =>
    obtain ⟨n, hw⟩ := ih (i + 1) h.2 c r c' he
    rw [end_cons i ch text] at hw
    exact ⟨n + 1, Walk.next (lt_length_of_get? h.1) (visit_comment h.1 htok radius c) hw⟩
  | @act ch a text rest htok _ ih =>
    have hv := visit_action h.1 htok radius c
    cases he with
    | @act _ _ _ c₁ _ ha hr =>
      rw [ha] at hv
      obtain ⟨n, hw⟩ := ih (i + 1) h.2 c₁ r c' hr
      rw [end_cons i ch text] at hw
      exact ⟨n + 1, Walk.next (lt_length_of_get? h.1) hv hw⟩
    | actFails ha =>
      rw [ha] at hv
      exact ⟨1, Walk.fault (lt_length_of_get? h.1) hv⟩
  | @loop inner text body rest hb _ ihBody ihRest =>
    obtain ⟨-, hinner, -, htext⟩ := (p.holds_loop _ _ _).mp h
    have hrest := ihRest (i + 1 + inner.length + 1) htext
    rw [end_loop i inner text] at hrest
    exact walk_of_eval_loop (Partners.of_loop hb.balanced h) (ihBody (i + 1) hinner) hrest
      (Or.inl rfl) he

/-! ## From walks to evaluations -/

/-- A walk that leaves a block: the block's evaluation ends, and either the walk goes on behind the
text with no more visits than it had, or it ended with the fault of the evaluation. -/
def Leaves (p : Program) (radius n e : Nat) (tree : Block) (c : Config η)
    (o : Except Fault Nat × Config η) : Prop :=
  (∃ n' c', n' ≤ n ∧ Eval tree c (.ok (), c') ∧ p.Walk radius n' e c' o) ∨
    ∃ f c', o = (.error f, c') ∧ Eval tree c (.error f, c')

theorem leaves_loop {p : Program} {radius i j e n : Nat} {body rest : Block}
    {o : Except Fault Nat × Config η} (hp : p.Partners i j)
    (ho : ∀ k, o.1 = .ok k → p.length ≤ k)
    (hbody : ∀ n (c : Config η), p.Walk radius n (i + 1) c o → p.Leaves radius n j body c o)
    (hrest : ∀ n (c : Config η), p.Walk radius n (j + 1) c o → p.Leaves radius n e rest c o)
    {k : Nat} (hk : k = i ∨ k = j) {c : Config η} (h : p.Walk radius n k c o) :
    p.Leaves radius n e (.loop body rest) c o := by
  -- after the body the loop is met again at its closing bracket, with fewer visits to go
  induction n using Nat.strongRecOn generalizing k c with
  | ind n ih =>
    have hv := visit_bracket hp hk radius c
    obtain ⟨n₁, rfl, hw⟩ := h.uncons (hp.lt_length hk) ho hv
    by_cases hz : c.cell = 0
    · rw [if_pos hz] at hw
      obtain ⟨n', c', hle, he, hw'⟩ | ⟨f, c', hf, he⟩ := hrest n₁ c hw
      · exact Or.inl ⟨n', c', by omega, Eval.skip hz he, hw'⟩
      · exact Or.inr ⟨f, c', hf, Eval.skip hz he⟩
    · rw [if_neg hz] at hw
      obtain ⟨n₂, c₂, hle, he, hw₂⟩ | ⟨f, c', hf, he⟩ := hbody n₁ c hw
      · obtain ⟨n', c', hle', he', hw'⟩ | ⟨f, c', hf, he'⟩ := ih n₂ (by omega) (Or.inr rfl) hw₂
        · exact Or.inl ⟨n', c', by omega, Eval.again hz he he', hw'⟩
        · exact Or.inr ⟨f, c', hf, Eval.again hz he he'⟩
      · exact Or.inr ⟨f, c', hf, Eval.bodyFails hz he⟩

/-- A walk to the end of the program, or to a fault, leaves every block that it comes to. -/
theorem leaves_of_walk {p : Program} {text : List Char} {tree : Block} (ht : Parses text tree)
    {radius i : Nat} (h : p.Holds i text) {o : Except Fault Nat × Config η}
    (ho : ∀ k, o.1 = .ok k → p.length ≤ k) (n : Nat) (c : Config η)
    (hw : p.Walk radius n i c o) : p.Leaves radius n (i + text.length) tree c o := by
  induction ht generalizing i n c with
  | nil => exact Or.inl ⟨n, c, Nat.le_refl n, Eval.done c, hw⟩
  | @comment ch text tree htok _ ih =>
    have hv := visit_comment h.1 htok radius c
    obtain ⟨n₁, rfl, hw₁⟩ := hw.uncons (lt_length_of_get? h.1) ho hv
    have hl := ih h.2 n₁ c hw₁
    rw [end_cons i ch text] at hl
    obtain ⟨n', c', hle, he, hw'⟩ | hfail := hl
    · exact Or.inl ⟨n', c', by omega, he, hw'⟩
    · exact Or.inr hfail
  | @act ch a text rest htok _ ih =>
    have hv := visit_action h.1 htok radius c
    rcases ha : Action.perform c a with ⟨f | _, c₁⟩
    · rw [ha] at hv
      exact Or.inr ⟨f, c₁, hw.eq_of_fault (lt_length_of_get? h.1) ho hv, Eval.actFails ha⟩
    · rw [ha] at hv
      obtain ⟨n₁, rfl, hw₁⟩ := hw.uncons (lt_length_of_get? h.1) ho hv
      have hl := ih h.2 n₁ c₁ hw₁
      rw [end_cons i ch text] at hl
      obtain ⟨n', c', hle, he, hw'⟩ | ⟨f, c', hf, he⟩ := hl
      · exact Or.inl ⟨n', c', by omega, Eval.act ha he, hw'⟩
      · exact Or.inr ⟨f, c', hf, Eval.act ha he⟩
  | @loop inner text body rest hb _ ihBody ihRest =>
    obtain ⟨-, hinner, -, htext⟩ := (p.holds_loop _ _ _).mp h
    rw [← end_loop i inner text]
    exact leaves_loop (Partners.of_loop hb.balanced h) ho (ihBody hinner) (ihRest htext)
      (Or.inl rfl) hw

/-- The walk over a whole program ends as the evaluation of its block does. -/
theorem walk_iff_eval {p : Program} {tree : Block} (ht : Parses p.chars.toList tree) (radius : Nat)
    (c : Config η) (r : Except Fault Unit) (c' : Config η) :
    (∃ n, p.Walk radius n 0 c (r.map fun _ => p.length, c')) ↔ Eval tree c (r, c') := by
  have hend : 0 + p.chars.toList.length = p.length := by rw [Nat.zero_add, length_toList]
  constructor
  · rintro ⟨n, hw⟩
    obtain ⟨n', c₁, -, he, hw'⟩ | ⟨f, c₁, hf, he⟩ :=
      leaves_of_walk ht p.holds_toList (fun k => length_le_of_map) n c hw
    · rw [hend] at hw'
      obtain ⟨rfl, rfl⟩ := hw'.ok_of_end (Nat.le_refl _)
      exact he
    · obtain _ | _ := r
      · cases hf
        exact he
      · cases hf
  · intro he
    have hw := walk_of_eval ht radius 0 p.holds_toList c r c' he
    rwa [hend] at hw

end Program

/-! ## Machines -/

theorem Eval.fault_of_error {tree : Block} {c c' : Config η} {f : Fault}
    (h : Eval tree c (.error f, c')) : f = .output ∨ f = .input := by
  generalize ho : ((.error f, c') : Except Fault Unit × Config η) = o at h
  induction h with
  | done _ => cases ho
  | act _ _ ih => exact ih ho
  | actFails ha =>
    cases ho
    exact Action.fault_of_perform ha
  | skip _ _ ih => exact ih ho
  | again _ _ _ _ ih => exact ih ho
  | bodyFails _ _ ih =>
    cases ho
    exact ih rfl

namespace Machine

theorem load_stops_iff_eval (m : Machine η) {source : String} {tree : Block}
    (ht : Parses source.toList tree) (r : Except Fault Unit) (c' : Config η) :
    (∃ m', (m.load source).Stops (Step.ofResult r) m' ∧ m'.config = c') ↔
      Eval tree (Config.start m.host) (r, c') := by
  have hchars : (Program.ofString source).chars.toList = source.toList := rfl
  rw [(m.stands_load source).stops_iff_walk r c']
  exact Program.walk_iff_eval (hchars ▸ ht) m.radius (Config.start m.host) r c'

/-- A program that passes the check has one block, and a machine runs the program as the block is
evaluated: it halts with a pointer, cells and devices exactly if the evaluation ends with them, it
fails for a refused call exactly if the evaluation does, and so it stops exactly if the evaluation
ends. The devices hold the record of all calls made to them. -/
theorem stops_iff_eval {ω ι : Type} [Sink ω] [Source ι] (m : Machine (Devices ω ι)) (source : String)
    (radius : Nat) (h : (Program.ofString source).check radius = .ok ()) :
    ∃ tree, Parses source.toList tree ∧ (∀ tree', Parses source.toList tree' → tree' = tree) ∧
      (∀ (t : Int → UInt8) (q : Int) (d : Devices ω ι),
        (∃ m', (m.load source).Stops .halt m' ∧ m'.state.tape.get = t ∧ m'.state.pointer = q ∧
          m'.host = d) ↔ Eval tree (Config.start m.host) (.ok (), ⟨q, t, d⟩)) ∧
      (∀ (f : Fault) (d : Devices ω ι),
        (∃ m', (m.load source).Stops (.fail f) m' ∧ m'.host = d) ↔
          ∃ q t, Eval tree (Config.start m.host) (.error f, ⟨q, t, d⟩)) ∧
      (∀ f c, Eval tree (Config.start m.host) (.error f, c) → f = .output ∨ f = .input) ∧
      ((∃ s m', (m.load source).Stops s m') ↔ ∃ r, Eval tree (Config.start m.host) r) := by
  have hb := (Program.check_eq_ok_iff _ radius).mp h
  obtain ⟨tree, ht⟩ : ∃ tree, Parses source.toList tree := hb.parses
  have hiff := m.load_stops_iff_eval ht
  refine ⟨tree, ht, fun tree' ht' => ht'.unique ht, ?_, ?_, fun f c he => he.fault_of_error, ?_⟩
  · intro t q d
    rw [← hiff (.ok ()) ⟨q, t, d⟩]
    constructor
    · rintro ⟨m', hs, rfl, rfl, rfl⟩
      exact ⟨m', hs, rfl⟩
    · rintro ⟨m', hs, hc⟩
      cases hc
      exact ⟨m', hs, rfl, rfl, rfl⟩
  · intro f d
    constructor
    · rintro ⟨m', hs, rfl⟩
      exact ⟨_, _, (hiff (.error f) m'.config).mp ⟨m', hs, rfl⟩⟩
    · rintro ⟨q, t, he⟩
      obtain ⟨m', hs, hc⟩ := (hiff (.error f) ⟨q, t, d⟩).mpr he
      cases hc
      exact ⟨m', hs, rfl⟩
  · constructor
    · rintro ⟨s, m', hs⟩
      obtain ⟨n, r, rfl, -⟩ := (m.stands_load source).walk_of_stops hs
      exact ⟨(r, m'.config), (hiff r m'.config).mp ⟨m', hs, rfl⟩⟩
    · rintro ⟨⟨r, c⟩, he⟩
      obtain ⟨m', hs, -⟩ := (hiff r c).mpr he
      exact ⟨_, m', hs⟩

theorem stops_iff_eval_of_refused_write :
    (Program.ofString "+[[.]-]").check 3 = .ok () ∧
      ∃ tree, Parses "+[[.]-]".toList tree ∧ ∃ c : Config (Devices Buffer LineScript),
        Eval tree (Config.start { output := some { writesLeft := some 0 } }) (.error .output, c) := by
  have h : (Program.ofString "+[[.]-]").check 3 = .ok () := rfl
  let m : Machine (Devices Buffer LineScript) :=
    { host := { output := some { writesLeft := some 0 } } }
  obtain ⟨tree, ht, -, -, hfail, -⟩ := stops_iff_eval m "+[[.]-]" 3 h
  obtain ⟨q, t, he⟩ := (hfail .output _).mp
    ⟨_, Stops.more rfl (Stops.more rfl (Stops.more rfl (Stops.last rfl (by decide)))), rfl⟩
  exact ⟨h, tree, ht, _, he⟩

end Machine

end TapeLang
