import TapeLang.Proofs.Machine.Operations

/-! The calls that a run makes to its devices.

While a program runs, its devices are called in two ways: a byte is written, or the output is
flushed and a line is read (`Traffic`). An instruction that fails has made the calls that a
`Refusal` lists, and the end of the run adds one flush, so that every run that ends has `Traffic` and
an `Ending` that goes with its result. -/
namespace TapeLang
set_option autoImplicit false

/-! ## The grammar of calls -/

/-- The calls of instructions that succeed. -/
inductive Traffic : List Call → Prop
  | nil : Traffic []
  | write (byte : UInt8) {calls : List Call} (rest : Traffic calls) :
      Traffic (.write byte true :: calls)
  | read {calls : List Call} (rest : Traffic calls) :
      Traffic (.flush true :: .readLine true :: calls)

/-- The calls of an instruction that fails. -/
inductive Refusal : Fault → List Call → Prop
  | write (byte : UInt8) : Refusal .output [.write byte false]
  | flush : Refusal .output [.flush false]
  | readLine : Refusal .input [.flush true, .readLine false]
  | bracket (bracket : Bracket) (position : Position) (excerpt : Excerpt) :
      Refusal (.unmatched bracket position excerpt) []

/-- The last calls of a run, by its result. -/
inductive Ending : Except Fault Unit → List Call → Prop
  | finished : Ending (.ok ()) [.flush true]
  | unfinished : Ending (.error .output) [.flush false]
  | write (byte : UInt8) (flushed : Bool) :
      Ending (.error .output) [.write byte false, .flush flushed]
  | flush (flushed : Bool) : Ending (.error .output) [.flush false, .flush flushed]
  | readLine (flushed : Bool) :
      Ending (.error .input) [.flush true, .readLine false, .flush flushed]
  | bracket (bracket : Bracket) (position : Position) (excerpt : Excerpt) (flushed : Bool) :
      Ending (.error (.unmatched bracket position excerpt)) [.flush flushed]

/-- The calls of a part of a run, by its outcome. -/
def Exchange {α : Type} : Except Fault α → List Call → Prop
  | .ok _, calls => Traffic calls
  | .error fault, calls =>
    ∃ traffic last, calls = traffic ++ last ∧ Traffic traffic ∧ Refusal fault last

theorem Traffic.append {a b : List Call} (ha : Traffic a) (hb : Traffic b) : Traffic (a ++ b) := by
  induction ha with
  | nil => exact hb
  | write byte _ ih => exact Traffic.write byte ih
  | read _ ih => exact Traffic.read ih

theorem Refusal.exchange {α : Type} {fault : Fault} {calls : List Call} (h : Refusal fault calls) :
    Exchange (.error fault : Except Fault α) calls :=
  ⟨[], calls, rfl, Traffic.nil, h⟩

theorem Refusal.ending {fault : Fault} {calls : List Call} (h : Refusal fault calls)
    (flushed : Bool) : Ending (.error fault) (calls ++ [.flush flushed]) := by
  cases h with
  | write byte => exact Ending.write byte flushed
  | flush => exact Ending.flush flushed
  | readLine => exact Ending.readLine flushed
  | bracket bracket position excerpt => exact Ending.bracket bracket position excerpt flushed

theorem exchange_map {α β : Type} {r : Except Fault α} (f : α → β) {calls : List Call}
    (h : Exchange r calls) : Exchange (r.map f) calls := by
  obtain _ | _ := r <;> exact h

theorem Exchange.prepend {α : Type} {r : Except Fault α} {a b : List Call} (ha : Traffic a)
    (hb : Exchange r b) : Exchange r (a ++ b) := by
  obtain fault | _ := r
  · obtain ⟨traffic, last, rfl, ht, hl⟩ := hb
    exact ⟨a ++ traffic, last, (List.append_assoc _ _ _).symm, ha.append ht, hl⟩
  · exact ha.append hb

/-! ## What the grammar says about reads, flushes and results -/

/-- Every read comes directly after a successful flush. -/
def ReadsFlushed (calls : List Call) : Prop :=
  ∀ before succeeded after, calls = before ++ .readLine succeeded :: after →
    ∃ earlier, before = earlier ++ [.flush true]

theorem readsFlushed_nil : ReadsFlushed [] := by
  intro before succeeded after h
  cases before <;> cases h

theorem ReadsFlushed.cons {call : Call} {calls : List Call} (hc : ∀ s, call ≠ .readLine s)
    (h : ReadsFlushed calls) : ReadsFlushed (call :: calls) := by
  intro before succeeded after he
  cases before with
  | nil =>
    cases he
    exact absurd rfl (hc succeeded)
  | cons first before =>
    rw [List.cons_append, List.cons.injEq] at he
    obtain ⟨rfl, hrest⟩ := he
    obtain ⟨earlier, rfl⟩ := h before succeeded after hrest
    exact ⟨call :: earlier, rfl⟩

theorem ReadsFlushed.read (s : Bool) {calls : List Call} (h : ReadsFlushed calls) :
    ReadsFlushed (.flush true :: .readLine s :: calls) := by
  intro before succeeded after he
  cases before with
  | nil => cases he
  | cons first before =>
    rw [List.cons_append, List.cons.injEq] at he
    obtain ⟨rfl, hrest⟩ := he
    cases before with
    | nil => exact ⟨[], rfl⟩
    | cons second before =>
      rw [List.cons_append, List.cons.injEq] at hrest
      obtain ⟨rfl, hcalls⟩ := hrest
      obtain ⟨earlier, rfl⟩ := h before succeeded after hcalls
      exact ⟨.flush true :: .readLine s :: earlier, rfl⟩

theorem Traffic.readsFlushed {traffic calls : List Call} (ht : Traffic traffic)
    (h : ReadsFlushed calls) : ReadsFlushed (traffic ++ calls) := by
  induction ht with
  | nil => exact h
  | write byte _ ih => exact ih.cons fun s he => by cases he
  | read _ ih => exact ih.read true

theorem Ending.readsFlushed {r : Except Fault Unit} {calls : List Call} (h : Ending r calls) :
    ReadsFlushed calls := by
  have hflush : ∀ flushed, ReadsFlushed [.flush flushed] := by
    intro flushed
    exact readsFlushed_nil.cons fun s he => by cases he
  cases h with
  | finished => exact hflush true
  | unfinished => exact hflush false
  | write byte flushed => exact (hflush flushed).cons fun s he => by cases he
  | flush flushed => exact (hflush flushed).cons fun s he => by cases he
  | readLine flushed => exact (hflush flushed).read false
  | bracket _ _ _ flushed => exact hflush flushed

theorem Ending.last {r : Except Fault Unit} {calls : List Call} (h : Ending r calls) :
    ∃ before flushed, calls = before ++ [.flush flushed] := by
  cases h with
  | finished => exact ⟨[], true, rfl⟩
  | unfinished => exact ⟨[], false, rfl⟩
  | write byte flushed => exact ⟨[.write byte false], flushed, rfl⟩
  | flush flushed => exact ⟨[.flush false], flushed, rfl⟩
  | readLine flushed => exact ⟨[.flush true, .readLine false], flushed, rfl⟩
  | bracket _ _ _ flushed => exact ⟨[], flushed, rfl⟩

/-- The bytes that the output has taken since it was last flushed. -/
def unflushed (calls : List Call) : List UInt8 :=
  calls.foldl (fun bytes call =>
    match call with
    | .write byte true => bytes ++ [byte]
    | .flush true => []
    | _ => bytes) []

theorem unflushed_flush (calls : List Call) : unflushed (calls ++ [.flush true]) = [] := by
  rw [unflushed, List.foldl_append]
  rfl

/-- What the first refused call says about the result of a run. -/
def verdict : List Call → Except Fault Unit
  | [] => .ok ()
  | .write _ false :: _ => .error .output
  | .flush false :: _ => .error .output
  | .readLine false :: _ => .error .input
  | _ :: calls => verdict calls

theorem Traffic.verdict_append {traffic : List Call} (ht : Traffic traffic) (calls : List Call) :
    verdict (traffic ++ calls) = verdict calls := by
  induction ht with
  | nil => rfl
  | write byte _ ih => exact ih
  | read _ ih => exact ih

theorem Ending.verdict_eq {r : Except Fault Unit} {calls : List Call} (h : Ending r calls) :
    (∃ bracket position excerpt, r = .error (.unmatched bracket position excerpt)) ∨
      r = verdict calls := by
  cases h with
  | bracket bracket position excerpt _ => exact Or.inl ⟨bracket, position, excerpt, rfl⟩
  | finished | unfinished | write | flush | readLine => exact Or.inr rfl

/-! ## Devices and the calls made to them -/

variable {ω ι : Type}

/-- There is a device for output and one for input. -/
def Devices.Attached (d : Devices ω ι) : Prop :=
  d.output.isSome = true ∧ d.input.isSome = true

/-- The calls lead from some devices to others, which are attached. -/
structure Devices.Made (d : Devices ω ι) (calls : List Call) (d' : Devices ω ι) : Prop where
  attached : d'.Attached
  calls_eq : d'.calls.toList = d.calls.toList ++ calls

namespace Devices

variable {d d₁ d₂ : Devices ω ι}

theorem Attached.made_nil (h : d.Attached) : d.Made [] d :=
  ⟨h, (List.append_nil _).symm⟩

theorem Made.trans {a b : List Call} (h₁ : d.Made a d₁) (h₂ : d₁.Made b d₂) :
    d.Made (a ++ b) d₂ := by
  refine ⟨h₂.attached, ?_⟩
  rw [h₂.calls_eq, h₁.calls_eq, List.append_assoc]

variable [Sink ω] [Source ι]

theorem Attached.made_write (h : d.Attached) (byte : UInt8) :
    d.Made [.write byte (Host.write d byte).1] (Host.write d byte).2 := by
  obtain ⟨output, input, calls⟩ := d
  obtain ⟨hout, hin⟩ := h
  obtain ⟨o, rfl⟩ := Option.isSome_iff_exists.mp hout
  exact ⟨⟨rfl, hin⟩, Array.toList_push⟩

theorem Attached.made_flush (h : d.Attached) :
    d.Made [.flush (Host.flush d).1] (Host.flush d).2 := by
  obtain ⟨output, input, calls⟩ := d
  obtain ⟨hout, hin⟩ := h
  obtain ⟨o, rfl⟩ := Option.isSome_iff_exists.mp hout
  exact ⟨⟨rfl, hin⟩, Array.toList_push⟩

theorem Attached.made_readLine (h : d.Attached) :
    d.Made [.readLine (Host.readLine d).1.isSome] (Host.readLine d).2 := by
  obtain ⟨output, input, calls⟩ := d
  obtain ⟨hout, hin⟩ := h
  obtain ⟨i, rfl⟩ := Option.isSome_iff_exists.mp hin
  exact ⟨⟨hout, rfl⟩, Array.toList_push⟩

end Devices

/-! ## From one instruction to a whole run -/

variable [Sink ω] [Source ι]

theorem Action.exchange_perform {c : Config (Devices ω ι)} (h : c.host.Attached) (a : Action) :
    ∃ calls, c.host.Made calls (Action.perform c a).2.host ∧
      Exchange (Action.perform c a).1 calls := by
  cases a with
  | right | left | increment | decrement => exact ⟨[], h.made_nil, Traffic.nil⟩
  | write =>
    have hw := h.made_write c.cell
    simp only [Action.perform]
    generalize Host.write c.host c.cell = called at hw ⊢
    obtain ⟨_ | _, host⟩ := called
    · exact ⟨_, hw, (Refusal.write c.cell).exchange⟩
    · exact ⟨_, hw, Traffic.write c.cell Traffic.nil⟩
  | read =>
    have hf := h.made_flush
    simp only [Action.perform]
    generalize Host.flush c.host = flushed at hf ⊢
    obtain ⟨_ | _, host⟩ := flushed
    · exact ⟨_, hf, Refusal.flush.exchange⟩
    · have hr := hf.attached.made_readLine
      simp only at hr ⊢
      generalize Host.readLine host = called at hr ⊢
      obtain ⟨_ | line, host'⟩ := called
      · exact ⟨_, hf.trans hr, Refusal.readLine.exchange⟩
      · exact ⟨_, hf.trans hr, Traffic.read Traffic.nil⟩

namespace Program

theorem exchange_leap {p : Program} {k : Nat} (hc : p.get? k = some '[' ∨ p.get? k = some ']')
    (radius : Nat) (partner : Except Edge Nat) : Exchange (p.leap radius k partner) [] := by
  cases partner with
  | ok j => exact Traffic.nil
  | error edge =>
    obtain ⟨bracket, excerpt, hf⟩ := unmatchedFault_of_bracket radius hc
    rw [leap, hf]
    exact (Refusal.bracket bracket (p.position k) excerpt).exchange

theorem exchange_visit {p : Program} {k : Nat} (hk : k < p.length) (radius : Nat)
    {c : Config (Devices ω ι)} (h : c.host.Attached) :
    ∃ calls, c.host.Made calls (p.visit radius k c).2.host ∧
      Exchange (p.visit radius k c).1 calls := by
  obtain ⟨ch, hc⟩ := exists_get? hk
  cases ht : Token.ofChar ch with
  | comment =>
    rw [visit_comment hc ht]
    exact ⟨[], h.made_nil, Traffic.nil⟩
  | action a =>
    rw [visit_action hc ht]
    obtain ⟨calls, hm, he⟩ := Action.exchange_perform h a
    exact ⟨calls, hm, exchange_map _ he⟩
  | bracket b =>
    refine ⟨[], ?_⟩
    cases b with
    | opening =>
      obtain rfl := Token.eq_open_of_ofChar ht
      rw [visit_open hc]
      refine ⟨h.made_nil, ?_⟩
      split
      · exact exchange_leap (Or.inl hc) radius _
      · exact Traffic.nil
    | closing =>
      obtain rfl := Token.eq_close_of_ofChar ht
      rw [visit_close hc]
      refine ⟨h.made_nil, ?_⟩
      split
      · exact Traffic.nil
      · exact exchange_leap (Or.inr hc) radius _

theorem Walk.exchange {p : Program} {radius n k : Nat} {c : Config (Devices ω ι)}
    {r : Except Fault Nat × Config (Devices ω ι)} (hw : p.Walk radius n k c r)
    (h : c.host.Attached) : ∃ calls, c.host.Made calls r.2.host ∧ Exchange r.1 calls := by
  induction hw with
  | stay k c => exact ⟨[], h.made_nil, Traffic.nil⟩
  | fault hk hv =>
    have he := exchange_visit hk radius h
    rwa [hv] at he
  | next hk hv _ ih =>
    obtain ⟨calls, hm, he⟩ := exchange_visit hk radius h
    rw [hv] at hm he
    obtain ⟨calls', hm', he'⟩ := ih hm.attached
    exact ⟨calls ++ calls', hm.trans hm', he'.prepend he⟩

end Program

namespace Machine

theorem ending_settle (host : Devices ω ι) {result : Except Fault Unit} {calls : List Call}
    (h : Exchange result calls) :
    ∃ traffic tail, calls ++ [.flush (Host.flush host).1] = traffic ++ tail ∧ Traffic traffic ∧
      Ending (settle host result).1 tail := by
  obtain fault | _ := result
  · obtain ⟨traffic, last, rfl, ht, hl⟩ := h
    exact ⟨traffic, _, List.append_assoc _ _ _, ht, hl.ending _⟩
  · refine ⟨calls, _, rfl, h, ?_⟩
    simp only [settle]
    cases (Host.flush host).1 with
    | true => exact Ending.finished
    | false => exact Ending.unfinished

theorem Stands.run_calls {m m' : Machine (Devices ω ι)} {p : Program} {radius k : Nat}
    {c : Config (Devices ω ι)} (hs : m.Stands p radius k c) (h : m.host.Attached)
    {r : Except Fault Unit} (hr : m.Runs (r, m')) :
    ∃ traffic tail, m.host.Made (traffic ++ tail) m'.host ∧ Traffic traffic ∧ Ending r tail := by
  obtain ⟨n, result, c', hw, hset⟩ := (hs.runs_iff_walk r m'.host).mp ⟨m', hr, rfl⟩
  have hhost : c.host = m.host := by rw [← hs.config]; rfl
  obtain ⟨calls, hm, he⟩ := hw.exchange (hhost ▸ h)
  have hresult : Exchange result calls := by
    obtain _ | _ := result <;> exact he
  obtain ⟨traffic, tail, hcalls, ht, hend⟩ := ending_settle c'.host hresult
  have hflush := hm.trans hm.attached.made_flush
  rw [hhost, hcalls, ← settle_host c'.host result, hset] at hflush
  rw [hset] at hend
  exact ⟨traffic, tail, hflush, ht, hend⟩

theorem Runs.error_of_stops {η : Type} [Host η] {m m' x : Machine η} {r : Except Fault Unit}
    {fault : Fault} (hr : m.Runs (r, m')) (hs : m.Stops (.fail fault) x) : r = .error fault := by
  have hx := (m.runs_iff_stops (x.conclude (.error fault))).mpr ⟨.error fault, x, hs, rfl⟩
  have he := hr.unique hx
  exact congrArg Prod.fst he

/-- The calls of a run that ends follow a grammar. There are writes and flushed reads that succeed,
and then an ending by which the first refused call decides the result, unless a bracket is at fault.
So each read has a flush of its own directly before it, nothing that was written waits for a flush
while a line is awaited, the last call is a flush, and no flush replaces a fault before it. -/
theorem run_calls_follow_grammar (m : Machine (Devices ω ι)) (hm : Operated m)
    (hout : m.host.output.isSome = true) (hin : m.host.input.isSome = true)
    (r : Except Fault Unit) (m' : Machine (Devices ω ι)) (hr : m.Runs (r, m')) :
    ∃ calls, m'.host.calls.toList = m.host.calls.toList ++ calls ∧
      (∃ traffic tail, calls = traffic ++ tail ∧ Traffic traffic ∧ Ending r tail) ∧
      ((∃ bracket position excerpt, r = .error (.unmatched bracket position excerpt)) ∨
        r = verdict calls) ∧
      ReadsFlushed calls ∧
      (∀ before succeeded after, calls = before ++ .readLine succeeded :: after →
        unflushed (m.host.calls.toList ++ before) = []) ∧
      (∃ before flushed, calls = before ++ [.flush flushed]) ∧
      ∀ fault x, m.Stops (.fail fault) x → r = .error fault := by
  have hs := stands_self hm.wellPlaced
  obtain ⟨traffic, tail, hmade, ht, hend⟩ := hs.run_calls ⟨hout, hin⟩ hr
  have hreads := ht.readsFlushed hend.readsFlushed
  refine ⟨traffic ++ tail, hmade.calls_eq, ⟨traffic, tail, rfl, ht, hend⟩, ?_, hreads, ?_, ?_, ?_⟩
  · rw [ht.verdict_append]
    exact hend.verdict_eq
  · intro before succeeded after he
    obtain ⟨earlier, rfl⟩ := hreads before succeeded after he
    rw [← List.append_assoc]
    exact unflushed_flush _
  · obtain ⟨before, flushed, rfl⟩ := hend.last
    exact ⟨traffic ++ before, flushed, (List.append_assoc _ _ _).symm⟩
  · intro fault x hx
    exact hr.error_of_stops hx

theorem run_calls_follow_grammar_of_refused_line_and_flush :
    ∃ m m' : Machine (Devices Buffer LineScript), Operated m ∧ m.host.output.isSome = true ∧
      m.host.input.isSome = true ∧ m.Runs (.error .input, m') ∧ ∃ calls,
        m'.host.calls.toList = m.host.calls.toList ++ calls ∧ ReadsFlushed calls ∧
        calls = [.flush true, .readLine true, .write 7 true, .flush true, .readLine false,
          .flush false] := by
  have h₀ : Operated ({ host := {}, radius := 3 } : Machine (Devices Buffer LineScript)) :=
    Operated.new 3
  have h₁ := h₀.after (.attachOutput { flushesLeft := some 2 }) rfl
  have h₂ := h₁.after (.attachInput ⟨[some "7", none]⟩) rfl
  have h₃ := h₂.after (.load ",.,") rfl
  obtain ⟨calls, hcalls, -, -, hreads, -⟩ :=
    run_calls_follow_grammar _ h₃ rfl rfl (.error .input) _ ⟨9, rfl⟩
  exact ⟨_, _, h₃, rfl, rfl, ⟨9, rfl⟩, calls, hcalls, hreads, hcalls.symm⟩

end Machine

end TapeLang
