import Mathlib.Data.Finset.Card
import TapeLang.Host.Buffer
import TapeLang.Host.LineScript
import TapeLang.Proofs.Machine.Walk

/-! Straight-line texts: no loops and no input.

What such a text does can be read off it without a machine. `before text c` lists what stands before
each `c` of the text, and everything else is a count over it: where the pointer was, how often a cell
was incremented and decremented, which cells were touched, which values were written. The machine
meets these counts one character at a time (`Tallied.performChar`), so that after the last one it
meets those of the whole text. -/
namespace TapeLang
set_option autoImplicit false

/-! ## Counts of a text -/

namespace StraightLine

/-- Where the pointer is after the text. -/
def heading (text : List Char) : Int :=
  text.count '>' - text.count '<'

/-- The texts before each place of a character, in order. -/
def before (text : List Char) (c : Char) : List (List Char) :=
  ((List.range text.length).filter fun k => text[k]? = some c).map fun k => text.take k

/-- How often a character comes up while the pointer is at a cell. -/
def executed (text : List Char) (c : Char) (i : Int) : Nat :=
  (before text c).countP fun done => heading done = i

/-- The additions to a cell less the subtractions from it. -/
def balance (text : List Char) (i : Int) : Int :=
  executed text '+' i - executed text '-' i

/-- The cells that are added to or subtracted from. -/
def touched (text : List Char) : Finset Int :=
  ((before text '+' ++ before text '-').map heading).toFinset

/-- The values under the pointer where the text writes. -/
def written (text : List Char) : List Int :=
  (before text '.').map fun done => balance done (heading done) % 256

theorem before_concat (text : List Char) (c ch : Char) :
    before (text ++ [c]) ch = before text ch ++ if c = ch then [text] else [] := by
  unfold before
  rw [List.length_append, List.length_singleton, List.range_succ, List.filter_append,
    List.map_append]
  congr 1
  · have hfilter : (List.range text.length).filter (fun k => (text ++ [c])[k]? = some ch) =
        (List.range text.length).filter (fun k => text[k]? = some ch) := by
      apply List.filter_congr
      intro k hk
      rw [List.getElem?_append_left (List.mem_range.mp hk)]
    rw [hfilter]
    apply List.map_congr_left
    intro k hk
    have hlt := List.mem_range.mp (List.mem_filter.mp hk).1
    exact List.take_append_of_le_length (Nat.le_of_lt hlt)
  · by_cases h : c = ch <;> simp [h]

variable (text : List Char) (c : Char) (i : Int)

theorem heading_concat :
    heading (text ++ [c]) =
      heading text + (if c = '>' then 1 else 0) - (if c = '<' then 1 else 0) := by
  unfold heading
  simp only [List.count_append, List.count_singleton, beq_iff_eq]
  split <;> split <;> omega

theorem executed_concat (ch : Char) :
    executed (text ++ [c]) ch i =
      executed text ch i + if c = ch ∧ heading text = i then 1 else 0 := by
  unfold executed
  rw [before_concat, List.countP_append]
  by_cases h : c = ch <;> simp [h, List.countP_singleton]

theorem balance_concat :
    balance (text ++ [c]) i = balance text i + (if c = '+' ∧ heading text = i then 1 else 0) -
      (if c = '-' ∧ heading text = i then 1 else 0) := by
  unfold balance
  rw [executed_concat, executed_concat]
  split <;> split <;> omega

theorem touched_concat :
    touched (text ++ [c]) =
      if c = '+' ∨ c = '-' then insert (heading text) (touched text) else touched text := by
  unfold touched
  ext i
  by_cases hplus : c = '+'
  · simp [before_concat, hplus]
  · by_cases hminus : c = '-' <;> simp [before_concat, hplus, hminus]

theorem written_concat :
    written (text ++ [c]) =
      written text ++ if c = '.' then [balance text (heading text) % 256] else [] := by
  unfold written
  rw [before_concat, List.map_append]
  by_cases h : c = '.' <;> simp [h]

end StraightLine

open StraightLine

/-! ## The tape and the output meet the counts -/

/-- The state meets the counts of a text. -/
structure State.Tallied (text : List Char) (s : State) : Prop where
  pointer : s.pointer = heading text
  cells : ∀ i, ((s.tape.get i).toNat : Int) = balance text i % 256
  mem_cells : ∀ i, i ∈ s.tape.cells ↔ i ∈ touched text
  stored : s.tape.stored = (touched text).card

theorem State.tallied_start (p : Program) : (State.start p).Tallied [] where
  pointer := rfl
  cells i := by
    change ((Tape.empty.get i).toNat : Int) = 0
    rw [Tape.get_empty]
    rfl
  mem_cells i := by
    change i ∈ (∅ : Std.TreeMap Int UInt8) ↔ i ∈ (∅ : Finset Int)
    simp
  stored := Tape.stored_empty

namespace State.Tallied

variable {text : List Char} {s : State} {c : Char}

theorem moved (h : s.Tallied text) (hplus : c ≠ '+') (hminus : c ≠ '-') {pointer : Int}
    (hp : pointer = heading (text ++ [c])) :
    ({ s with pointer } : State).Tallied (text ++ [c]) where
  pointer := hp
  cells i := by
    rw [balance_concat]
    simpa [hplus, hminus] using h.cells i
  mem_cells i := by
    rw [touched_concat]
    simpa [hplus, hminus] using h.mem_cells i
  stored := by
    rw [touched_concat]
    simpa [hplus, hminus] using h.stored

theorem moveRight (h : s.Tallied text) : s.moveRight.Tallied (text ++ ['>']) := by
  apply h.moved (by decide) (by decide)
  rw [h.pointer, heading_concat]
  simp

theorem moveLeft (h : s.Tallied text) : s.moveLeft.Tallied (text ++ ['<']) := by
  apply h.moved (by decide) (by decide)
  rw [h.pointer, heading_concat]
  simp

/-- A character that neither moves the pointer nor changes a cell. -/
theorem stay (h : s.Tallied text) (hright : c ≠ '>') (hleft : c ≠ '<') (hplus : c ≠ '+')
    (hminus : c ≠ '-') : s.Tallied (text ++ [c]) := by
  apply h.moved hplus hminus
  rw [h.pointer, heading_concat]
  simp [hright, hleft]

theorem store (h : s.Tallied text) (hc : c = '+' ∨ c = '-') {value : UInt8}
    (hv : (value.toNat : Int) = balance (text ++ [c]) (heading text) % 256) :
    (s.store value).Tallied (text ++ [c]) where
  pointer := by
    rw [heading_concat]
    obtain rfl | rfl := hc <;> simpa [State.store] using h.pointer
  cells i := by
    change (((s.tape.set s.pointer value).get i).toNat : Int) = _
    rw [Tape.get_set, h.pointer]
    split
    · rename_i hi
      rw [hv, hi]
    · rename_i hi
      rw [h.cells, balance_concat]
      simp [hi]
  mem_cells i := by
    change i ∈ s.tape.cells.insert s.pointer value ↔ _
    rw [touched_concat, if_pos hc, Std.TreeMap.mem_insert, h.mem_cells, h.pointer,
      Finset.mem_insert, compare_eq_iff_eq, eq_comm]
  stored := by
    change (s.tape.set s.pointer value).stored = _
    rw [touched_concat, if_pos hc, Finset.card_insert_eq_ite, Tape.stored_set, h.stored, h.pointer]
    simp only [h.mem_cells]

theorem cell (h : s.Tallied text) : (s.cell.toNat : Int) = balance text (heading text) % 256 := by
  rw [State.cell, h.cells, h.pointer]

theorem increment (h : s.Tallied text) : s.increment.Tallied (text ++ ['+']) := by
  have hcell := h.cell
  have hbalance : balance (text ++ ['+']) (heading text) = balance text (heading text) + 1 := by
    rw [balance_concat]
    simp
  change (s.store (s.cell + 1)).Tallied _
  apply h.store (Or.inl rfl)
  rw [hbalance, UInt8.toNat_add, UInt8.toNat_one]
  omega

theorem decrement (h : s.Tallied text) : s.decrement.Tallied (text ++ ['-']) := by
  have hcell := h.cell
  have hbalance : balance (text ++ ['-']) (heading text) = balance text (heading text) - 1 := by
    rw [balance_concat]
    simp
  change (s.store (s.cell - 1)).Tallied _
  apply h.store (Or.inr rfl)
  rw [hbalance, UInt8.toNat_sub, UInt8.toNat_one]
  omega

end State.Tallied

/-- The output after so many bytes. -/
def Sink.taken {ω : Type} [Sink ω] (o : ω) (bytes : List UInt8) : ω :=
  bytes.foldl (fun o byte => (Sink.write o byte).2) o

theorem Sink.taken_concat {ω : Type} [Sink ω] (o : ω) (bytes : List UInt8) (byte : UInt8) :
    Sink.taken o (bytes ++ [byte]) = (Sink.write (Sink.taken o bytes) byte).2 := by
  rw [Sink.taken, List.foldl_append]
  rfl

/-- The output takes every byte, now and after any bytes. -/
def Sink.Accepts {ω : Type} [Sink ω] (o : ω) : Prop :=
  ∀ (bytes : List UInt8) (byte : UInt8), (Sink.write (Sink.taken o bytes) byte).1 = true

theorem Buffer.accepts_of_unlimited {b : Buffer} (h : b.writesLeft = none) : Sink.Accepts b := by
  intro bytes
  induction bytes generalizing b with
  | nil =>
    intro byte
    obtain ⟨data, left, flushes⟩ := b
    obtain rfl : left = none := h
    rfl
  | cons first bytes ih =>
    obtain ⟨data, left, flushes⟩ := b
    obtain rfl : left = none := h
    exact ih rfl

section

variable {ω ι : Type} [Sink ω] {o : ω} {calls : List Call} {bytes : List UInt8}

/-- The bytes were written to the output `o`, after the calls. -/
structure Devices.Wrote (o : ω) (calls : List Call) (bytes : List UInt8) (d : Devices ω ι) :
    Prop where
  output : d.output = some (Sink.taken o bytes)
  calls : d.calls.toList = calls ++ bytes.map (.write · true)

theorem Devices.Wrote.write [Source ι] {d : Devices ω ι} (h : d.Wrote o calls bytes)
    (ho : Sink.Accepts o) (byte : UInt8) :
    ∃ d', Host.write d byte = (true, d') ∧ d'.Wrote o calls (bytes ++ [byte]) := by
  obtain ⟨output, input, called⟩ := d
  obtain rfl : output = some (Sink.taken o bytes) := h.output
  have haccept := ho bytes byte
  rcases hwrite : Sink.write (Sink.taken o bytes) byte with ⟨ok, out⟩
  rw [hwrite] at haccept
  obtain rfl : ok = true := haccept
  refine ⟨⟨some out, input, called.push (.write byte true)⟩, ?_, ?_, ?_⟩
  · change Devices.write _ _ = _
    rw [Devices.write, hwrite]
  · rw [Sink.taken_concat, hwrite]
  · have hcalls : called.toList = calls ++ bytes.map (.write · true) := h.calls
    simp [hcalls]

end

/-! ## Steps -/

namespace Machine

variable {ω ι : Type} [Sink ω] {o : ω} {calls : List Call} {text : List Char}
  {m : Machine (Devices ω ι)}

/-- The machine meets the counts of a text, its output included. -/
structure Tallied (o : ω) (calls : List Call) (text : List Char) (m : Machine (Devices ω ι)) :
    Prop where
  state : m.state.Tallied text
  host : ∃ bytes : List UInt8, bytes.map (fun byte => (byte.toNat : Int)) = written text ∧
    m.host.Wrote o calls bytes

theorem Tallied.advance (h : Tallied o calls text m) : Tallied o calls text m.advance.2 := by
  obtain ⟨hs, hd⟩ := h
  by_cases hlt : m.state.cursor.position + 1 < m.state.cursor.length
  · rw [advance_of_lt hlt]
    exact ⟨⟨hs.pointer, hs.cells, hs.mem_cells, hs.stored⟩, hd⟩
  · rw [advance_of_last hlt]
    exact ⟨⟨hs.pointer, hs.cells, hs.mem_cells, hs.stored⟩, hd⟩

/-- So many characters of a source are done, and there are more. -/
structure Done (o : ω) (calls : List Call) (source : String) (k : Nat)
    (m : Machine (Devices ω ι)) : Prop where
  program : m.state.program = Program.ofString source
  cursor : m.state.cursor = ⟨source.length, k⟩
  halted : m.state.halted = false
  tallied : Tallied o calls (source.toList.take k) m

variable [Source ι]

/-- One character of a straight-line text. -/
theorem Tallied.performChar (h : Tallied o calls text m) (ho : Sink.Accepts o) {c : Char}
    (hc : c ≠ '[' ∧ c ≠ ']' ∧ c ≠ ',') :
    ∃ m₁ : Machine (Devices ω ι), m.performChar c = (.ok (), m₁) ∧
      (∃ pointer tape, m₁.state = { m.state with pointer, tape }) ∧
      Tallied o calls (text ++ [c]) m₁ := by
  obtain ⟨hs, bytes, hbytes, hd⟩ := h
  -- only a write adds to the bytes
  have hhost : c ≠ '.' → ∃ bytes : List UInt8,
      bytes.map (fun byte => (byte.toNat : Int)) = written (text ++ [c]) ∧
        m.host.Wrote o calls bytes := by
    intro hdot
    refine ⟨bytes, ?_, hd⟩
    rw [written_concat, if_neg hdot, List.append_nil, hbytes]
  cases hi : Instruction.ofChar? c with
  | none =>
    have hne : ∀ instruction, c ≠ Instruction.toChar instruction := by
      rintro instruction rfl
      rw [Instruction.ofChar?_toChar] at hi
      cases hi
    have hs' := hs.stay (hne .right) (hne .left) (hne .increment) (hne .decrement)
    exact ⟨m, by rw [Machine.performChar, hi], ⟨_, _, rfl⟩, hs', hhost (hne .write)⟩
  | some instruction =>
    obtain rfl := Instruction.toChar_of_ofChar? hi
    rw [Machine.performChar, hi]
    cases instruction with
    | right => exact ⟨_, rfl, ⟨_, _, rfl⟩, hs.moveRight, hhost (by decide)⟩
    | left => exact ⟨_, rfl, ⟨_, _, rfl⟩, hs.moveLeft, hhost (by decide)⟩
    | increment => exact ⟨_, rfl, ⟨_, _, rfl⟩, hs.increment, hhost (by decide)⟩
    | decrement => exact ⟨_, rfl, ⟨_, _, rfl⟩, hs.decrement, hhost (by decide)⟩
    | openLoop => exact absurd rfl hc.1
    | closeLoop => exact absurd rfl hc.2.1
    | write =>
      obtain ⟨host, hwrite, hd'⟩ := hd.write ho m.state.cell
      refine ⟨⟨m.state, host, m.radius⟩, ?_, ⟨_, _, rfl⟩, ?_, _, ?_, hd'⟩
      · simp only [perform_eq, State.request, Request.answer, hwrite]
        rfl
      · exact hs.stay (by decide) (by decide) (by decide) (by decide)
      · rw [written_concat, List.map_append, hbytes]
        simp [Instruction.toChar, hs.cell]
    | read => exact absurd rfl hc.2.2

section

variable {source : String} {k : Nat} (ho : Sink.Accepts o)
  (hsource : ∀ c ∈ source.toList, c ≠ '[' ∧ c ≠ ']' ∧ c ≠ ',')
include ho hsource

/-- A step comes to the point where the machine moves on by one character, with that character
counted. -/
theorem Done.step (h : Done o calls source k m) (hk : k < source.length) :
    ∃ m₁ : Machine (Devices ω ι), m.step = m₁.advance ∧
      (∃ pointer tape, m₁.state = { m.state with pointer, tape }) ∧
      Tallied o calls (source.toList.take (k + 1)) m₁ := by
  rw [← String.length_toList] at hk
  have hget : m.state.program.get? m.state.cursor.position = some source.toList[k] := by
    rw [h.program, h.cursor, Program.get?_ofString, List.getElem?_eq_getElem hk]
  obtain ⟨m₁, hp, hstate, ht⟩ := h.tallied.performChar ho (hsource _ (List.getElem_mem hk))
  rw [← List.take_succ_eq_append_getElem hk] at ht
  exact ⟨m₁, step_of_ok h.halted hget hp, hstate, ht⟩

theorem Done.step_next (h : Done o calls source k m) (hk : k + 1 < source.length) :
    ∃ m', m.step = (.next, m') ∧ Done o calls source (k + 1) m' := by
  obtain ⟨m₁, hstep, ⟨pointer, tape, hstate⟩, ht⟩ := h.step ho hsource (Nat.lt_of_succ_lt hk)
  have hcursor : m₁.state.cursor = ⟨source.length, k⟩ := by rw [hstate, h.cursor]
  have hadvance := advance_of_lt (m := m₁) (by rw [hcursor]; exact hk)
  have ht' := ht.advance
  rw [hadvance] at hstep ht'
  refine ⟨_, hstep, ?_, ?_, ?_, ht'⟩
  · change m₁.state.program = _
    rw [hstate, h.program]
  · change (⟨m₁.state.cursor.length, m₁.state.cursor.position + 1⟩ : Cursor) = _
    rw [hcursor]
  · change m₁.state.halted = false
    rw [hstate, h.halted]

theorem Done.step_last (h : Done o calls source k m) (hk : k + 1 = source.length) :
    ∃ m', m.step = (.halt, m') ∧ Tallied o calls source.toList m' := by
  obtain ⟨m₁, hstep, ⟨pointer, tape, hstate⟩, ht⟩ := h.step ho hsource (by omega)
  have hcursor : m₁.state.cursor = ⟨source.length, k⟩ := by rw [hstate, h.cursor]
  have hadvance := advance_of_last (m := m₁) (by rw [hcursor]; exact Nat.not_lt.mpr hk.ge)
  have ht' := ht.advance
  rw [hadvance] at hstep ht'
  rw [hk, ← String.length_toList, List.take_length] at ht'
  exact ⟨_, hstep, ht'⟩

/-- The first characters of a straight-line source, but for the last. -/
theorem proceeds_straight (hout : m.host.output = some o) (hk : k < source.length) :
    ∃ x, (m.load source).Proceeds k x ∧ Done o m.host.calls.toList source k x := by
  induction k with
  | zero =>
    refine ⟨_, Proceeds.stay _, rfl, ?_, rfl, State.tallied_start _, [], rfl, hout, ?_⟩
    · change (⟨(Program.ofString source).length, 0⟩ : Cursor) = _
      rw [Program.length_ofString, String.length_toList]
    · exact (List.append_nil _).symm
  | succ k ih =>
    obtain ⟨x, hx, hdone⟩ := ih (Nat.lt_of_succ_lt hk)
    obtain ⟨x', hstep, hdone'⟩ := hdone.step_next ho hsource hk
    exact ⟨x', hx.snoc hstep, hdone'⟩

end

/-- What a straight-line source does, in closed form. Each of its characters takes one step and the
last one halts. The pointer, the cells, the number of stored cells and the bytes written, which are
the only calls, are then the counts of the source. -/
theorem straight_line_tallies (m : Machine (Devices ω ι)) (source : String) (o : ω)
    (hne : source ≠ "") (hsource : ∀ c ∈ source.toList, c ≠ '[' ∧ c ≠ ']' ∧ c ≠ ',')
    (hout : m.host.output = some o) (ho : Sink.Accepts o) :
    ∃ x m' bytes, (m.load source).Proceeds (source.length - 1) x ∧ x.step = (.halt, m') ∧
      m'.state.pointer = source.toList.count '>' - source.toList.count '<' ∧
      (∀ i, ((m'.state.tape.get i).toNat : Int) = balance source.toList i % 256) ∧
      m'.state.tape.stored = (touched source.toList).card ∧
      bytes.map (fun byte : UInt8 => (byte.toNat : Int)) = written source.toList ∧
      m'.host.output = some (Sink.taken o bytes) ∧
      m'.host.calls.toList = m.host.calls.toList ++ bytes.map (.write · true) := by
  have hpos : 0 < source.length := Nat.pos_of_ne_zero (mt String.length_eq_zero_iff.mp hne)
  obtain ⟨x, hx, hdone⟩ := proceeds_straight ho hsource hout (Nat.sub_lt hpos Nat.one_pos)
  obtain ⟨m', hstep, hs, bytes, hbytes, hd⟩ := hdone.step_last ho hsource (by omega)
  exact ⟨x, m', bytes, hx, hstep, hs.pointer, hs.cells, hs.stored, hbytes, hd.output, hd.calls⟩

theorem straight_line_tallies_of_wrapped_cell :
    ∃ (m x m' : Machine (Devices Buffer LineScript)) (bytes : List UInt8),
      m.host.output = some {} ∧ Sink.Accepts ({} : Buffer) ∧
      (m.load "-.>+-<x.").Proceeds 7 x ∧ x.step = (.halt, m') ∧ m'.state.pointer = 0 ∧
      ((m'.state.tape.get 0).toNat : Int) = 255 ∧ ((m'.state.tape.get 1).toNat : Int) = 0 ∧
      m'.state.tape.stored = 2 ∧ bytes.map (fun byte => (byte.toNat : Int)) = [255, 255] ∧
      m'.host.calls.toList = bytes.map (.write · true) := by
  have ho : Sink.Accepts ({} : Buffer) := Buffer.accepts_of_unlimited rfl
  obtain ⟨x, m', bytes, hx, hstep, hpointer, hcells, hstored, hbytes, -, hcalls⟩ :=
    straight_line_tallies ({ host := { output := some {} }, radius := 3 } :
      Machine (Devices Buffer LineScript)) "-.>+-<x." {} (by decide) (by simp) rfl ho
  have hwrapped : balance "-.>+-<x.".toList 0 % 256 = 255 := by decide
  have hzero : balance "-.>+-<x.".toList 1 % 256 = 0 := by decide
  have htouched : (touched "-.>+-<x.".toList).card = 2 := by decide
  have hwritten : written "-.>+-<x.".toList = [255, 255] := by decide
  exact ⟨_, x, m', bytes, rfl, ho, hx, hstep, hpointer, (hcells 0).trans hwrapped,
    (hcells 1).trans hzero, hstored.trans htouched, hbytes.trans hwritten, hcalls⟩

end Machine

end TapeLang
