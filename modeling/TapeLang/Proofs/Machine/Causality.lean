import TapeLang.Host.Buffer
import TapeLang.Host.LineScript
import TapeLang.Proofs.Machine.Twins

/-! What a program can know of its input.

A line reaches a program as one byte, at the `,` that reads it and not before. So two inputs whose
first lines store the same bytes cannot be told apart until a further line is read, whatever the
lines are. An input without lines, one that is used up and one that is not attached store zeros. -/
namespace TapeLang
set_option autoImplicit false

/-! ## Inputs -/

/-- The byte that the line at a place of an input stores, which is zero after the last line. An
input that is not attached has no lines. -/
def storedByte (input : Option LineScript) (place : Nat) : UInt8 :=
  match (input.getD {}).lines[place]? with
  | some (some line) => Line.value line
  | _ => 0

/-- The read at a place of an input fails. -/
def ReadFails (input : Option LineScript) (place : Nat) : Prop :=
  (input.getD {}).lines[place]? = some none

/-- Two inputs whose first lines can be read and store the same bytes. -/
structure SameBytes (n : Nat) (a b : Option LineScript) : Prop where
  bytes : ∀ k, k < n → storedByte a k = storedByte b k
  left : ∀ k, k < n → ¬ ReadFails a k
  right : ∀ k, k < n → ¬ ReadFails b k

theorem SameBytes.shift {n : Nat} {a b a' b' : Option LineScript} (h : SameBytes (n + 1) a b)
    (ha : ∀ k, (a'.getD {}).lines[k]? = (a.getD {}).lines[k + 1]?)
    (hb : ∀ k, (b'.getD {}).lines[k]? = (b.getD {}).lines[k + 1]?) : SameBytes n a' b' := by
  refine ⟨fun k hk => ?_, fun k hk => ?_, fun k hk => ?_⟩
  · have hk' := h.bytes (k + 1) (Nat.succ_lt_succ hk)
    rwa [storedByte, storedByte, ← ha, ← hb] at hk'
  · rw [ReadFails, ha]
    exact h.left (k + 1) (Nat.succ_lt_succ hk)
  · rw [ReadFails, hb]
    exact h.right (k + 1) (Nat.succ_lt_succ hk)

/-! ## Devices -/

/-- Whether a call is made to the output. -/
def Call.isOutput : Call → Bool
  | .write _ _ => true
  | .flush _ => true
  | .readLine _ => false

variable {ω : Type}

namespace Devices

/-- The calls made to the output so far. -/
def outputCalls {ι : Type} (d : Devices ω ι) : List Call :=
  d.calls.toList.filter Call.isOutput

theorem filter_push (calls : Array Call) (call : Call) :
    (calls.push call).toList.filter Call.isOutput =
      calls.toList.filter Call.isOutput ++ [call].filter Call.isOutput := by
  rw [Array.toList_push, List.filter_append]

variable [Sink ω]

theorem readLine_of_not_readFails (d : Devices ω LineScript) (h : ¬ ReadFails d.input 0) :
    ∃ line d', Host.readLine d = (some line, d') ∧ Line.value line = storedByte d.input 0 ∧
      d'.output = d.output ∧ d'.outputCalls = d.outputCalls ∧
      ∀ k, (d'.input.getD {}).lines[k]? = (d.input.getD {}).lines[k + 1]? := by
  have hcalls : ∀ calls : Array Call, (calls.push (.readLine true)).toList.filter Call.isOutput =
      calls.toList.filter Call.isOutput :=
    fun calls => (filter_push calls _).trans (List.append_nil _)
  obtain ⟨output, _ | ⟨_ | ⟨_ | line, lines⟩⟩, calls⟩ := d
  · exact ⟨"", _, rfl, rfl, rfl, rfl, fun k => rfl⟩
  · exact ⟨"", _, rfl, rfl, rfl, hcalls calls, fun k => rfl⟩
  · exact absurd rfl h
  · exact ⟨line, _, rfl, rfl, rfl, hcalls calls, fun k => rfl⟩

/-- Devices with the same output, which was called alike so far, and with inputs whose first lines
cannot be told apart. -/
def alike : Accord (Devices ω LineScript) (Devices ω LineScript) where
  Agree n d e := e.output = d.output ∧ e.outputCalls = d.outputCalls ∧ SameBytes n d.input e.input
  fewer := by
    rintro n d e ⟨hout, hcalls, hin⟩
    exact ⟨hout, hcalls, fun k hk => hin.bytes k (by omega), fun k hk => hin.left k (by omega),
      fun k hk => hin.right k (by omega)⟩
  write := by
    rintro n ⟨_ | o, input, calls⟩ ⟨output, input', calls'⟩ ⟨hout, hcalls, hin⟩ byte <;> cases hout
    · exact ⟨rfl, rfl, hcalls, hin⟩
    · refine ⟨rfl, rfl, ?_, hin⟩
      rw [outputCalls, outputCalls] at hcalls ⊢
      exact (filter_push calls' _).trans ((congrArg (· ++ _) hcalls).trans (filter_push calls _).symm)
  flush := by
    rintro n ⟨_ | o, input, calls⟩ ⟨output, input', calls'⟩ ⟨hout, hcalls, hin⟩ <;> cases hout
    · exact ⟨rfl, rfl, hcalls, hin⟩
    · refine ⟨rfl, rfl, ?_, hin⟩
      rw [outputCalls, outputCalls] at hcalls ⊢
      exact (filter_push calls' _).trans ((congrArg (· ++ _) hcalls).trans (filter_push calls _).symm)
  readLine := by
    rintro n d e ⟨hout, hcalls, hin⟩
    obtain ⟨line, d', hd, hvalue, hout₁, hcalls₁, hlines⟩ :=
      d.readLine_of_not_readFails (hin.left 0 (Nat.succ_pos n))
    obtain ⟨line', e', he, hvalue', hout₂, hcalls₂, hlines'⟩ :=
      e.readLine_of_not_readFails (hin.right 0 (Nat.succ_pos n))
    have hbyte := hin.bytes 0 (Nat.succ_pos n)
    rw [hd, he]
    refine ⟨?_, hout₂.trans (hout.trans hout₁.symm), hcalls₂.trans (hcalls.trans hcalls₁.symm),
      hin.shift hlines hlines'⟩
    exact congrArg some (hvalue'.trans (hbyte.symm.trans hvalue.symm))

end Devices

/-! ## Runs -/

namespace Machine

/-- The machine with a given input, or with none. -/
def withInput (m : Machine (Devices ω LineScript)) (input : Option LineScript) :
    Machine (Devices ω LineScript) :=
  m.updateHost fun d => { d with input }

/-- All of a machine but its input: the state, the output, and the calls made to the output. -/
def apartFromInput (m : Machine (Devices ω LineScript)) : State × Option ω × List Call :=
  (m.state, m.host.output, m.host.outputCalls)

variable [Sink ω]

theorem Twins.apartFromInput_eq {n : Nat} {x y : Machine (Devices ω LineScript)}
    (h : Twins Devices.alike n x y) : y.apartFromInput = x.apartFromInput := by
  obtain ⟨hout, hcalls, -⟩ := h.host
  rw [apartFromInput, h.state, hout, hcalls, apartFromInput]

/-- A run depends on its input only through the bytes that its lines store, and on each of them only
once it is read. Let the first lines of two inputs be readable and store the same bytes. Then the
runs of a program on them go alike, step by step and call by call of the output, for as long as the
program has executed no more than so many `,`; and if the run ends before it executes another, both
end with the same result, the same state and the same output. -/
theorem runs_depend_on_stored_bytes (m : Machine (Devices ω LineScript)) (a b : Option LineScript)
    (source : String) (n : Nat) (hbytes : ∀ k, k < n → storedByte a k = storedByte b k)
    (ha : ∀ k, k < n → ¬ ReadFails a k) (hb : ∀ k, k < n → ¬ ReadFails b k) :
    let x := (m.withInput a).load source
    let y := (m.withInput b).load source
    (∀ limit, x.reads limit ≤ n → y.reads limit = x.reads limit ∧
      (y.stepFor limit).1 = (x.stepFor limit).1 ∧
      (y.stepFor limit).2.apartFromInput = (x.stepFor limit).2.apartFromInput) ∧
    ∀ fuel, x.reads fuel ≤ n →
      ((m.withInput b).executeWithin fuel source).map (fun o => (o.1, o.2.apartFromInput)) =
        ((m.withInput a).executeWithin fuel source).map fun o => (o.1, o.2.apartFromInput) := by
  intro x y
  have htwins : ∀ k, k ≤ n → Twins Devices.alike (n - k + k) x y := by
    intro k hk
    rw [Nat.sub_add_cancel hk]
    exact ⟨rfl, rfl, rfl, rfl, hbytes, ha, hb⟩
  constructor
  · intro limit hlimit
    obtain ⟨hreads, hsteps, hafter⟩ := (htwins _ hlimit).stepFrom 0 limit
    exact ⟨hreads, hsteps, hafter.apartFromInput_eq⟩
  · intro fuel hfuel
    obtain ⟨hx, hy⟩ | ⟨p, q, hx, hy, hresult, hafter⟩ := (htwins _ hfuel).runWithin fuel
    · rw [executeWithin, executeWithin, hx, hy]
    · rw [executeWithin, executeWithin, hx, hy, Option.map_some, Option.map_some, hresult,
        hafter.apartFromInput_eq]

theorem runs_depend_on_stored_bytes_without_input :
    let m : Machine (Devices Buffer LineScript) := { host := { output := some {} } }
    let b : Option LineScript := some ⟨[some "512\r\n", some "", none]⟩
    (∀ k, k < 2 → storedByte none k = storedByte b k) ∧ (∀ k, k < 2 → ¬ ReadFails b k) ∧
      ((m.withInput none).load ",.,.").reads 9 ≤ 2 ∧
      ((m.withInput b).executeWithin 9 ",.,.").map (fun o => (o.1, o.2.apartFromInput)) =
        ((m.withInput none).executeWithin 9 ",.,.").map fun o => (o.1, o.2.apartFromInput) := by
  intro m b
  have hbytes : ∀ k, k < 2 → storedByte none k = storedByte b k := by
    intro k hk
    obtain rfl | rfl : k = 0 ∨ k = 1 := by omega
    · decide
    · decide
  have ha : ∀ k, k < 2 → ¬ ReadFails none k := fun k _ h => by cases h
  have hb : ∀ k, k < 2 → ¬ ReadFails b k := by
    intro k hk
    obtain rfl | rfl : k = 0 ∨ k = 1 := by omega
    · intro h
      cases h
    · intro h
      cases h
  have hreads : ((m.withInput none).load ",.,.").reads 9 ≤ 2 := Nat.le_refl 2
  exact ⟨hbytes, hb, hreads, (runs_depend_on_stored_bytes m none b ",.,." 2 hbytes ha hb).2 9 hreads⟩

end Machine

end TapeLang
