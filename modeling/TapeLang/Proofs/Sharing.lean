import Mathlib.Data.List.DropRight
import TapeLang.Host.SharedBuffers

/-! Handles that share a buffer.

A handle comes, directly or through other handles, from the one that its buffer was made with: its
origin. Which handles have which origin can be told from the operations alone (`Origin`), and so can
what a buffer holds (`gathered`): the bytes that were written through the handles of one origin since the
last time it was cleared through one of them. The family of buffers agrees with this after every
operation (`Follows.perform`). -/
namespace TapeLang
set_option autoImplicit false

namespace SharedBuffers

/-! ## What the operations say -/

namespace Operation

/-- The handle that an operation goes through. -/
def handle? : Operation → Option Nat
  | write handle _ => some handle
  | flush handle => some handle
  | clear handle => some handle
  | share handle => some handle
  | create => none

/-- The bytes that an operation adds. -/
def bytes : Operation → List UInt8
  | write _ bytes => bytes.data.toList
  | _ => []

def isClear : Operation → Bool
  | clear _ => true
  | _ => false

/-- The number of handles after an operation. -/
def made (before : Nat) : Operation → Nat
  | share handle => if handle < before then before + 1 else before
  | create => before + 1
  | _ => before

/-- The origins of all handles after an operation, in the order in which the handles were made. -/
def origins (before : List Nat) : Operation → List Nat
  | share handle => before ++ before[handle]?.toList
  | create => before ++ [before.length]
  | _ => before

end Operation

/-- The number of handles after some operations. -/
def made (operations : List Operation) : Nat :=
  operations.foldl Operation.made 1

/-- A handle comes from another one, its origin, that was made with a new buffer. A handle that shares
the buffer of another one has the same origin. -/
inductive Origin : List Operation → Nat → Nat → Prop
  | first : Origin [] 0 0
  | kept {operations : List Operation} {handle origin : Nat} (op : Operation)
      (h : Origin operations handle origin) : Origin (operations ++ [op]) handle origin
  | created (operations : List Operation) :
      Origin (operations ++ [.create]) (made operations) (made operations)
  | shared {operations : List Operation} {handle origin : Nat}
      (h : Origin operations handle origin) :
      Origin (operations ++ [.share handle]) (made operations) origin

/-- The origins of all handles, by which `Origin` can be decided (`origin_iff`). -/
def origins (operations : List Operation) : List Nat :=
  operations.foldl Operation.origins [0]

variable {operations : List Operation} {op : Operation} {handle origin : Nat}

theorem origins_concat : origins (operations ++ [op]) = op.origins (origins operations) := by
  simp [origins]

theorem made_concat : made (operations ++ [op]) = op.made (made operations) := by
  simp [made]

theorem length_origins (operations : List Operation) :
    (origins operations).length = made operations := by
  induction operations using List.reverseRecOn with
  | nil => rfl
  | append_singleton operations op ih =>
    rw [origins_concat, made_concat, ← ih]
    cases op with
    | share handle =>
      by_cases h : handle < (origins operations).length <;> simp [Operation.origins, Operation.made, h]
    | create => simp [Operation.origins, Operation.made]
    | write | flush | clear => rfl

theorem origins_eq_some_iff {before : List Nat} :
    (op.origins before)[handle]? = some origin ↔ before[handle]? = some origin ∨
      handle = before.length ∧
        (op = .create ∧ origin = before.length ∨
          ∃ shared, op = .share shared ∧ before[shared]? = some origin) := by
  have hlast : ∀ o, (before ++ [o])[handle]? = some origin ↔
      before[handle]? = some origin ∨ handle = before.length ∧ o = origin := by
    intro o
    by_cases hlt : handle < before.length
    · have hne : handle ≠ before.length := by omega
      simp [List.getElem?_append_left hlt, hne]
    · have hnone : before[handle]? = none := List.getElem?_eq_none (by omega)
      have hzero : handle - before.length = 0 ↔ handle = before.length := by omega
      rw [List.getElem?_append_right (by omega), hnone, List.getElem?_singleton]
      simp [hzero]
  cases op with
  | share shared =>
    rw [Operation.origins]
    cases hs : before[shared]? with
    | none => simp [hs]
    | some o => simpa [hs] using hlast o
  | create => simpa [Operation.origins, eq_comm] using hlast before.length
  | write | flush | clear => simp [Operation.origins]

theorem origin_iff : Origin operations handle origin ↔ (origins operations)[handle]? = some origin := by
  constructor
  · intro h
    induction h with
    | first => rfl
    | kept op _ ih =>
      rw [origins_concat, origins_eq_some_iff]
      exact Or.inl ih
    | created operations =>
      rw [origins_concat, origins_eq_some_iff, length_origins]
      exact Or.inr ⟨rfl, Or.inl ⟨rfl, rfl⟩⟩
    | @shared operations handle origin _ ih =>
      rw [origins_concat, origins_eq_some_iff, length_origins]
      exact Or.inr ⟨rfl, Or.inr ⟨handle, rfl, ih⟩⟩
  · intro h
    -- The last operation either made the handle or leaves its origin as it was.
    induction operations using List.reverseRecOn generalizing handle origin with
    | nil =>
      obtain ⟨rfl, rfl⟩ : handle = 0 ∧ 0 = origin := by
        simpa [origins, List.getElem?_singleton] using h
      exact Origin.first
    | append_singleton operations op ih =>
      rw [origins_concat, origins_eq_some_iff, length_origins] at h
      obtain h | ⟨rfl, ⟨rfl, rfl⟩ | ⟨shared, rfl, h⟩⟩ := h
      · exact Origin.kept op (ih h)
      · exact Origin.created operations
      · exact Origin.shared (ih h)

instance (operations : List Operation) (handle origin : Nat) :
    Decidable (Origin operations handle origin) :=
  decidable_of_iff _ origin_iff.symm

/-- The operation goes through a handle that has the origin. -/
def Through (operations : List Operation) (origin : Nat) (op : Operation) : Prop :=
  ∃ handle ∈ op.handle?, Origin operations handle origin

instance (operations : List Operation) (origin : Nat) (op : Operation) :
    Decidable (Through operations origin op) :=
  inferInstanceAs (Decidable (∃ handle ∈ op.handle?, Origin operations handle origin))

/-- The operations that go through handles with the origin, each judged when it is performed. -/
def heard (operations : List Operation) (origin : Nat) : List Operation :=
  (operations.zipIdx.filter fun entry =>
    Through (operations.take entry.2) origin entry.1).map Prod.fst

/-- The bytes that were written through the handles with the origin, since the last time that one of
them cleared the buffer. -/
def gathered (operations : List Operation) (origin : Nat) : List UInt8 :=
  ((heard operations origin).rtakeWhile (!·.isClear)).flatMap Operation.bytes

theorem heard_concat :
    heard (operations ++ [op]) origin =
      heard operations origin ++ if Through operations origin op then [op] else [] := by
  unfold heard
  rw [List.zipIdx_append, List.filter_append, List.map_append]
  congr 1
  · congr 1
    apply List.filter_congr
    intro entry hmem
    have hlt := List.snd_lt_of_mem_zipIdx hmem
    rw [List.take_append_of_le_length (by omega)]
  · by_cases h : Through operations origin op <;> simp [h]

theorem gathered_concat_of_not_through (h : ¬ Through operations origin op) :
    gathered (operations ++ [op]) origin = gathered operations origin := by
  simp [gathered, heard_concat, h]

theorem gathered_concat_of_isClear (h : Through operations origin op) (hclear : op.isClear = true) :
    gathered (operations ++ [op]) origin = [] := by
  simp [gathered, heard_concat, h, hclear]

theorem gathered_concat_of_adds (hclear : op.isClear = false) (h : Through operations origin op) :
    gathered (operations ++ [op]) origin = gathered operations origin ++ op.bytes := by
  simp [gathered, heard_concat, h, hclear]

/-! ## What a handle comes from -/

theorem origin_concat_iff :
    Origin (operations ++ [op]) handle origin ↔ Origin operations handle origin ∨
      handle = made operations ∧ (op = .create ∧ origin = made operations ∨
        ∃ shared, op = .share shared ∧ Origin operations shared origin) := by
  simp only [origin_iff, origins_concat, origins_eq_some_iff, length_origins]

theorem made_le_made_concat (op : Operation) : made operations ≤ made (operations ++ [op]) := by
  rw [made_concat]
  cases op with
  | share handle =>
    simp only [Operation.made]
    split <;> omega
  | create => exact Nat.le_succ _
  | write | flush | clear => exact Nat.le_refl _

theorem origin_concat_of_kept (h : op.origins (origins operations) = origins operations) :
    Origin (operations ++ [op]) handle origin ↔ Origin operations handle origin := by
  rw [origin_iff, origins_concat, h, origin_iff]

theorem made_concat_of_kept (h : op.origins (origins operations) = origins operations) :
    made (operations ++ [op]) = made operations := by
  rw [← length_origins, origins_concat, h, length_origins]

namespace Origin

theorem handle_lt (h : Origin operations handle origin) : handle < made operations := by
  rw [origin_iff] at h
  rw [← length_origins]
  exact (List.getElem?_eq_some_iff.mp h).1

theorem origin_lt (h : Origin operations handle origin) : origin < made operations := by
  induction h with
  | first => exact Nat.zero_lt_one
  | kept op _ ih => exact Nat.lt_of_lt_of_le ih (made_le_made_concat op)
  | created operations =>
    rw [made_concat]
    exact Nat.lt_succ_self _
  | shared _ ih => exact Nat.lt_of_lt_of_le ih (made_le_made_concat _)

theorem handle_ne (h : Origin operations handle origin) : handle ≠ made operations :=
  Nat.ne_of_lt h.handle_lt

theorem origin_ne (h : Origin operations handle origin) : origin ≠ made operations :=
  Nat.ne_of_lt h.origin_lt

theorem made_share {shared : Nat} (h : Origin operations shared origin) :
    made (operations ++ [.share shared]) = made operations + 1 := by
  rw [made_concat, Operation.made, if_pos h.handle_lt]

end Origin

theorem exists_origin (h : handle < made operations) : ∃ origin, Origin operations handle origin := by
  rw [← length_origins] at h
  exact ⟨_, origin_iff.mpr (List.getElem?_eq_getElem h)⟩

theorem through_iff {shared : Nat} (hop : op.handle? = some shared) :
    Through operations origin op ↔ Origin operations shared origin := by
  simp [Through, hop]

theorem origin_create_iff :
    Origin (operations ++ [.create]) handle origin ↔
      Origin operations handle origin ∨ handle = made operations ∧ origin = made operations := by
  rw [origin_concat_iff]
  simp

/-- The handle that says what a handle refers to, after `shared` was shared. -/
def standIn (operations : List Operation) (shared handle : Nat) : Nat :=
  if handle = made operations then shared else handle

theorem origin_share_iff {shared : Nat} :
    Origin (operations ++ [.share shared]) handle origin ↔
      Origin operations (standIn operations shared handle) origin := by
  rw [origin_concat_iff, standIn]
  by_cases hlast : handle = made operations
  · have hnot : ¬ Origin operations handle origin := fun ho => ho.handle_ne hlast
    simp only [hnot, false_or]
    simp [hlast]
  · simp [hlast]

/-- Nothing was heard by a handle that is still to be made. -/
theorem heard_of_made_le (h : made operations ≤ origin) : heard operations origin = [] := by
  induction operations using List.reverseRecOn with
  | nil => rfl
  | append_singleton operations op ih =>
    have hle : made operations ≤ origin := Nat.le_trans (made_le_made_concat op) h
    have hnot : ¬ Through operations origin op := by
      rintro ⟨g, -, hg⟩
      have hlt := hg.origin_lt
      omega
    rw [heard_concat, ih hle, if_neg hnot, List.append_nil]

/-- An operation that neither clears nor adds anything may be left out. -/
theorem gathered_concat_of_still (hclear : op.isClear = false) (hbytes : op.bytes = []) :
    gathered (operations ++ [op]) origin = gathered operations origin := by
  by_cases h : Through operations origin op
  · rw [gathered_concat_of_adds hclear h, hbytes, List.append_nil]
  · exact gathered_concat_of_not_through h

/-! ## What the buffers say -/

section

variable {s : SharedBuffers} {f : ByteArray → ByteArray} {buffer : Nat}

@[simp]
theorem handles_modify : (s.modify handle f).handles = s.handles := by
  unfold modify
  split <;> rfl

@[simp]
theorem size_contents_modify : (s.modify handle f).contents.size = s.contents.size := by
  unfold modify
  split <;> simp

theorem modify_of_none (h : s.handles[handle]? = none) : s.modify handle f = s := by
  simp [modify, h]

/-- What is done through one handle is done for every handle to the same buffer, and for no other. -/
theorem get?_modify {other : Nat} (h : s.handles[handle]? = some buffer) :
    (s.modify handle f).get? other =
      if s.handles[other]? = some buffer then (s.get? other).map f else s.get? other := by
  unfold get?
  rw [handles_modify]
  cases ho : s.handles[other]? with
  | none => simp
  | some b => simp [modify, h, Array.getElem?_modify, eq_comm]

end

/-- The buffers agree with what the operations say: handles have one buffer if they have one origin, and
it holds what was gathered for that origin. -/
structure Follows (operations : List Operation) (s : SharedBuffers) : Prop where
  size : s.handles.size = made operations
  inside : ∀ {handle buffer : Nat}, s.handles[handle]? = some buffer → buffer < s.contents.size
  shares : ∀ {handle other origin : Nat}, Origin operations handle origin →
    (s.handles[other]? = s.handles[handle]? ↔ Origin operations other origin)
  contents : ∀ {handle origin : Nat}, Origin operations handle origin →
    s.get? handle = some (gathered operations origin).toByteArray

namespace Follows

variable {s : SharedBuffers}

theorem first : Follows [] start := by
  have hone : ∀ i, start.handles[i]? = if i = 0 then some 0 else none := by
    intro i
    cases i <;> rfl
  have horigin : ∀ {handle origin : Nat}, Origin [] handle origin ↔ handle = 0 ∧ origin = 0 := by
    intro handle origin
    rw [origin_iff]
    simp [origins, List.getElem?_singleton, eq_comm]
  constructor
  · rfl
  · intro handle buffer hbuffer
    rw [hone] at hbuffer
    split at hbuffer
    · cases hbuffer
      exact Nat.zero_lt_one
    · cases hbuffer
  · intro handle other origin ho
    obtain ⟨rfl, rfl⟩ := horigin.mp ho
    rw [horigin, hone, hone]
    simp
  · intro handle origin ho
    obtain ⟨rfl, rfl⟩ := horigin.mp ho
    rfl

theorem exists_origin (h : Follows operations s) {buffer : Nat}
    (hbuffer : s.handles[handle]? = some buffer) : ∃ origin, Origin operations handle origin := by
  apply SharedBuffers.exists_origin
  rw [← h.size]
  exact (Array.getElem?_eq_some_iff.mp hbuffer).1

theorem not_origin (h : Follows operations s) (hnone : s.handles[handle]? = none) :
    ¬ Origin operations handle origin := by
  intro ho
  have hlt := ho.handle_lt
  have hle := Array.getElem?_eq_none_iff.mp hnone
  rw [h.size] at hle
  omega

/-- An operation that makes no handle and changes nothing. -/
theorem still (h : Follows operations s) (hkept : op.origins (origins operations) = origins operations)
    (hsame : ∀ {origin}, gathered (operations ++ [op]) origin = gathered operations origin) :
    Follows (operations ++ [op]) s where
  size := h.size.trans (made_concat_of_kept hkept).symm
  inside := h.inside
  shares ho := by
    rw [origin_concat_of_kept hkept] at ho ⊢
    exact h.shares ho
  contents ho := by
    rw [origin_concat_of_kept hkept] at ho
    rw [hsame]
    exact h.contents ho

/-- An operation that changes the bytes of one buffer. -/
theorem modify (h : Follows operations s) {shared : Nat} (hop : op.handle? = some shared)
    {f : ByteArray → ByteArray} (hkept : op.origins (origins operations) = origins operations)
    (hf : ∀ {origin}, Through operations origin op →
      (gathered (operations ++ [op]) origin).toByteArray = f (gathered operations origin).toByteArray) :
    Follows (operations ++ [op]) (s.modify shared f) := by
  cases hs : s.handles[shared]? with
  | none =>
    rw [modify_of_none hs]
    apply h.still hkept
    intro origin
    apply gathered_concat_of_not_through
    rw [through_iff hop]
    exact h.not_origin hs
  | some buffer =>
    constructor
    · rw [handles_modify, h.size, made_concat_of_kept hkept]
    · intro handle b hb
      rw [handles_modify] at hb
      rw [size_contents_modify]
      exact h.inside hb
    · intro handle other origin ho
      rw [origin_concat_of_kept hkept] at ho ⊢
      rw [handles_modify]
      exact h.shares ho
    · intro handle origin ho
      rw [origin_concat_of_kept hkept] at ho
      have hthrough : s.handles[handle]? = some buffer ↔ Through operations origin op := by
        rw [through_iff hop, ← h.shares ho, hs, eq_comm]
      rw [get?_modify hs, h.contents ho]
      by_cases ht : Through operations origin op
      · rw [if_pos (hthrough.mpr ht), Option.map_some, hf ht]
      · rw [if_neg (mt hthrough.mp ht), gathered_concat_of_not_through ht]

theorem getElem?_push (h : Follows operations s) (buffer : Nat) :
    (s.handles.push buffer)[handle]? =
      if handle = made operations then some buffer else s.handles[handle]? := by
  rw [Array.getElem?_push, h.size]

theorem share_of_none (h : Follows operations s) {shared : Nat}
    (hnone : s.handles[shared]? = none) : Follows (operations ++ [.share shared]) s := by
  apply h.still
  · have hle := Array.getElem?_eq_none_iff.mp hnone
    rw [h.size, ← length_origins] at hle
    simp [Operation.origins, hle]
  · exact gathered_concat_of_still rfl rfl

/-- What a further handle sees is what the handle sees that it was made from: each field is the field
before, at the handle that stands in for this one. -/
theorem share_of_some (h : Follows operations s) {shared buffer : Nat}
    (hs : s.handles[shared]? = some buffer) :
    Follows (operations ++ [.share shared]) { s with handles := s.handles.push buffer } := by
  have hstandIn : ∀ handle : Nat,
      (s.handles.push buffer)[handle]? = s.handles[standIn operations shared handle]? := by
    intro handle
    rw [h.getElem?_push, standIn]
    split
    · exact hs.symm
    · rfl
  constructor
  · obtain ⟨origin, ho⟩ := h.exists_origin hs
    rw [Array.size_push, h.size, ho.made_share]
  · intro handle b hb
    rw [hstandIn] at hb
    exact h.inside hb
  · intro handle other origin ho
    rw [origin_share_iff] at ho ⊢
    rw [hstandIn, hstandIn]
    exact h.shares ho
  · intro handle origin ho
    rw [origin_share_iff] at ho
    rw [gathered_concat_of_still rfl rfl, ← h.contents ho]
    simp only [get?, hstandIn]

theorem create (h : Follows operations s) :
    Follows (operations ++ [.create]) (s.perform .create) := by
  have hfresh : ∀ handle : Nat, s.handles[handle]? ≠ some s.contents.size := by
    intro handle hb
    have hlt := h.inside hb
    omega
  simp only [SharedBuffers.perform]
  constructor
  · rw [Array.size_push, h.size, made_concat, Operation.made]
  · intro handle b hb
    rw [h.getElem?_push] at hb
    rw [Array.size_push]
    split at hb
    · cases hb
      exact Nat.lt_succ_self _
    · exact Nat.lt_succ_of_lt (h.inside hb)
  · intro handle other origin ho
    rw [origin_create_iff] at ho ⊢
    rw [h.getElem?_push, h.getElem?_push]
    -- The old buffer is none of the new handle, and the new buffer is none of an old handle.
    cases ho with
    | inl ho =>
      rw [if_neg ho.handle_ne]
      by_cases hother : other = made operations
      · subst hother
        have hnot : ¬ Origin operations (made operations) origin := fun ho => ho.handle_ne rfl
        simp [hnot, ho.origin_ne, (hfresh handle).symm]
      · simp only [hother, if_false, false_and, or_false]
        exact h.shares ho
    | inr ho =>
      obtain ⟨rfl, rfl⟩ := ho
      have hnot : ¬ Origin operations other (made operations) := fun ho => ho.origin_ne rfl
      by_cases hother : other = made operations <;> simp [hother, hnot, hfresh]
  · intro handle origin ho
    rw [origin_create_iff] at ho
    rw [gathered_concat_of_still rfl rfl]
    simp only [get?, h.getElem?_push]
    cases ho with
    | inl ho =>
      rw [if_neg ho.handle_ne, ← h.contents ho, get?]
      cases hb : s.handles[handle]? with
      | none => rfl
      | some b =>
        have hlt := h.inside hb
        simp [Array.getElem?_push, Nat.ne_of_lt hlt]
    | inr ho =>
      obtain ⟨rfl, rfl⟩ := ho
      simp [gathered, heard_of_made_le (Nat.le_refl _)]

theorem perform (h : Follows operations s) (op : Operation) :
    Follows (operations ++ [op]) (s.perform op) := by
  cases op with
  | write handle bytes =>
    apply h.modify rfl rfl
    intro origin hthrough
    rw [gathered_concat_of_adds rfl hthrough, List.toByteArray_append]
    congr 1
    apply ByteArray.ext
    exact List.data_toByteArray
  | flush handle => exact h.still rfl (gathered_concat_of_still rfl rfl)
  | clear handle =>
    apply h.modify rfl rfl
    intro origin hthrough
    rw [gathered_concat_of_isClear hthrough rfl]
    rfl
  | share handle =>
    simp only [SharedBuffers.perform]
    cases hs : s.handles[handle]? with
    | none => exact h.share_of_none hs
    | some buffer => exact h.share_of_some hs
  | create => exact h.create

end Follows

theorem follows_foldl (operations : List Operation) :
    Follows operations (operations.foldl perform start) := by
  induction operations using List.reverseRecOn with
  | nil => exact Follows.first
  | append_singleton operations op ih =>
    rw [List.foldl_append]
    exact ih.perform op

/-- Whatever is done through the handles, a handle sees the bytes that were written through all handles
with its origin since one of them last cleared the buffer, in the order in which they were written. What
is done through other handles changes nothing of that. So a text is read back from any handle, however
its bytes were cut up. -/
theorem handles_share_by_origin (operations : List Operation) :
    let s := operations.foldl perform start
    (∀ handle bytes, s.get? handle = some bytes ↔
      ∃ origin, Origin operations handle origin ∧ bytes = (gathered operations origin).toByteArray) ∧
    (∀ handle origin op, Origin operations handle origin → ¬ Through operations origin op →
      (s.perform op).get? handle = s.get? handle) ∧
    (∀ handle origin text, Origin operations handle origin →
      (gathered operations origin).toByteArray = text.toUTF8 →
      (s.get? handle).map Text.decodeLossy = some text) := by
  intro s
  have hs : Follows operations s := follows_foldl operations
  refine ⟨?_, ?_, ?_⟩
  · intro handle bytes
    constructor
    · intro hget
      obtain ⟨buffer, hbuffer, -⟩ := Option.bind_eq_some_iff.mp hget
      obtain ⟨origin, ho⟩ := hs.exists_origin hbuffer
      rw [hs.contents ho] at hget
      exact ⟨origin, ho, (Option.some.inj hget).symm⟩
    · rintro ⟨origin, ho, rfl⟩
      exact hs.contents ho
  · intro handle origin op ho hnot
    rw [(hs.perform op).contents (ho.kept op), hs.contents ho, gathered_concat_of_not_through hnot]
  · intro handle origin text ho htext
    rw [hs.contents ho, htext, Option.map_some, Text.decodeLossy_toUTF8]

/-- A character of two bytes, each of them written through another handle. -/
theorem handles_share_split_character :
    let operations := [.share 0, .create, .write 0 ⟨#[0xC3]⟩, .write 2 ⟨#[0x21]⟩, .share 1,
      .write 3 ⟨#[0xA9]⟩]
    let s := operations.foldl perform start
    Origin operations 1 0 ∧ (gathered operations 0).toByteArray = "é".toUTF8 ∧
      ¬ Through operations 0 (.clear 2) ∧
      (s.get? 1).map Text.decodeLossy = some "é" ∧
      (s.perform (.clear 2)).get? 1 = s.get? 1 := by
  intro operations s
  have horigin : Origin operations 1 0 := by decide
  have hbytes : (gathered operations 0).toByteArray = "é".toUTF8 := by decide +kernel
  have hnot : ¬ Through operations 0 (.clear 2) := by decide
  obtain ⟨-, hother, htext⟩ := handles_share_by_origin operations
  exact ⟨horigin, hbytes, hnot, htext 1 0 _ horigin hbytes, hother 1 0 _ horigin hnot⟩

end SharedBuffers

end TapeLang
