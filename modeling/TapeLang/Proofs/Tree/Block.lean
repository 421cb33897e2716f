import TapeLang.Proofs.Brackets.Check
import TapeLang.Proofs.Machine.Visit

/-! Programs as trees: what a text means if its brackets are read as nested loops.

A block is a sequence of actions and loops, without comments and without brackets. `Parses` is the
grammar that reads a text as a block: a text has a block exactly if it is balanced (`Parses.balanced`,
`Balanced.parses`), and then one block only (`Parses.unique`). `Eval` is the big-step meaning of a
block. A loop runs its body for as long as the current cell is not zero, and a call that the host
refuses ends the evaluation. A block that runs for ever has no evaluation. -/
namespace TapeLang
set_option autoImplicit false

/-! ## Blocks and their texts -/

/-- A sequence of actions and loops. -/
inductive Block where
  | done
  | act (action : Action) (rest : Block)
  | loop (body rest : Block)
  deriving DecidableEq

/-- The text reads as the block. -/
inductive Parses : List Char → Block → Prop
  | nil : Parses [] .done
  | comment {ch : Char} {text : List Char} {tree : Block} (ht : Token.ofChar ch = .comment)
      (hr : Parses text tree) : Parses (ch :: text) tree
  | act {ch : Char} {a : Action} {text : List Char} {rest : Block}
      (ht : Token.ofChar ch = .action a) (hr : Parses text rest) :
      Parses (ch :: text) (.act a rest)
  | loop {inner text : List Char} {body rest : Block} (hb : Parses inner body)
      (hr : Parses text rest) : Parses ('[' :: (inner ++ ']' :: text)) (.loop body rest)

theorem Parses.balanced {text : List Char} {tree : Block} (h : Parses text tree) :
    Balanced text := by
  induction h with
  | nil => exact Balanced.nil
  | comment ht _ ih | act ht _ ih =>
    refine Balanced.other ?_ ?_ ih
    · rintro rfl
      cases ht
    · rintro rfl
      cases ht
  | loop _ _ ihBody ihRest => exact Balanced.loop ihBody ihRest

theorem Balanced.parses {text : List Char} (h : Balanced text) : ∃ tree, Parses text tree := by
  induction h with
  | nil => exact ⟨_, Parses.nil⟩
  | @other ch text hopen hclose _ ih =>
    obtain ⟨tree, htree⟩ := ih
    cases ht : Token.ofChar ch with
    | comment => exact ⟨_, Parses.comment ht htree⟩
    | action a => exact ⟨_, Parses.act ht htree⟩
    | bracket b =>
      cases b with
      | opening => exact absurd (Token.eq_open_of_ofChar ht) hopen
      | closing => exact absurd (Token.eq_close_of_ofChar ht) hclose
  | loop _ _ ihBody ihRest =>
    obtain ⟨body, hbody⟩ := ihBody
    obtain ⟨rest, hrest⟩ := ihRest
    exact ⟨_, Parses.loop hbody hrest⟩

theorem Balanced.split_unique {a b s t : List Char} (ha : Balanced a) (hb : Balanced b)
    (h : a ++ ']' :: s = b ++ ']' :: t) : a = b ∧ s = t := by
  have hlen : a.length = b.length := by
    have h1 := Program.unmatchedFrom_balanced ha (']' :: s) 0 []
    have h2 := Program.unmatchedFrom_balanced hb (']' :: t) 0 []
    rw [Program.unmatchedFrom_surplus, Nat.zero_add] at h1 h2
    rw [h, h2] at h1
    exact (Option.some.inj h1).symm
  obtain ⟨hab, hst⟩ := List.append_inj h hlen
  exact ⟨hab, (List.cons.inj hst).2⟩

theorem Parses.unique {text : List Char} {tree tree' : Block} (h : Parses text tree)
    (h' : Parses text tree') : tree = tree' := by
  induction h generalizing tree' with
  | nil =>
    cases h'
    rfl
  | comment ht _ ih =>
    cases h' with
    | comment _ hr => exact ih hr
    | act ht' _ =>
      rw [ht] at ht'
      cases ht'
    | loop _ _ => cases ht
  | act ht _ ih =>
    cases h' with
    | comment ht' _ =>
      rw [ht] at ht'
      cases ht'
    | act ht' hr =>
      rw [ht] at ht'
      cases ht'
      rw [ih hr]
    | loop _ _ => cases ht
  | @loop inner text body rest hb _ ihBody ihRest =>
    generalize hs : '[' :: (inner ++ ']' :: text) = s at h'
    cases h' with
    | nil => cases hs
    | comment ht' _ =>
      cases hs
      cases ht'
    | act ht' _ =>
      cases hs
      cases ht'
    | loop hb' hr' =>
      obtain ⟨rfl, rfl⟩ := hb.balanced.split_unique hb'.balanced (List.cons.inj hs).2
      rw [ihBody hb', ihRest hr']

/-! ## Evaluation -/

/-- The evaluation of a block from a configuration ends with a result and a configuration. -/
inductive Eval {η : Type} [Host η] : Block → Config η → Except Fault Unit × Config η → Prop
  | done (c : Config η) : Eval .done c (.ok (), c)
  | act {a : Action} {rest : Block} {c c₁ : Config η} {r : Except Fault Unit × Config η}
      (ha : Action.perform c a = (.ok (), c₁)) (hr : Eval rest c₁ r) : Eval (.act a rest) c r
  | actFails {a : Action} {rest : Block} {c c₁ : Config η} {f : Fault}
      (ha : Action.perform c a = (.error f, c₁)) : Eval (.act a rest) c (.error f, c₁)
  | skip {body rest : Block} {c : Config η} {r : Except Fault Unit × Config η} (hz : c.cell = 0)
      (hr : Eval rest c r) : Eval (.loop body rest) c r
  | again {body rest : Block} {c c₁ : Config η} {r : Except Fault Unit × Config η}
      (hz : c.cell ≠ 0) (hb : Eval body c (.ok (), c₁)) (hr : Eval (.loop body rest) c₁ r) :
      Eval (.loop body rest) c r
  | bodyFails {body rest : Block} {c c₁ : Config η} {f : Fault} (hz : c.cell ≠ 0)
      (hb : Eval body c (.error f, c₁)) : Eval (.loop body rest) c (.error f, c₁)

end TapeLang
