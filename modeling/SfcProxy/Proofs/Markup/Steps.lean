import SfcProxy.Proofs.Markup.Opening

/-!
# Steps of reading

Reading without faults goes on token by token. A token that fits is taken in, once the phrases that
are complete before it are put together. Trees only say how long the stretches are that they stand
for, so they do not depend on where in a source these stretches are.

## Main definitions

* `Tree.ofToken`: the leaf of a token behind blanks
* `Reading.Reaches`: one reading comes to another in so many steps at most
* `Reading.Reduces`: phrases on a stack are put together before a token

## Main results

* `Place.move_append`, `Lookahead.leafOf_append`: the place and the leaf of a token
* `Reading.Reaches.token`: how a token is taken in
* `Reading.Reduces.phrase`: how a phrase is put together
* `Reading.Reaches.runFrom`: where reading ends
-/

namespace SfcProxy.Markup

/-! ## Lengths -/

namespace Extent

@[simp] theorem chars_add (a b : Extent) : (a + b).chars = a.chars + b.chars := rfl

theorem add_assoc (a b c : Extent) : a + b + c = a + (b + c) := by
  change Extent.mk _ _ _ = Extent.mk _ _ _
  rw [Extent.mk.injEq]
  exact ⟨Nat.add_assoc _ _ _, Nat.add_assoc _ _ _, Nat.add_assoc _ _ _⟩

theorem zero_add (a : Extent) : zero + a = a := by
  change Extent.mk _ _ _ = Extent.mk _ _ _
  rw [Extent.mk.injEq]
  exact ⟨Nat.zero_add _, Nat.zero_add _, Nat.zero_add _⟩

theorem add_sub_self (a b : Extent) : a + b - a = b := by
  change Extent.mk _ _ _ = Extent.mk _ _ _
  rw [Extent.mk.injEq]
  exact ⟨Nat.add_sub_cancel_left _ _, Nat.add_sub_cancel_left _ _, Nat.add_sub_cancel_left _ _⟩

theorem foldl_ofChar (extent : Extent) (cs : List Char) :
    cs.foldl (fun extent c => extent + ofChar c) extent = extent + ofChars cs := by
  unfold ofChars
  induction cs generalizing extent with
  | nil => rfl
  | cons c cs ih =>
    rw [List.foldl_cons, List.foldl_cons, ih, ih (zero + ofChar c), zero_add, add_assoc]

theorem ofChars_cons (c : Char) (cs : List Char) : ofChars (c :: cs) = ofChar c + ofChars cs := by
  rw [ofChars, List.foldl_cons, foldl_ofChar, zero_add]

theorem ofChars_append (cs ds : List Char) : ofChars (cs ++ ds) = ofChars cs + ofChars ds := by
  rw [ofChars, List.foldl_append, foldl_ofChar]
  rfl

@[simp] theorem chars_ofChars (cs : List Char) : (ofChars cs).chars = cs.length := by
  induction cs with
  | nil => rfl
  | cons c cs ih =>
    rw [ofChars_cons, chars_add, ih, List.length_cons, Nat.add_comm]
    rfl

end Extent

/-! ## Places -/

/-- The place behind a text is found by moving by its length. -/
theorem Place.move_append (before : Extent) (cs tail : List Char) :
    (Place.mk before (cs ++ tail)).move cs.length = ⟨before + .ofChars cs, tail⟩ := by
  induction cs generalizing before with
  | nil => rfl
  | cons c cs ih =>
    rw [List.length_cons, Place.move]
    dsimp only [List.cons_append]
    rw [ih, Extent.ofChars_cons, Extent.add_assoc]

/-! ## Tokens -/

/-- The leaf of a token with a text behind a gap. -/
def Tree.ofToken (t : Token) (gap body : List Char) (memory : Memory) : Tree :=
  .leaf (.token t) (.ofChars gap) (.ofChars body) memory

@[simp] theorem Tree.symbol_ofToken (t : Token) (gap body : List Char) (memory : Memory) :
    (ofToken t gap body memory).symbol = .token t := rfl

/-- The length of a token in a source. -/
@[simp] theorem Tree.chars_total_ofToken (t : Token) (gap body : List Char) (memory : Memory) :
    (ofToken t gap body memory).total.chars = gap.length + body.length := by
  simp [total, ofToken, leaf, facts]

theorem Tree.isExtra_ofToken {t : Token} (ht : t ≠ .finish) (gap body : List Char)
    (memory : Memory) : (ofToken t gap body memory).isExtra = false := by
  simp [ofToken, leaf, isExtra, facts, ht]

namespace Lookahead

theorem leafOf_append (before : Extent) (gap body tail : List Char) (t : Token) (kept : Memory) :
    leafOf ⟨before, gap ++ (body ++ tail)⟩ ⟨t, gap.length, body.length, kept⟩
      = .ofToken t gap body kept := by
  unfold leafOf Tree.ofToken
  dsimp only
  rw [Place.move_append, Place.move_append]
  dsimp only
  rw [Extent.add_sub_self, Extent.add_sub_self]

/-- In a state the next token is found at a place, a text behind a gap. -/
def Finds (state : State) (memory : Memory) (place : Place) (t : Token) (gap body : List Char)
    (kept : Memory) : Prop :=
  hit? state.lexicon state.outlook (admitsEmpty state true) memory place
    = some ⟨t, gap.length, body.length, kept⟩

theorem Finds.tree_read {state : State} {memory kept : Memory} {before : Extent} {t : Token}
    {gap body tail : List Char}
    (h : Finds state memory ⟨before, gap ++ (body ++ tail)⟩ t gap body kept) :
    (read state true memory ⟨before, gap ++ (body ++ tail)⟩).tree = .ofToken t gap body kept := by
  unfold read
  dsimp only
  rw [h, Option.some_or]
  exact leafOf_append before gap body tail t kept

end Lookahead

/-! ## Steps -/

namespace Reading

/-- One reading comes to another in so many steps at most. -/
inductive Reaches : Nat → Reading → Reading → Prop
  | refl (n : Nat) (r : Reading) : Reaches n r r
  | step {n : Nat} {r s t : Reading} (first : r.step = .inl s) (rest : Reaches n s t) :
      Reaches (n + 1) r t

namespace Reaches

variable {m n : Nat} {r s t : Reading}

theorem mono (h : Reaches m r s) (hle : m ≤ n) : Reaches n r s := by
  induction h generalizing n with
  | refl m r => exact .refl n r
  | step first rest ih =>
    obtain ⟨n, rfl⟩ :=
      Nat.exists_eq_add_of_le' (Nat.le_trans (Nat.succ_le_succ (Nat.zero_le _)) hle)
    exact .step first (ih (Nat.le_of_succ_le_succ hle))

theorem trans (h : Reaches m r s) (h' : Reaches n s t) : Reaches (m + n) r t := by
  induction h with
  | refl m r => exact h'.mono (Nat.le_add_left n m)
  | step first rest ih =>
    rw [Nat.add_right_comm]
    exact .step first (ih h')

/-- Reading ends where a reading that is reached ends, if there are steps enough. -/
theorem runFrom {outcome : Outcome} (h : Reaches n r s) (hend : s.step = .inr outcome)
    {budget : Nat} (hbudget : n < budget) : r.runFrom budget = outcome := by
  induction h generalizing budget with
  | refl n r =>
    obtain ⟨budget, rfl⟩ := Nat.exists_eq_add_of_lt (Nat.lt_of_le_of_lt (Nat.zero_le n) hbudget)
    rw [Nat.zero_add, Reading.runFrom, hend]
  | @step n _ _ _ first rest ih =>
    obtain ⟨budget, rfl⟩ := Nat.exists_eq_add_of_lt (Nat.lt_of_le_of_lt (Nat.zero_le _) hbudget)
    rw [Nat.zero_add] at hbudget ⊢
    rw [Reading.runFrom, first]
    exact ih hend (Nat.lt_of_succ_lt_succ hbudget)

end Reaches

theorem step_of_shift {r : Reading} {next : State}
    (h : r.state.actionOn? r.look.symbol = some (.shift next)) :
    r.step = .inl (r.shift next r.look.tree) := by
  unfold step
  dsimp only
  rw [h]

theorem step_of_reduce {r : Reading} {phrase : Phrase} {size : Nat}
    (h : r.state.actionOn? r.look.symbol = some (.reduce phrase size)) :
    r.step = ((r.reduce? phrase size r.look).map .inl).getD (.inr (.stuck r r.look)) := by
  unfold step
  dsimp only
  rw [h]

theorem step_of_accept {r : Reading} (h : r.state.actionOn? r.look.symbol = some .accept) :
    r.step = ((rootOf? ((r.look.tree :: r.frames.map Frame.tree).reverse)).map
      fun tree => .inr (.document tree)).getD (.inr (.stuck r r.look)) := by
  unfold step
  dsimp only
  rw [h]

theorem step_of_pass {r : Reading} (h : r.state.actionOn? r.look.symbol = some .pass) :
    r.step = .inl (r.shift r.state (r.look.tree.withExtra true)) := by
  unfold step
  dsimp only
  rw [h]

/-- A step does not depend on whether the next token was looked at before. -/
theorem step_of_looked {r s : Reading}
    (h : ({ r with look? := some r.look } : Reading).step = .inl s) : r.step = .inl s := by
  have hstepped := ({ r with look? := some r.look } : Reading).stepped_step
  rw [h] at hstepped
  cases hstepped with
  | shifted action => exact step_of_shift action
  | passed action => exact step_of_pass action
  | @reduced phrase size _ action reduce_eq =>
    have hreduce : r.reduce? phrase size r.look = some s := reduce_eq
    rw [step_of_reduce (r := r) action, hreduce]
    rfl

/-- Phrases on a stack are put together before a token in so many steps at most. -/
def Reduces (n : Nat) (t : Token) (frames frames' : List Frame) : Prop :=
  ∀ place memory look, look.symbol = .token t →
    Reaches n ⟨frames, place, memory, some look⟩ ⟨frames', place, memory, some look⟩

theorem Reduces.refl (n : Nat) (t : Token) (frames : List Frame) : Reduces n t frames frames :=
  fun _ _ _ _ => .refl n _

theorem Reduces.trans {m n : Nat} {t : Token} {frames frames' frames'' : List Frame}
    (h : Reduces m t frames frames') (h' : Reduces n t frames' frames'') :
    Reduces (m + n) t frames frames'' :=
  fun place memory look hlook => (h place memory look hlook).trans (h' place memory look hlook)

theorem Reduces.mono {m n : Nat} {t : Token} {frames frames' : List Frame}
    (h : Reduces m t frames frames') (hle : m ≤ n) : Reduces n t frames frames' :=
  fun place memory look hlook => (h place memory look hlook).mono hle

/-- What is reached with the next token at hand is reached without it, if there is a step to it. -/
theorem Reaches.of_looked {n : Nat} {r s : Reading} {frames : List Frame} {place : Place}
    {memory : Memory} (hr : r = ⟨frames, place, memory, none⟩)
    (h : Reaches n ⟨frames, place, memory, some r.look⟩ s)
    (hstep : s.state ≠ topState frames ∨ s.look? = none) : Reaches n r s := by
  generalize hlooked : (⟨frames, place, memory, some r.look⟩ : Reading) = r' at h
  cases h with
  | refl =>
    rw [← hlooked] at hstep
    rcases hstep with hstate | hnone
    · exact absurd rfl hstate
    · cases hnone
  | step first rest =>
    rw [← hlooked] at first
    refine .step (step_of_looked ?_) rest
    rw [← first]
    subst hr
    rfl

/-- **How a token is taken in**: it is found at the place, the phrases before it are put together,
and it is put on the stack. -/
theorem Reaches.token {n : Nat} {frames frames' : List Frame} {before : Extent}
    {gap body tail : List Char} {memory kept : Memory} {t : Token} {next : State}
    (hfinds : Lookahead.Finds (topState frames) memory ⟨before, gap ++ (body ++ tail)⟩ t gap body
      kept)
    (hreduces : Reduces n t frames frames')
    (hshift : (topState frames').action? t = some (.shift next)) :
    Reaches (n + 1) ⟨frames, ⟨before, gap ++ (body ++ tail)⟩, memory, none⟩
      ⟨⟨next, .ofToken t gap body kept⟩ :: frames', ⟨before + .ofChars (gap ++ body), tail⟩,
        kept.or memory, none⟩ := by
  generalize hr : Reading.mk frames ⟨before, gap ++ (body ++ tail)⟩ memory none = r
  have htree : r.look.tree = .ofToken t gap body kept := by
    rw [← hr]
    exact hfinds.tree_read
  have hsymbol : r.look.symbol = .token t := by
    rw [Lookahead.symbol, htree, Tree.symbol_ofToken]
  have hlast : (⟨frames', ⟨before, gap ++ (body ++ tail)⟩, memory, some r.look⟩ : Reading).step
      = .inl ⟨⟨next, .ofToken t gap body kept⟩ :: frames', ⟨before + .ofChars (gap ++ body), tail⟩,
        kept.or memory, none⟩ := by
    have haction : (topState frames').actionOn? r.look.symbol = some (.shift next) := by
      rw [hsymbol, State.actionOn?, hshift]
    rw [step_of_shift (r := ⟨frames', _, memory, some r.look⟩) haction]
    change Sum.inl (Reading.shift next r.look.tree _) = _
    rw [htree, shift, Tree.chars_total_ofToken, ← List.length_append]
    dsimp only
    rw [← List.append_assoc, Place.move_append]
    rfl
  exact .of_looked hr.symm ((hreduces _ _ _ hsymbol).trans (.step hlast (.refl 0 _))) (.inr rfl)

/-- **How reading ends**: the source ends at the place, and all that was read is put together to a
document. -/
theorem Reaches.accept {n : Nat} {frames : List Frame} {before : Extent} {gap : List Char}
    {memory : Memory} {document root : Tree}
    (hfinds : Lookahead.Finds (topState frames) memory ⟨before, gap ++ ([] ++ [])⟩ .finish gap []
      none)
    (hreduces : Reduces n .finish frames [⟨.finished, document⟩])
    (hstate : topState frames ≠ .finished)
    (hroot : rootOf? [document, .ofToken .finish gap [] none] = some root) :
    ∃ s, Reaches n ⟨frames, ⟨before, gap ++ ([] ++ [])⟩, memory, none⟩ s ∧
      s.step = .inr (.document root) := by
  generalize hr : Reading.mk frames ⟨before, gap ++ ([] ++ [])⟩ memory none = r
  have htree : r.look.tree = .ofToken .finish gap [] none := by
    rw [← hr]
    exact hfinds.tree_read
  have hsymbol : r.look.symbol = .token .finish := by
    rw [Lookahead.symbol, htree, Tree.symbol_ofToken]
  refine ⟨_, .of_looked hr.symm (hreduces _ _ _ hsymbol) (.inl hstate.symm), ?_⟩
  have haction : State.finished.actionOn? r.look.symbol = some .accept := by
    rw [hsymbol]
    rfl
  rw [step_of_accept (r := ⟨[⟨.finished, document⟩], _, memory, some r.look⟩) haction]
  change ((rootOf? [document, r.look.tree]).map fun tree => Sum.inr (Outcome.document tree)).getD _
    = _
  rw [htree, hroot]
  rfl

/-! ## Phrases -/

theorem takeOff_append {frames below : List Frame}
    (hframes : ∀ frame ∈ frames, frame.tree.isExtra = false) (taken : List Tree) :
    takeOff taken frames.length (frames ++ below)
      = ((frames.map Frame.tree).reverse ++ taken, below) := by
  induction frames generalizing taken with
  | nil => rw [List.length_nil, List.nil_append, takeOff]; rfl
  | cons frame frames ih =>
    have hframe := hframes frame List.mem_cons_self
    rw [List.length_cons, List.cons_append, takeOff, hframe, if_neg Bool.false_ne_true,
      ih fun other hother => hframes other (List.mem_cons_of_mem frame hother)]
    simp

theorem withoutExtras_eq {trees : List Tree} (h : ∀ t ∈ trees, t.isExtra = false) :
    withoutExtras trees = (trees, []) := by
  have hnone : trees.reverse.takeWhile Tree.isExtra = [] := by
    cases hlast : trees.reverse with
    | nil => rfl
    | cons t rest =>
      have ht := h t (List.mem_reverse.mp (hlast ▸ List.mem_cons_self))
      rw [List.takeWhile_cons_of_neg (by rw [ht]; exact Bool.false_ne_true)]
  rw [withoutExtras, hnone]
  simp

/-- **How a phrase is put together**: the last trees of the stack become its children. -/
theorem Reduces.phrase {t : Token} (frames below : List Frame) {phrase : Phrase} {next : State}
    (hframes : ∀ frame ∈ frames, frame.tree.isExtra = false)
    (haction : (topState (frames ++ below)).action? t = some (.reduce phrase frames.length))
    (hgoto : (topState below).goto? phrase = some next) :
    Reduces 1 t (frames ++ below)
      (⟨next, .branch (.phrase phrase) (frames.map Frame.tree).reverse⟩ :: below) := by
  intro place memory look hlook
  refine .step ?_ (.refl 0 _)
  have hplain : ∀ tree ∈ (frames.map Frame.tree).reverse, tree.isExtra = false := by
    intro tree htree
    obtain ⟨frame, hframe, rfl⟩ := List.mem_map.mp (List.mem_reverse.mp htree)
    exact hframes frame hframe
  have hreduce : (⟨frames ++ below, place, memory, some look⟩ : Reading).reduce? phrase
      frames.length look = some ⟨⟨next, .branch (.phrase phrase) (frames.map Frame.tree).reverse⟩
        :: below, place, memory, some look⟩ := by
    unfold Reading.reduce?
    rw [takeOff_append hframes, List.append_nil]
    dsimp only
    rw [withoutExtras_eq hplain]
    change ((topState below).goto? phrase).map _ = _
    rw [hgoto]
    rfl
  have haction' : (topState (frames ++ below)).actionOn? look.symbol
      = some (.reduce phrase frames.length) := by
    rw [hlook, State.actionOn?, haction]
  rw [step_of_reduce (r := ⟨frames ++ below, place, memory, some look⟩) haction']
  change ((reduce? phrase frames.length look ⟨frames ++ below, place, memory, some look⟩).map
    Sum.inl).getD _ = _
  rw [hreduce]
  rfl

end Reading

end SfcProxy.Markup
