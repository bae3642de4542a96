import SfcProxy.Proofs.Markup.Graph

/-!
# Reading behind a fault keeps script elements headed

All ways on behind a fault put trees on stacks of one graph, take them off again, join stacks and
give some up. Each of these keeps the graph sound and never takes a vertex or its state away, so
it leads from a sound recovery onward to a sound one. In the end every script element of a
document begins with its start tag, whatever faults the document has.

## Main definitions

* `Recovery.Sound`: graph, heads, tokens looked at and the best tree are sound
* `Recovery.Onward`: a sound recovery whose graph extends that of another

## Main results

* `Recovery.Sound.reduce`, `Recovery.Sound.meetFault`, `Recovery.Sound.advance`,
  `Recovery.Sound.condense`: each way on is sound
* `Recovery.Sound.runFrom`: so is a whole run
* `headed_treeOf`: the trees of every document are headed
-/

namespace SfcProxy.Markup

/-- A head stands at a vertex, and the token that it waits on is sound. -/
structure Head.Sound (g : StackGraph) (h : Head) : Prop where
  within : h.vertex < g.size
  look : ∀ look, h.status = .paused look → look.Sound

theorem Head.Sound.extends {g g' : StackGraph} {h : Head} (hh : h.Sound g) (he : g.Extends g') :
    h.Sound g' :=
  ⟨Nat.lt_of_lt_of_le hh.within he.size_le, hh.look⟩

namespace Recovery

/-- The graph, the heads, the last token looked at and the best tree are sound. -/
structure Sound (r : Recovery) : Prop where
  graph : r.graph.Sound
  heads : ∀ h ∈ r.heads, h.Sound r.graph
  recent : ∀ bytes memory look, r.recent = some (bytes, memory, look) → look.Sound
  finished : ∀ tree, r.finished = some tree → ∀ t ∈ tree.children, t.Headed

/-- A recovery is sound, and its graph extends that of another. -/
structure Onward (r r' : Recovery) : Prop where
  sound : r'.Sound
  extension : r.graph.Extends r'.graph

variable {r r' r'' : Recovery}

theorem Sound.onward (hr : r.Sound) : r.Onward r :=
  ⟨hr, .refl _⟩

theorem Onward.trans (h : r.Onward r') (h' : r'.Onward r'') : r.Onward r'' :=
  ⟨h'.sound, h.extension.trans h'.extension⟩

/-- Steps that lead onward one by one lead onward as a whole. -/
theorem foldl_onward {α : Type} (xs : List α) {f : Recovery → α → Recovery} (hr : r.Sound)
    (hf : ∀ r', r.Onward r' → ∀ x ∈ xs, r'.Onward (f r' x)) : r.Onward (xs.foldl f r) := by
  -- The induction is on the steps that are left, all of which are among `xs`.
  have h : ∀ ys : List α, (∀ y ∈ ys, y ∈ xs) → ∀ r', r.Onward r' → r.Onward (ys.foldl f r') := by
    intro ys
    induction ys with
    | nil => intro _ r' h; exact h
    | cons y ys ih =>
      intro hys r' h
      exact ih (fun z hz => hys z (by simp [hz])) _ (h.trans (hf r' h y (hys y (by simp))))
  exact h xs (fun _ hx => hx) r hr.onward

/-! ## Heads -/

theorem state_of_getElem? {i : Nat} {h : Head} (hi : r.heads[i]? = some h) :
    r.state i = (r.graph.vertex h.vertex).state := by
  simp [state, hi, Head.top]

theorem Sound.head (hr : r.Sound) {i : Nat} {h : Head} (hi : r.heads[i]? = some h) :
    h.Sound r.graph :=
  hr.heads h (List.mem_of_getElem? hi)

theorem Sound.regular (hr : r.Sound) (i : Nat) : (r.state i).Regular := by
  cases hi : r.heads[i]? with
  | none =>
    intro n ho
    simp only [state, hi, Option.map_none, Option.getD_none] at ho
    cases ho
  | some h =>
    rw [state_of_getElem? hi]
    exact hr.graph.regular _

/-- Other heads on the same graph. -/
theorem Sound.withHeads (hr : r.Sound) (heads : List Head) (hh : ∀ h ∈ heads, h.Sound r.graph) :
    r.Onward { r with heads } :=
  ⟨⟨hr.graph, hh, hr.recent, hr.finished⟩, .refl _⟩

/-- The same heads on a graph that extends the old one. -/
theorem Sound.withGraph (hr : r.Sound) {graph : StackGraph} (hg : graph.Sound)
    (he : r.graph.Extends graph) : r.Onward { r with graph } :=
  ⟨⟨hg, fun h hh => (hr.heads h hh).extends he, hr.recent, hr.finished⟩, he⟩

theorem Sound.modifyHead (hr : r.Sound) {i : Nat} {f : Head → Head}
    (hf : ∀ h, h.Sound r.graph → (f h).Sound r.graph) : r.Onward (r.modifyHead i f) := by
  refine hr.withHeads _ fun h hh => ?_
  obtain ⟨j, hj⟩ := List.mem_iff_getElem?.mp hh
  rw [List.getElem?_modify] at hj
  obtain ⟨old, hold, rfl⟩ := Option.map_eq_some_iff.mp hj
  have hs := hr.head hold
  split
  · exact hf old hs
  · exact hs

theorem Sound.halt (hr : r.Sound) (i : Nat) : r.Onward (r.halt i) :=
  hr.modifyHead fun _ hh => ⟨hh.within, fun look hl => by cases hl⟩

theorem Sound.removeHead (hr : r.Sound) (i : Nat) : r.Onward (r.removeHead i) :=
  hr.withHeads _ fun h hh => hr.heads h (List.mem_of_mem_eraseIdx hh)

theorem Sound.replaceHead (hr : r.Sound) (new old : Nat) : r.Onward (r.replaceHead new old) := by
  unfold Recovery.replaceHead
  split
  · rename_i a b ha hb
    split
    · exact hr.onward
    · refine hr.withHeads _ fun h hh => ?_
      rcases List.mem_or_eq_of_mem_set (List.mem_of_mem_eraseIdx hh) with hh | rfl
      · exact hr.heads h hh
      · exact ⟨(hr.head ha).within, (hr.head ha).look⟩
  · exact hr.onward

theorem Sound.standingOf (hr : r.Sound) (i : Nat) : r.Onward (r.standingOf i).2 :=
  hr.modifyHead fun _ hh => ⟨hh.within, hh.look⟩

/-! ## Stacks -/

/-- Puts a link on the stack of a head. -/
theorem Sound.pushLink (hr : r.Sound) (i : Nat) {h : Head}
    {tree? : Option Tree} {state : State} (hl : r.graph.LinkSound state ⟨h.vertex, tree?⟩)
    {f : Head → Head} (hf : ∀ h, (f h).vertex = r.graph.size ∧ (f h).status = h.status) :
    r.Onward ({ r with graph := (r.graph.push h.vertex tree? state).1 }.modifyHead i f) := by
  have hpush := hr.withGraph (StackGraph.push_sound hr.graph hl) (.push _ _)
  refine hpush.trans (hpush.sound.modifyHead fun old hold => ⟨?_, ?_⟩)
  · rw [(hf old).1]
    simp
  · rw [(hf old).2]
    exact hold.look

theorem Sound.push (hr : r.Sound) {i : Nat} {tree : Tree} {s : State} (ht : tree.Headed)
    (hl : (r.state i).Leads tree s) : r.Onward (r.push i tree s) := by
  unfold Recovery.push
  split
  · exact hr.onward
  · rename_i h hi
    rw [state_of_getElem? hi] at hl
    exact hr.pushLink i ⟨(hr.head hi).within, by rintro _ ⟨⟩; exact ht,
      by rintro _ ⟨⟩; exact hl, by simp⟩ fun h => ⟨rfl, rfl⟩

theorem Sound.pushFault (hr : r.Sound) (i : Nat) : r.Onward (r.pushFault i) := by
  unfold Recovery.pushFault
  split
  · exact hr.onward
  · rename_i h hi
    exact hr.pushLink i ⟨(hr.head hi).within, by simp, by simp, fun _ => rfl⟩
      fun h => ⟨rfl, rfl⟩

theorem Sound.merge? (hr : r.Sound) {i j : Nat} (h : r.merge? i j = some r') : r.Onward r' := by
  unfold Recovery.merge? at h
  split at h
  · rename_i a b ha hb
    split at h
    · rename_i hagree
      obtain rfl := Option.some.inj h
      have hjoin : r.graph.joinable a.vertex b.vertex = true := by
        simp only [Head.agrees, Bool.and_eq_true] at hagree
        exact hagree.1.2
      obtain ⟨hs, he⟩ := StackGraph.join_sound hr.graph (hr.head ha).within hjoin
      have hg := hr.withGraph hs he
      have hm := hg.sound.modifyHead (i := i)
        (f := fun h => if ((r.graph.join a.vertex b.vertex).vertex a.vertex).state = State.fault
          then { h with mark := ((r.graph.join a.vertex b.vertex).vertex a.vertex).weight }
          else h) fun h hh => by
        split
        · exact ⟨hh.within, hh.look⟩
        · exact hh
      exact hg.trans (hm.trans (hm.sound.removeHead j))
    · cases h
  · cases h

theorem Sound.mergeInto? (hr : r.Sound) {j : Nat} {others : List Nat}
    (h : r.mergeInto? j others = some r') : r.Onward r' := by
  obtain ⟨i, -, hi⟩ := List.exists_of_findSome?_eq_some h
  exact hr.merge? hi

theorem Sound.isOutdoneBy (hr : r.Sound) (i : Nat) (standing : Standing) (others : List Nat) :
    r.Onward (isOutdoneBy i standing others r).2 := by
  induction others generalizing r with
  | nil => exact hr.onward
  | cons j others ih =>
    have hst := hr.standingOf j
    rw [Recovery.isOutdoneBy]
    split
    · split
      · exact ih hr
      · dsimp only
        split
        · exact hst
        · split
          · exact hst
          · exact hst.trans (ih hst.sound)
        · exact hst.trans (ih hst.sound)
    · exact hr.onward

theorem Sound.isOutdone (hr : r.Sound) (i cost : Nat) : r.Onward (r.isOutdone i cost).2 := by
  unfold Recovery.isOutdone
  split
  · exact hr.onward
  · have hst := hr.standingOf i
    exact hst.trans (hst.sound.isOutdoneBy _ _ _)

/-- A new head on top of a stack that was added to. -/
theorem Sound.addHead (hr : r.Sound) {result : StackGraph × Nat}
    (hp : StackGraph.Pushed r.graph result) (mark : Nat) (memory : Memory) :
    r.Onward { r with
      graph := result.1, heads := r.heads ++ [⟨result.2, mark, memory, .active, none⟩] } := by
  have hg := hr.withGraph hp.sound hp.extension
  refine hg.trans (hg.sound.withHeads _ fun h hh => ?_)
  rcases List.mem_append.mp hh with hh | hh
  · exact hg.sound.heads h hh
  · rw [List.mem_singleton.mp hh]
    exact ⟨hp.within, fun look hl => by cases hl⟩

/-! ## Putting phrases together -/

/-- A phrase with the trees behind it that are passed over. -/
structure Composed (symbol : Symbol) (composed : Tree × List Tree) : Prop where
  headed : composed.1.Headed
  symbol_eq : composed.1.symbol = symbol
  counts : composed.1.isExtra = false
  extras : ∀ t ∈ composed.2, t.Headed ∧ t.isExtra = true

theorem composed_branch {phrase : Phrase} {trees : List Tree} (ht : ∀ t ∈ trees, t.Headed)
    (ho : phrase = .scriptElement → StackGraph.BeginsWithTag trees) :
    Composed (.phrase phrase)
      (Tree.branch (.phrase phrase) (withoutExtras trees).1, (withoutExtras trees).2) := by
  obtain ⟨hparts, hextras⟩ := headed_withoutExtras ht
  refine ⟨Tree.headed_branch ?_ hparts, rfl, rfl, hextras⟩
  intro hp
  obtain ⟨tag, rest, rfl, hx, hsym⟩ := ho (Symbol.phrase.inj hp)
  obtain ⟨rest', hrest⟩ := withoutExtras_cons hx rest
  exact ⟨tag, rest', hrest, hsym⟩

theorem bestOf?_composed {phrase : Phrase} {sequences : List (List Tree)} {best : Tree × List Tree}
    (ht : ∀ ts ∈ sequences, ∀ t ∈ ts, t.Headed)
    (ho : phrase = .scriptElement → ∀ ts ∈ sequences, StackGraph.BeginsWithTag ts)
    (h : bestOf? (.phrase phrase) sequences = some best) : Composed (.phrase phrase) best := by
  cases sequences with
  | nil => cases h
  | cons first others =>
    obtain rfl := Option.some.inj h
    have hfirst := composed_branch (ht first (by simp)) fun hp => ho hp first (by simp)
    have hbetter : ∀ ts ∈ others, ∀ old, Composed (.phrase phrase) old →
        Composed (.phrase phrase) (better (.phrase phrase) old ts) := by
      intro ts hts old hold
      unfold better
      dsimp only
      split
      · exact composed_branch (ht ts (by simp [hts])) fun hp => ho hp ts (by simp [hts])
      · exact hold
    exact List.foldlRecOn others _ hfirst fun old hold ts hts => hbetter ts hts old hold

/-- The state behind a phrase, or a fault where there is none. -/
theorem leads_goto {s : State} {t : Tree} {phrase : Phrase} (hx : t.isExtra = false)
    (hs : t.symbol = .phrase phrase) : s.Leads t ((s.goto? phrase).getD .fault) := by
  cases h : s.goto? phrase with
  | none => exact .afresh (.inl rfl)
  | some s' => exact .goto hx hs h

theorem Sound.reduceSlice (hr : r.Sound) (i : Nat) (parent : Head) (limit : Nat) {phrase : Phrase}
    {slice : StackGraph.Slice} (hv : slice.vertex < r.graph.size)
    (ht : ∀ ts ∈ slice.sequences, ∀ t ∈ ts, t.Headed)
    (ho : phrase = .scriptElement → ∀ ts ∈ slice.sequences, StackGraph.BeginsWithTag ts) :
    r.Onward (r.reduceSlice i parent limit phrase slice) := by
  unfold Recovery.reduceSlice
  dsimp only
  split
  · exact hr.onward
  split
  · exact hr.onward
  · rename_i tree extras hbest
    have hc := bestOf?_composed ht ho hbest
    have hpushed := StackGraph.pushAll_sound (tree :: extras)
      (s := ((r.graph.vertex slice.vertex).state.goto? phrase).getD .fault) hr.graph hv
      (by simpa using ⟨hc.headed, fun t hu => (hc.extras t hu).1⟩)
      (by rintro t ⟨⟩; exact leads_goto hc.counts hc.symbol_eq)
      (fun t hu => (hc.extras t hu).2)
    have hnew := hr.addHead hpushed parent.mark parent.memory
    cases hmerge : Recovery.mergeInto? r.heads.length
        ((List.range r.heads.length).filter (· ≠ i)) _ with
    | none => exact hnew
    | some merged => exact hnew.trans (hnew.sound.mergeInto? hmerge)

/-- Putting the last trees of a head together leads onward; for a script element the head has to
be in a state of one. -/
theorem Sound.reduce (hr : r.Sound) (i : Nat) {phrase : Phrase} {size : Nat}
    (ho : phrase = .scriptElement → (r.state i).Opens size) :
    r.Onward (r.reduce i phrase size) := by
  unfold Recovery.reduce
  split
  · exact hr.onward
  · rename_i parent hi
    have hslices := StackGraph.slices_sound hr.graph (hr.head hi).within size
    refine foldl_onward _ hr fun r' hon slice hslice => ?_
    obtain ⟨hv, ht⟩ := hslices slice hslice
    refine hon.sound.reduceSlice i parent _ (Nat.lt_of_lt_of_le hv hon.extension.size_le) ht ?_
    -- The slices were cut from the graph at the start, where the state of the head is known.
    intro hp
    have hopens := ho hp
    rw [state_of_getElem? hi] at hopens
    exact (StackGraph.slices_opens hr.graph hopens slice hslice).2

/-- The heads of one recovery stand at the same vertices in another, which may have more. -/
def Keeps (r r' : Recovery) : Prop :=
  ∀ (k : Nat) (h : Head), r.heads[k]? = some h →
    ∃ h', r'.heads[k]? = some h' ∧ h'.vertex = h.vertex

theorem Keeps.refl (r : Recovery) : r.Keeps r :=
  fun _ h hk => ⟨h, hk, rfl⟩

theorem Keeps.trans (h : r.Keeps r') (h' : r'.Keeps r'') : r.Keeps r'' := by
  intro k head hk
  obtain ⟨head', hk', hv'⟩ := h k head hk
  obtain ⟨head'', hk'', hv''⟩ := h' k head' hk'
  exact ⟨head'', hk'', hv''.trans hv'⟩

theorem Onward.state_eq (h : r.Onward r') (hk : r.Keeps r') (hr : r.Sound) (i : Nat)
    (hi : i < r.heads.length) : r'.state i = r.state i := by
  have hget := List.getElem?_eq_getElem hi
  obtain ⟨head', hget', hv⟩ := hk i _ hget
  rw [state_of_getElem? hget, state_of_getElem? hget', hv]
  exact h.extension.state_eq _ (hr.head hget).within

theorem merge?_keeps {i j : Nat} (h : r.merge? i j = some r') {k : Nat} (hk : k < j) {head : Head}
    (hget : r.heads[k]? = some head) : ∃ h', r'.heads[k]? = some h' ∧ h'.vertex = head.vertex := by
  unfold Recovery.merge? at h
  split at h
  · split at h
    · obtain rfl := Option.some.inj h
      simp only [Recovery.removeHead, Recovery.modifyHead, List.getElem?_eraseIdx_of_lt hk,
        List.getElem?_modify, hget]
      refine ⟨_, rfl, ?_⟩
      split
      · split <;> rfl
      · rfl
    · cases h
  · cases h

theorem reduceSlice_keeps (i : Nat) (parent : Head) (limit : Nat) (phrase : Phrase)
    (slice : StackGraph.Slice) : r.Keeps (r.reduceSlice i parent limit phrase slice) := by
  intro k head hget
  have hk : k < r.heads.length := (List.getElem?_eq_some_iff.mp hget).1
  unfold Recovery.reduceSlice
  dsimp only
  split
  · exact ⟨head, hget, rfl⟩
  split
  · exact ⟨head, hget, rfl⟩
  · have hget' : ∀ new : Head, (r.heads ++ [new])[k]? = some head := fun new => by
      rw [List.getElem?_append_left hk, hget]
    cases hmerge : Recovery.mergeInto? r.heads.length
        ((List.range r.heads.length).filter (· ≠ i)) _ with
    | none => exact ⟨head, hget' _, rfl⟩
    | some merged =>
      obtain ⟨j, -, hj⟩ := List.exists_of_findSome?_eq_some hmerge
      exact merge?_keeps hj hk (hget' _)

theorem reduce_keeps (i : Nat) (phrase : Phrase) (size : Nat) :
    r.Keeps (r.reduce i phrase size) := by
  unfold Recovery.reduce
  split
  · exact .refl r
  · refine List.foldlRecOn (motive := r.Keeps) _ _ (.refl r) ?_
    intro r' hk slice _
    exact hk.trans (reduceSlice_keeps _ _ _ _ _)

/-- A phrase that is complete before some token is so in a state that calls for it. -/
theorem opens_of_mem_reductions {s : State} {t : Option Token} {n : Nat}
    (h : (.scriptElement, n) ∈ reductions s t) : s.Opens n := by
  unfold reductions at h
  dsimp only at h
  rw [List.mem_eraseDups] at h
  obtain ⟨token, -, ht⟩ := List.mem_filterMap.mp h
  split at ht
  · rename_i phrase size haction
    split at ht
    · obtain ⟨rfl, rfl⟩ := Prod.mk.inj (Option.some.inj ht)
      exact State.opens_of_action? haction
    · cases ht
  · cases ht

theorem Sound.sweep (hr : r.Sound) {i : Nat} (hi : i < r.heads.length)
    (phrases : List (Phrase × Nat))
    (ho : ∀ n, (.scriptElement, n) ∈ phrases → (r.state i).Opens n) :
    r.Onward (sweep i phrases r).recovery := by
  have h : r.Onward (Recovery.sweep i phrases r).recovery ∧
      r.Keeps (Recovery.sweep i phrases r).recovery := by
    refine List.foldlRecOn (motive := fun s : Sweep => r.Onward s.recovery ∧ r.Keeps s.recovery)
      phrases _ ⟨hr.onward, .refl r⟩ ?_
    rintro s ⟨hon, hk⟩ ⟨phrase, size⟩ hmem
    have hred : s.recovery.Onward (s.recovery.reduce i phrase size) := by
      refine hon.sound.reduce i fun hp => ?_
      rw [hon.state_eq hk hr i hi]
      exact ho size (hp ▸ hmem)
    exact ⟨hon.trans hred, hk.trans (reduce_keeps _ _ _)⟩
  exact h.1

theorem Sound.reduceAllFrom (start base : Nat) (t : Option Token) (budget : Nat) :
    ∀ {r : Recovery} {shifts : Bool} {turn i : Nat}, r.Sound →
      r.Onward (reduceAllFrom start base t shifts turn i r budget).2 := by
  induction budget with
  | zero => intro r shifts turn i hr; exact hr.onward
  | succ budget ih =>
    intro r shifts turn i hr
    rw [Recovery.reduceAllFrom]
    dsimp only
    split
    · exact hr.onward
    rename_i hlen
    split
    · rename_i merged hmerge
      have hm := hr.mergeInto? hmerge
      exact hm.trans (ih hm.sound)
    -- After the sweep the head stays, gives way to the last one made, or is taken away.
    · have hs := hr.sweep (i := i) (Nat.lt_of_not_le hlen) (reductions (r.state i) t)
        fun n hn => opens_of_mem_reductions hn
      have hremove := hs.sound.removeHead i
      split
      · exact hs.trans (ih hs.sound)
      split
      · rename_i last _
        split
        · have hrep := hs.sound.replaceHead last i
          exact hs.trans (hrep.trans (ih hrep.sound))
        · split
          · exact hs.trans (hremove.trans (ih hremove.sound))
          · exact hs.trans (ih hs.sound)
      · split
        · exact hs.trans (hremove.trans (ih hremove.sound))
        · exact hs.trans (ih hs.sound)

theorem Sound.reduceAll (hr : r.Sound) (i : Nat) (t : Option Token) :
    r.Onward (r.reduceAll i t).2 :=
  Sound.reduceAllFrom _ _ _ _ hr

/-! ## Getting over a fault -/

theorem Sound.note (hr : r.Sound) {tree : Tree} (ht : ∀ t ∈ tree.children, t.Headed) :
    r.Onward (r.note tree) := by
  refine ⟨⟨hr.graph, hr.heads, hr.recent, fun best hbest => ?_⟩, .refl _⟩
  cases hold : r.finished with
  | none =>
    obtain rfl : tree = best := by simpa [Recovery.note, hold] using hbest
    exact ht
  | some old =>
    simp only [Recovery.note, hold] at hbest
    split at hbest <;> obtain rfl := Option.some.inj hbest
    · exact ht
    · exact hr.finished old hold

theorem Sound.accept (hr : r.Sound) (i : Nat) {look : Lookahead} (hl : look.Sound) :
    r.Onward (r.accept i look) := by
  unfold Recovery.accept
  -- Behind the end nothing is read any more, so the state there may be any that starts afresh.
  have hpush : r.Onward (r.push i look.tree .start) := hr.push hl.headed (.afresh (.inr rfl))
  dsimp only
  split
  · exact hpush
  · rename_i h hi
    have hwhole := StackGraph.wholeSlices_sound hpush.sound.graph (hpush.sound.head hi).within
    have hnotes := foldl_onward
      (((r.push i look.tree .start).graph.wholeSlices h.vertex).flatMap
        (fun slice => slice.sequences) |>.filterMap rootOf?) hpush.sound
      (f := fun r tree => r.note tree) fun r' hon root hroot => by
        obtain ⟨trees, htrees, hr⟩ := List.mem_filterMap.mp hroot
        obtain ⟨slice, hslice, hseq⟩ := List.mem_flatMap.mp htrees
        exact hon.sound.note (rootOf?_headed ((hwhole slice hslice).2 trees hseq) hr)
    exact hpush.trans (hnotes.trans (hnotes.sound.halt i))

/-- Where a fault that goes on from a vertex begins, and what is in it already. -/
def faultStart (g : StackGraph) (i : Nat) : Nat × List Tree :=
  match g.faultOnTop? i with
  | some (vertex, fault) => (vertex, fault.children)
  | none => (i, [])

theorem faultStart_sound {g : StackGraph} (hg : g.Sound) {i : Nat} (hi : i < g.size) :
    (faultStart g i).1 < g.size ∧ (∀ t ∈ (faultStart g i).2, t.Headed) ∧
      ∀ t, t.isExtra = true →
        (g.vertex (faultStart g i).1).state.Leads t (g.vertex i).state := by
  cases h : g.faultOnTop? i with
  | none =>
    simp only [faultStart, h]
    exact ⟨hi, by simp, fun t hx => .extra hx⟩
  | some found =>
    obtain ⟨hv, hf, hleads⟩ := StackGraph.faultOnTop?_sound hg hi h
    simp only [faultStart, h]
    exact ⟨hv, fun t ht => hf.of_mem_children ht, hleads⟩

theorem headed_of_mem_headD {sequences : List (List Tree)}
    (ht : ∀ ts ∈ sequences, ∀ t ∈ ts, t.Headed) {t : Tree} (h : t ∈ sequences.headD []) :
    t.Headed := by
  cases sequences with
  | nil => cases h
  | cons first _ => exact ht first (by simp) t h

theorem headed_fault {trees : List Tree} (ht : ∀ t ∈ trees, t.Headed) :
    (Tree.branch .fault trees).Headed :=
  Tree.headed_branch (fun hs => by cases hs) ht

/-- Trees that are given up, as a fault and the trees behind it. -/
def givenUp (trees : List Tree) : List Tree :=
  (if (withoutExtras trees).1.isEmpty then []
    else [(Tree.branch .fault (withoutExtras trees).1).withExtra true]) ++ (withoutExtras trees).2

theorem of_mem_givenUp {trees : List Tree} (ht : ∀ t ∈ trees, t.Headed) {t : Tree}
    (h : t ∈ givenUp trees) : t.Headed ∧ t.isExtra = true := by
  obtain ⟨hparts, hextras⟩ := headed_withoutExtras ht
  rcases List.mem_append.mp h with h | h
  · split at h
    · cases h
    · rw [List.mem_singleton.mp h]
      exact ⟨(headed_fault hparts).withExtra true, by simp⟩
  · exact hextras t h

theorem Sound.recoverSlice (hr : r.Sound) (parent : Head) (goal : State)
    {slice : StackGraph.Slice} (hv : slice.vertex < r.graph.size)
    (ht : ∀ ts ∈ slice.sequences, ∀ t ∈ ts, t.Headed) :
    r.Onward (r.recoverSlice parent goal slice) := by
  unfold Recovery.recoverSlice
  split
  · exact hr.onward
  · rename_i hgoal
    obtain ⟨hstart, hbefore, hleads⟩ := faultStart_sound hr.graph hv
    rw [Classical.not_not.mp hgoal] at hleads
    have hgiven : ∀ t ∈ (faultStart r.graph slice.vertex).2 ++ slice.sequences.headD [],
        t.Headed := by
      intro t hu
      rcases List.mem_append.mp hu with hu | hu
      · exact hbefore t hu
      · exact headed_of_mem_headD ht hu
    have hpushed := StackGraph.pushAll_sound _ (s := goal) hr.graph hstart
      (fun t hu => (of_mem_givenUp hgiven hu).1)
      (fun t hu => hleads t (of_mem_givenUp hgiven (List.mem_of_mem_head? hu)).2)
      (fun t hu => (of_mem_givenUp hgiven (List.mem_of_mem_tail hu)).2)
    exact hr.addHead hpushed parent.mark parent.memory

theorem Sound.recoverTo (hr : r.Sound) (i depth : Nat) (goal : State) :
    r.Onward (r.recoverTo i depth goal) := by
  unfold Recovery.recoverTo
  split
  · exact hr.onward
  · rename_i parent hi
    have hslices := StackGraph.slices_sound hr.graph (hr.head hi).within depth
    refine foldl_onward _ hr fun r' hon slice hslice => ?_
    obtain ⟨hv, ht⟩ := hslices slice hslice
    exact hon.sound.recoverSlice parent goal (Nat.lt_of_lt_of_le hv hon.extension.size_le) ht

theorem Sound.recoverAt (hr : r.Sound) (i : Nat) (look : Lookahead) (cost extra count : Nat)
    (marks : List Landmark) : r.Onward (r.recoverAt i look cost extra count marks) := by
  induction marks generalizing r with
  | nil => exact hr.onward
  | cons mark marks ih =>
    rw [Recovery.recoverAt]
    dsimp only
    split
    · exact ih hr
    · have ho := hr.isOutdone i
        (landmarkCost cost (mark.depth + extra) (r.before i) mark)
      have hto := ho.sound.recoverTo i (mark.depth + extra) mark.state
      split
      · exact ho
      split
      · split
        · exact ho.trans hto
        · exact ho.trans (hto.trans (ih hto.sound))
      · exact ho.trans (ih ho.sound)

theorem headed_faultRun {trees : List Tree} (ht : ∀ t ∈ trees, t.Headed) :
    (Tree.branch .faultRun trees).Headed :=
  Tree.headed_branch (fun hs => by cases hs) ht

theorem headed_skippedPart {look : Lookahead} (hl : look.Sound) : (skippedPart look).Headed := by
  refine headed_faultRun fun t ht => ?_
  rw [List.mem_singleton.mp ht]
  split
  · exact hl.headed.withExtra true
  · exact hl.headed

/-- The fault goes on below what came off the stack, or a new part of it is put on top. -/
theorem Sound.putPart (hr : r.Sound) (i : Nat) {part : Tree} (hp : part.Headed)
    {slice? : Option StackGraph.Slice}
    (hs : ∀ slice, slice? = some slice → slice.vertex < r.graph.size ∧
      ∀ ts ∈ slice.sequences, ∀ t ∈ ts, t.Headed) :
    r.Onward (r.putPart i part slice?) := by
  cases slice? with
  | none => exact hr.push hp (.afresh (.inl rfl))
  | some slice =>
    obtain ⟨hv, ht⟩ := hs slice rfl
    have hmove := hr.modifyHead (i := i) (f := fun h => { h with vertex := slice.vertex })
      fun h hh => ⟨hv, hh.look⟩
    refine hmove.trans (hmove.sound.push (headed_faultRun fun t hu => ?_) (.afresh (.inl rfl)))
    rcases List.mem_append.mp hu with hu | hu
    · exact headed_of_mem_headD ht hu
    · rw [List.mem_singleton.mp hu]
      exact hp

theorem Sound.remember (hr : r.Sound) (i : Nat) (memory : Memory) :
    r.Onward (r.remember i memory) := by
  cases memory with
  | none => exact hr.onward
  | some memory => exact hr.modifyHead fun h hh => ⟨hh.within, hh.look⟩

theorem Sound.skip (hr : r.Sound) (i : Nat) {look : Lookahead} (hl : look.Sound) (grows : Bool) :
    r.Onward (r.skip i look grows) := by
  have hput : r.Onward (r.putPart i (skippedPart look)
      (if grows then r.topSlice? i else none)) := by
    refine hr.putPart i (headed_skippedPart hl) fun slice hslice => ?_
    split at hslice
    · obtain ⟨h, hi, htop⟩ := Option.bind_eq_some_iff.mp hslice
      exact StackGraph.slices_sound hr.graph (hr.head hi).within 1 slice
        (List.mem_of_mem_head? htop)
    · cases hslice
  exact hput.trans (hput.sound.remember i _)

theorem Sound.recover (hr : r.Sound) (i : Nat) {look : Lookahead} (hl : look.Sound) :
    r.Onward (r.recover i look) := by
  unfold Recovery.recover
  have hst := hr.standingOf i
  dsimp only
  generalize hmarks : (if look.symbol = .fault then [] else _) = marks
  generalize hcost : (Option.map _ _).getD 0 = cost
  generalize (if 0 < (Recovery.standingOf i r).1.progress then 1 else 0) = extra
  have hat := hst.sound.recoverAt i look cost extra r.heads.length marks
  have hr' := hst.trans hat
  split
  · have hpush := hat.sound.push (i := i) (s := .start)
      (headed_fault (List.forall_mem_nil _)) (.afresh (.inr rfl))
    exact hr'.trans (hpush.trans (hpush.sound.accept i hl))
  split
  · exact hr'.trans (hat.sound.halt i)
  · have ho := hat.sound.isOutdone i (cost + skippedCost + stretchCost look.tree.total)
    split
    · exact hr'.trans (ho.trans (ho.sound.halt i))
    · exact hr'.trans (ho.trans (ho.sound.skip i hl _))

/-- A token that may be missing is taken in where the state changes with it. -/
theorem leads_missing {s s' : State} {t : Token} (h : s.next? t = some s') (hne : s' ≠ s) :
    s.Leads (.missing t) s' := by
  unfold State.next? at h
  split at h
  · exact absurd (Option.some.inj h).symm hne
  · exact .shift rfl rfl h

theorem Sound.addMissing (hr : r.Sound) (i : Nat) (look : Lookahead) (tokens : List Token) :
    r.Onward (addMissing i look tokens r).2 := by
  induction tokens generalizing r with
  | nil => exact hr.onward
  | cons t tokens ih =>
    rw [Recovery.addMissing]
    dsimp only
    split
    · rename_i next h hnext hi
      obtain ⟨hnext, hfits⟩ := Option.filter_eq_some_iff.mp hnext
      have hne : next ≠ r.state i := by
        split at hfits
        · simpa using hfits
        · cases hfits
      have hcopy := hr.withHeads (r.heads ++ [{ h with landmarks := none }]) fun h' hh => by
        rcases List.mem_append.mp hh with hh | hh
        · exact hr.heads h' hh
        · rw [List.mem_singleton.mp hh]
          exact ⟨(hr.head hi).within, (hr.head hi).look⟩
      have hstate : Recovery.state
          { r with heads := r.heads ++ [{ h with landmarks := none }] } r.heads.length
            = r.state i := by
        rw [state_of_getElem? hi, state_of_getElem? (h := { h with landmarks := none })]
        simp
      have hpush := hcopy.sound.push (i := r.heads.length) (Tree.headed_missing t)
        (hstate ▸ leads_missing hnext hne)
      refine hcopy.trans (hpush.trans ?_)
      generalize Recovery.push r.heads.length (.missing t) next _ = pushed at hpush ⊢
      have hall : ∀ following, pushed.Onward
          (if (pushed.reduceAll r.heads.length following).1 then
            (true, (pushed.reduceAll r.heads.length following).2)
          else Recovery.addMissing i look tokens
            (pushed.reduceAll r.heads.length following).2).2 := by
        intro following
        have hreduced := hpush.sound.reduceAll r.heads.length following
        split
        · exact hreduced
        · exact hreduced.trans (ih hreduced.sound)
      exact hall _
    · exact ih hr

theorem Sound.startFaults (hr : r.Sound) (look : Lookahead) (added : Bool) (others : List Nat) :
    r.Onward (startFaults look added others r) := by
  induction others generalizing r added with
  | nil => exact hr.onward
  | cons i others ih =>
    rw [Recovery.startFaults]
    have hadd : r.Onward (if added then (true, r) else r.addMissing i look Token.all).2 := by
      split
      · exact hr.onward
      · exact hr.addMissing i look _
    have hpush := hadd.sound.pushFault i
    exact hadd.trans (hpush.trans (ih hpush.sound _))

theorem Sound.meetFault (hr : r.Sound) (i : Nat) {look : Lookahead} (hl : look.Sound) :
    r.Onward (r.meetFault i look) := by
  unfold Recovery.meetFault
  dsimp only
  generalize hmade : (List.range _).filter _ = made
  have hall := hr.reduceAll i none
  have hstart := hall.sound.startFaults look false (i :: made)
  have hmerge := foldl_onward made hstart.sound
    (f := fun r' _ => (r'.merge? i r.heads.length).getD r') fun r' hon _ _ => by
      cases hm : r'.merge? i r.heads.length with
      | none => exact hon.sound.onward
      | some merged => exact hon.sound.merge? hm
  have hmarks := fun g => hmerge.sound.modifyHead (i := i)
    (f := fun h => { h with landmarks := some (landmarksOf g h.vertex) })
    fun h hh => ⟨hh.within, hh.look⟩
  exact hall.trans (hstart.trans (hmerge.trans
    ((hmarks _).trans ((hmarks _).sound.recover i hl))))

/-! ## One head at a time -/

theorem Sound.lookAt (hr : r.Sound) (h : Head) :
    (r.lookAt h).1.Sound ∧ r.Onward (r.lookAt h).2 := by
  have hfresh : ∀ (state : State) (advanced : Bool) (place : Place),
      (Lookahead.read state advanced h.memory place).Sound ∧
        r.Onward { r with recent := some ((h.top r.graph).before.bytes, h.memory,
          Lookahead.read state advanced h.memory place) } := by
    intro state advanced place
    have hl := Lookahead.read_sound state advanced h.memory place
    exact ⟨hl, ⟨hr.graph, hr.heads, by rintro _ _ _ ⟨⟩; exact hl, hr.finished⟩, .refl _⟩
  unfold Recovery.lookAt
  dsimp only
  split
  · rename_i bytes memory look hrecent
    split
    · exact ⟨hr.recent bytes memory look hrecent, hr.onward⟩
    · exact hfresh _ _ _
  · exact hfresh _ _ _

theorem Sound.shift (hr : r.Sound) {i : Nat} {tree : Tree} {s : State} (ht : tree.Headed)
    (hl : (r.state i).Leads tree s) : r.Onward (r.shift i tree s) := by
  have hpush := hr.push ht hl
  exact hpush.trans (hpush.sound.modifyHead fun h hh => ⟨hh.within, hh.look⟩)

theorem Sound.pause (hr : r.Sound) (i : Nat) {look : Lookahead} (hl : look.Sound) :
    r.Onward (r.pause i look) :=
  hr.modifyHead fun h hh => ⟨hh.within, by rintro _ ⟨⟩; exact hl⟩

theorem Sound.advanceWith (hr : r.Sound) (i : Nat) {look : Lookahead} (hl : look.Sound)
    (budget : Nat) : r.Onward (r.advanceWith i look budget) := by
  induction budget generalizing r with
  | zero => exact hr.halt i
  | succ budget ih =>
    rw [Recovery.advanceWith]
    dsimp only
    split
    · rename_i next h
      exact hr.shift hl.headed (hl.leads h)
    · exact hr.shift (hl.headed.withExtra true) (.extra (by simp))
    · rename_i phrase size h
      have hred : r.Onward (r.reduce i phrase size) := by
        refine hr.reduce i ?_
        rintro rfl
        exact State.opens_of_actionOn? h
      split
      · have hrep := hred.sound.replaceHead r.heads.length i
        exact hred.trans (hrep.trans (ih hrep.sound))
      · exact hred.trans (hred.sound.halt i)
    · exact hr.accept i hl
    · exact hr.recover i hl
    · split
      · exact hr.recover i hl
      · exact hr.pause i hl

theorem Sound.advance (hr : r.Sound) (i : Nat) : r.Onward (r.advance i) := by
  unfold Recovery.advance
  split
  · exact hr.onward
  · rename_i h hi
    obtain ⟨hl, hlook⟩ := hr.lookAt h
    exact hlook.trans (hlook.sound.advanceWith i hl _)

theorem Sound.advanceOn (hr : r.Sound) (i reached budget : Nat) :
    r.Onward (r.advanceOn i reached budget).2 := by
  induction budget generalizing r with
  | zero => exact hr.onward
  | succ budget ih =>
    rw [Recovery.advanceOn]
    have hadv := hr.advance i
    split
    · dsimp only
      split
      · exact hadv
      · exact hadv.trans (ih hadv.sound)
    · exact hr.onward

theorem Sound.advanceAll (hr : r.Sound) (i reached budget : Nat) :
    r.Onward (r.advanceAll i reached budget).2 := by
  induction budget generalizing r i reached with
  | zero => exact hr.onward
  | succ budget ih =>
    rw [Recovery.advanceAll]
    have hadv := hr.advanceOn i reached (2 * r.source.length + 64)
    split
    · exact hr.onward
    · exact hadv.trans (ih hadv.sound _ _)

/-! ## All heads together -/

theorem Sound.compareWith (hr : r.Sound) (standing : Standing) (i j budget : Nat) :
    r.Onward (r.compareWith standing i j budget).2 := by
  induction budget generalizing r i j with
  | zero => exact hr.onward
  | succ budget ih =>
    rw [Recovery.compareWith]
    have hst := hr.standingOf j
    split
    · exact hr.onward
    dsimp only
    have hremove := fun k => hst.sound.removeHead k
    split
    · exact hst.trans (hremove i)
    · split
      · rename_i hm
        exact hst.trans (hst.sound.merge? hm)
      · exact hst.trans (ih hst.sound _ _)
    · split
      · rename_i hm
        exact hst.trans (hst.sound.merge? hm)
      · exact hst.trans (ih hst.sound _ _)
    · split
      · rename_i hm
        exact hst.trans (hst.sound.merge? hm)
      · rename_i a b _ ha hb
        have hswap := hst.sound.withHeads
          (((r.standingOf j).2.heads.set i b).set j a) fun h hh => by
            rcases List.mem_or_eq_of_mem_set hh with hh | rfl
            · rcases List.mem_or_eq_of_mem_set hh with hh | rfl
              · exact hst.sound.heads h hh
              · exact hst.sound.head hb
            · exact hst.sound.head ha
        exact hst.trans (hswap.trans (ih hswap.sound _ _))
      · exact hst
    · exact hst.trans ((hremove j).trans (ih (hremove j).sound _ _))

theorem Sound.compareAll (hr : r.Sound) (least : Option Nat) (i budget : Nat) :
    r.Onward (r.compareAll least i budget).2 := by
  induction budget generalizing r least i with
  | zero => exact hr.onward
  | succ budget ih =>
    rw [Recovery.compareAll]
    split
    · exact hr.onward
    · split
      · have hremove := hr.removeHead i
        exact hremove.trans (ih hremove.sound _ _)
      · have hst := hr.standingOf i
        have hcmp := hst.sound.compareWith (r.standingOf i).1 i 0
          (2 * (r.standingOf i).2.heads.length + 2)
        exact hst.trans (hcmp.trans (ih hcmp.sound _ _))

theorem Sound.resume (hr : r.Sound) (going : Bool) (least : Option Nat) (i left : Nat) :
    r.Onward (r.resume going least i left).2 := by
  induction left generalizing r going least i with
  | zero => exact hr.onward
  | succ left ih =>
    rw [Recovery.resume]
    split
    · exact hr.onward
    · rename_i h hi
      split
      · rename_i look hpaused
        split
        · have hactive := hr.modifyHead (i := i) (f := fun h => { h with status := .active })
            fun h hh => ⟨hh.within, fun look hl => by cases hl⟩
          have hmeet := hactive.sound.meetFault i ((hr.head hi).look look hpaused)
          exact hactive.trans (hmeet.trans (ih hmeet.sound _ _ _))
        · have hremove := hr.removeHead i
          exact hremove.trans (ih hremove.sound _ _ _)
      · exact ih hr _ _ _

theorem Sound.condense (hr : r.Sound) : r.Onward r.condense.2 := by
  have hcmp := hr.compareAll none 0 (2 * r.heads.length + 2)
  have htake := hcmp.sound.withHeads
    ((r.compareAll none 0 (2 * r.heads.length + 2)).2.heads.take maxHeads)
    fun h hh => hcmp.sound.heads h (List.mem_of_mem_take hh)
  exact hcmp.trans (htake.trans (htake.sound.resume _ _ _ _))

/-- A run of rounds leads onward. -/
theorem Sound.runFrom (hr : r.Sound) (reached budget : Nat) :
    r.Onward (r.runFrom reached budget) := by
  induction budget generalizing r reached with
  | zero => exact hr.onward
  | succ budget ih =>
    rw [Recovery.runFrom]
    have hadv := hr.advanceAll 0 reached 256
    have hcond := hadv.sound.condense
    dsimp only
    split
    · exact hadv.trans hcond
    · exact hadv.trans (hcond.trans (ih hcond.sound _))

theorem sound_start (source : List Char) {reading : Reading} (hr : reading.Sound)
    {look : Lookahead} (hl : look.Sound) : (start source reading look).Sound := by
  obtain ⟨hpushed, -⟩ := StackGraph.ofFrames_sound hr.stack
  refine ⟨hpushed.sound, fun h hh => ?_, by rintro _ _ _ ⟨⟩; exact hl, by simp [start]⟩
  rw [List.mem_singleton.mp hh]
  exact ⟨hpushed.within, by rintro _ ⟨⟩; exact hl⟩

end Recovery

/-- Every script element of a document begins with its start tag. -/
theorem headed_treeOf (source : List Char) : ∀ t ∈ (treeOf source).children, t.Headed := by
  have hrun := Reading.run_sound source
  unfold treeOf
  split
  · rename_i tree h
    rw [h] at hrun
    exact hrun
  · rename_i reading look h
    rw [h] at hrun
    have hon := (Recovery.sound_start source hrun.1 hrun.2).runFrom
      reading.place.before.bytes (16 * source.length + 64)
    cases hfin : Recovery.run source reading look with
    | none => simp [Tree.branch, Tree.children]
    | some tree => exact hon.sound.finished tree hfin

end SfcProxy.Markup
