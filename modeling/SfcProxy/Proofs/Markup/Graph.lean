import SfcProxy.Proofs.Markup.Opening

/-!
# Sound graphs of stacks

Behind a fault the stacks of all ways of reading share one graph. What holds of a single stack
holds of every path through the graph because it is a property of single links: each tree is
headed and leads from the state of the vertex below it to that of the vertex above it. Joining
two vertices moves links between vertices of one state, so it keeps this.

## Main definitions

* `StackGraph.LinkSound`, `StackGraph.Sound`: the property of a link, and of all links
* `StackGraph.Extends`: a graph with further vertices and links, but the same states

## Main results

* `StackGraph.push_sound`, `StackGraph.pushAll_sound`, `StackGraph.join_sound`: the operations on
  a graph keep it sound and only extend it
* `StackGraph.walk_induction`: what all walkers have, and so what a walk finds
* `StackGraph.slices_opens`: below a state of a script element its start tag comes off first
-/

namespace SfcProxy.Markup.StackGraph

/-! ## Vertices -/

theorem vertex_push_of_lt {g : StackGraph} {i : Nat} (h : i < g.size) (v : Vertex) :
    vertex (Array.push g v) i = g.vertex i := by
  simp [vertex, Array.getD, Array.getElem_push, h, Nat.lt_succ_of_lt h]

theorem vertex_push_size (g : StackGraph) (v : Vertex) : vertex (Array.push g v) g.size = v := by
  simp [vertex, Array.getD]

theorem vertex_of_size_le {g : StackGraph} {i : Nat} (h : g.size ≤ i) : g.vertex i = .root := by
  simp [vertex, Array.getD, Nat.not_lt.mpr h]

theorem vertex_set (g : StackGraph) (i j : Nat) (v : Vertex) :
    vertex (g.setIfInBounds i v) j = if i = j ∧ j < g.size then v else g.vertex j := by
  simp only [vertex, Array.getD, Array.size_setIfInBounds]
  by_cases hj : j < g.size
  · by_cases hij : i = j <;> simp [hj, hij]
  · simp [hj]

/-! ## Extensions -/

/-- One graph has at least the vertices of another, and they have the same states in it. -/
structure Extends (g g' : StackGraph) : Prop where
  size_le : g.size ≤ g'.size
  state_eq : ∀ i, i < g.size → (g'.vertex i).state = (g.vertex i).state

theorem Extends.refl (g : StackGraph) : g.Extends g :=
  ⟨Nat.le_refl _, fun _ _ => rfl⟩

theorem Extends.trans {g g' g'' : StackGraph} (h : g.Extends g') (h' : g'.Extends g'') :
    g.Extends g'' := by
  refine ⟨Nat.le_trans h.size_le h'.size_le, fun i hi => ?_⟩
  rw [h'.state_eq i (Nat.lt_of_lt_of_le hi h.size_le), h.state_eq i hi]

theorem Extends.push (g : StackGraph) (v : Vertex) : g.Extends (Array.push g v) :=
  ⟨by simp, fun _ hi => by rw [vertex_push_of_lt hi]⟩

/-- Changing a vertex but for its state extends a graph. -/
theorem Extends.set (g : StackGraph) (i : Nat) {v : Vertex} (hv : v.state = (g.vertex i).state) :
    g.Extends (g.setIfInBounds i v) := by
  refine ⟨by simp, fun j _ => ?_⟩
  rw [vertex_set]
  split
  · rename_i h
    rw [hv, h.1]
  · rfl

/-! ## Sound graphs -/

/-- A link below a state is sound: it leads to a vertex, its tree is headed and leads from there to
the state, and only a fault starts without a tree. -/
structure LinkSound (g : StackGraph) (s : State) (link : Link) : Prop where
  within : link.previous < g.size
  headed : ∀ t, link.tree? = some t → t.Headed
  leads : ∀ t, link.tree? = some t → (g.vertex link.previous).state.Leads t s
  fresh : link.tree? = none → s = .fault

/-- All links of a graph are sound. -/
structure Sound (g : StackGraph) : Prop where
  regular : ∀ i, (g.vertex i).state.Regular
  links : ∀ i, ∀ link ∈ (g.vertex i).links, g.LinkSound (g.vertex i).state link

theorem LinkSound.extends {g g' : StackGraph} {s : State} {link : Link} (h : g.LinkSound s link)
    (he : g.Extends g') : g'.LinkSound s link where
  within := Nat.lt_of_lt_of_le h.within he.size_le
  headed := h.headed
  leads t ht := by
    rw [he.state_eq _ h.within]
    exact h.leads t ht
  fresh := h.fresh

theorem LinkSound.regular {g : StackGraph} (hg : g.Sound) {s : State} {link : Link}
    (h : g.LinkSound s link) : s.Regular := by
  cases ht : link.tree? with
  | none =>
    rw [h.fresh ht]
    intro n ho
    cases ho
  | some t => exact (h.leads t ht).regular (hg.regular _)

theorem sound_root : Sound #[Vertex.root] := by
  have hroot : ∀ i, vertex #[Vertex.root] i = .root := by
    intro i
    cases i with
    | zero => rfl
    | succ i => exact vertex_of_size_le (by simp)
  refine ⟨fun i => ?_, fun i link hl => ?_⟩
  · rw [hroot i]
    exact State.regular_start
  · rw [hroot i] at hl
    simp [Vertex.root] at hl

theorem state_above (g : StackGraph) (previous : Nat) (tree? : Option Tree) (state : State) :
    (g.above previous tree? state).state = state := by
  cases tree? <;> rfl

theorem links_above (g : StackGraph) (previous : Nat) (tree? : Option Tree) (state : State) :
    (g.above previous tree? state).links = [⟨previous, tree?⟩] := by
  cases tree? <;> rfl

@[simp] theorem size_push (g : StackGraph) (previous : Nat) (tree? : Option Tree) (state : State) :
    (g.push previous tree? state).1.size = g.size + 1 :=
  Array.size_push _

/-- Putting a tree on a stack keeps the graph sound. -/
theorem push_sound {g : StackGraph} (hg : g.Sound) {previous : Nat} {tree? : Option Tree}
    {state : State} (hl : g.LinkSound state ⟨previous, tree?⟩) :
    (g.push previous tree? state).1.Sound := by
  have hext : g.Extends (g.push previous tree? state).1 := .push g _
  have hnew : (g.push previous tree? state).1.vertex g.size = g.above previous tree? state :=
    vertex_push_size g _
  refine ⟨fun i => ?_, fun i link hi => ?_⟩
  · rcases Nat.lt_trichotomy i g.size with h | rfl | h
    · rw [hext.state_eq i h]
      exact hg.regular i
    · rw [hnew, state_above]
      exact hl.regular hg
    · rw [vertex_of_size_le (by rw [size_push]; exact h)]
      exact State.regular_start
  · rcases Nat.lt_trichotomy i g.size with h | rfl | h
    · have hv : (g.push previous tree? state).1.vertex i = g.vertex i := vertex_push_of_lt h _
      rw [hv] at hi ⊢
      exact (hg.links i link hi).extends hext
    · rw [hnew, links_above, List.mem_singleton] at hi
      rw [hnew, state_above, hi]
      exact hl.extends hext
    · rw [vertex_of_size_le (by rw [size_push]; exact h)] at hi
      simp [Vertex.root] at hi

theorem state_push_size (g : StackGraph) (previous : Nat) (tree? : Option Tree) (state : State) :
    ((g.push previous tree? state).1.vertex g.size).state = state := by
  rw [show (g.push previous tree? state).1.vertex g.size = _ from vertex_push_size g _, state_above]

/-- What putting trees on a stack comes to: a sound graph with a new top. -/
structure Pushed (g : StackGraph) (result : StackGraph × Nat) : Prop where
  sound : result.1.Sound
  extension : g.Extends result.1
  within : result.2 < result.1.size

/-- Putting trees on a stack keeps the graph sound if the first leads to the common state and the
others are passed over in it. -/
theorem pushAll_sound (trees : List Tree) {s : State} :
    ∀ {g : StackGraph} {previous : Nat}, g.Sound → previous < g.size →
      (∀ t ∈ trees, t.Headed) →
      (∀ t ∈ trees.head?, (g.vertex previous).state.Leads t s) →
      (∀ t ∈ trees.tail, t.isExtra = true) →
      Pushed g (g.pushAll previous trees s) := by
  induction trees with
  | nil =>
    intro g previous hg hp _ _ _
    exact ⟨hg, .refl g, hp⟩
  | cons t trees ih =>
    intro g previous hg hp ht hhead htail
    have hlink : g.LinkSound s ⟨previous, some t⟩ :=
      { within := hp
        headed := by rintro _ ⟨⟩; exact ht t (by simp)
        leads := by rintro _ ⟨⟩; exact hhead t rfl
        fresh := by simp }
    have hrest : Pushed (g.push previous (some t) s).1
        ((g.push previous (some t) s).1.pushAll g.size trees s) := by
      refine ih (push_sound hg hlink) (by simp) (fun u hu => ht u (by simp [hu])) ?_ ?_
      · intro u hu
        rw [state_push_size]
        exact .extra (htail u (List.mem_of_mem_head? hu))
      · intro u hu
        exact htail u (List.mem_of_mem_tail hu)
    exact ⟨hrest.sound, (Extends.push g _).trans hrest.extension, hrest.within⟩

theorem ofFrames_sound {frames : List Frame} (h : SoundStack frames) :
    Pushed #[Vertex.root] (ofFrames frames) ∧
      ((ofFrames frames).1.vertex (ofFrames frames).2).state = topState frames := by
  induction h with
  | nil => exact ⟨⟨sound_root, .refl _, by simp [ofFrames]⟩, rfl⟩
  | @cons frame frames headed leads below ih =>
    obtain ⟨hpushed, htop⟩ := ih
    have hlink : (ofFrames frames).1.LinkSound frame.state
        ⟨(ofFrames frames).2, some frame.tree⟩ :=
      { within := hpushed.within
        headed := by rintro _ ⟨⟩; exact headed
        leads := by rintro _ ⟨⟩; rw [htop]; exact leads
        fresh := by simp }
    have hsize : (ofFrames (frame :: frames)).2 = (ofFrames frames).1.size := rfl
    have heq : (ofFrames (frame :: frames)).1
        = ((ofFrames frames).1.push (ofFrames frames).2 (some frame.tree) frame.state).1 := rfl
    refine ⟨⟨?_, ?_, ?_⟩, ?_⟩
    · rw [heq]
      exact push_sound hpushed.sound hlink
    · rw [heq]
      exact hpushed.extension.trans (.push _ _)
    · rw [heq, hsize]
      simp
    · rw [heq, hsize, state_push_size]
      rfl

/-! ## Joining -/

theorem state_eq_of_joinable {g : StackGraph} {i j : Nat} (h : g.joinable i j = true) :
    (g.vertex i).state = (g.vertex j).state := by
  simp only [joinable, Bool.and_eq_true, decide_eq_true_eq] at h
  exact h.1.1

/-- Changing the links of a vertex to others that are sound below its state keeps the graph
sound. -/
theorem set_sound {g : StackGraph} (hg : g.Sound) {i : Nat} {v : Vertex}
    (hv : v.state = (g.vertex i).state)
    (hl : ∀ link ∈ v.links, g.LinkSound (g.vertex i).state link) :
    Sound (g.setIfInBounds i v) := by
  have hext : g.Extends (g.setIfInBounds i v) := .set g i hv
  refine ⟨fun j => ?_, fun j link hj => ?_⟩
  · rw [vertex_set]
    split
    · rw [hv]
      exact hg.regular i
    · exact hg.regular j
  · rw [vertex_set] at hj ⊢
    split at hj
    · rename_i h
      rw [if_pos h, hv]
      exact (hl link hj).extends hext
    · rename_i h
      rw [if_neg h]
      exact (hg.links j link hj).extends hext

/-- Giving a vertex several links, one after the other, keeps the graph sound if giving it one
does. -/
theorem foldl_links_sound {add : StackGraph → Link → StackGraph} {i : Nat}
    (hadd : ∀ {g : StackGraph} {link : Link}, g.Sound → g.LinkSound (g.vertex i).state link →
      (add g link).Sound ∧ g.Extends (add g link)) (links : List Link) :
    ∀ {g : StackGraph}, g.Sound → i < g.size →
      (∀ link ∈ links, g.LinkSound (g.vertex i).state link) →
      (links.foldl add g).Sound ∧ g.Extends (links.foldl add g) := by
  induction links with
  | nil =>
    intro g hg _ _
    exact ⟨hg, .refl g⟩
  | cons link links ih =>
    intro g hg hi hl
    obtain ⟨hs, he⟩ := hadd hg (hl link (by simp))
    obtain ⟨hs', he'⟩ := ih hs (Nat.lt_of_lt_of_le hi he.size_le) fun l hl' => by
      rw [he.state_eq i hi]
      exact (hl l (by simp [hl'])).extends he
    exact ⟨hs', he.trans he'⟩

/-- Giving a vertex a link that is sound below its state keeps the graph sound. -/
theorem addLink_sound (budget : Nat) :
    ∀ {g : StackGraph} {i : Nat} {link : Link}, g.Sound →
      g.LinkSound (g.vertex i).state link →
      (addLink budget g i link).Sound ∧ g.Extends (addLink budget g i link) := by
  induction budget with
  | zero =>
    intro g i link hg _
    exact ⟨hg, .refl g⟩
  | succ budget ih =>
    intro g i link hg hl
    rw [addLink]
    split
    · exact ⟨hg, .refl g⟩
    dsimp only
    split
    · rename_i old hsame
      split
      · exact ⟨hg, .refl g⟩
      · -- The vertices behind the two links have one state, so the links of one suit the other.
        rename_i hne
        have hjoin : g.joinable old.previous link.previous = true := by
          have := List.find?_some hsame
          simp only [Bool.and_eq_true, Bool.or_eq_true, decide_eq_true_eq] at this
          exact this.2.resolve_left hne
        have hold := hg.links i old (List.mem_of_find?_eq_some hsame)
        refine foldl_links_sound ih _ hg hold.within fun l hl' => ?_
        rw [state_eq_of_joinable hjoin]
        exact hg.links _ l hl'
    · split
      · exact ⟨hg, .refl g⟩
      · refine ⟨set_sound hg rfl fun l hl' => ?_, .set g i rfl⟩
        rcases List.mem_append.mp hl' with hl' | hl'
        · exact hg.links i l hl'
        · rw [List.mem_singleton.mp hl']
          exact hl

/-- Joining two vertices of one state keeps the graph sound. -/
theorem join_sound {g : StackGraph} (hg : g.Sound) {i j : Nat} (hi : i < g.size)
    (hs : g.joinable i j = true) : (g.join i j).Sound ∧ g.Extends (g.join i j) := by
  refine foldl_links_sound (addLink_sound _) _ hg hi fun link hl => ?_
  rw [state_eq_of_joinable hs]
  exact hg.links j link hl

/-! ## Walking back -/

section Walk

variable {σ : Type} {g : StackGraph} {visit : σ → Walker → σ × Bool} {P : Walker → Prop}
  {Q : σ → Prop}

/-- One round keeps what a visit keeps. Those who went on and those who are new are collected in
lists that grow, so the statement is about all three lists. -/
theorem walkRound_induction (hvisit : ∀ found w, P w → Q found → Q (visit found w).1)
    (hfollow : ∀ found w link, P w → (visit found w).2 = false →
      link ∈ (g.vertex w.vertex).links → P (w.follow link)) :
    ∀ {waiting gone fresh : List Walker} {found : σ}, (∀ w ∈ waiting, P w) →
      (∀ w ∈ gone, P w) → (∀ w ∈ fresh, P w) → Q found →
      Q (g.walkRound visit waiting gone fresh found).1 ∧
        ∀ w ∈ (g.walkRound visit waiting gone fresh found).2, P w := by
  intro waiting
  induction waiting with
  | nil =>
    intro gone fresh found _ hgone hfresh hq
    rw [walkRound]
    refine ⟨hq, fun w hw => ?_⟩
    rcases List.mem_append.mp hw with hw | hw
    · exact hgone w (List.mem_reverse.mp hw)
    · exact hfresh w (List.mem_reverse.mp hw)
  | cons w waiting ih =>
    intro gone fresh found hwait hgone hfresh hq
    have hw : P w := hwait w (by simp)
    have hrest : ∀ w ∈ waiting, P w := fun v hv => hwait v (by simp [hv])
    have hq' : Q (visit found w).1 := hvisit found w hw hq
    rw [walkRound]
    dsimp only
    split
    · exact ih hrest hgone hfresh hq'
    · rename_i first others hlinks
      split
      · exact ih hrest hgone hfresh hq'
      · rename_i hstop
        have hnext : ∀ link ∈ first :: others, P (w.follow link) := fun link hl =>
          hfollow found w link hw (by simpa using hstop) (hlinks ▸ hl)
        refine ih hrest ?_ ?_ hq'
        · simpa using ⟨hnext first (by simp), hgone⟩
        · intro v hv
          rw [List.foldl_flip_cons_eq_append, List.mem_append, List.mem_reverse] at hv
          rcases hv with hv | hv
          · obtain ⟨link, hl, rfl⟩ := List.mem_map.mp hv
            exact hnext link (by simp [List.mem_of_mem_take hl])
          · exact hfresh v hv

theorem walkRounds_induction (hvisit : ∀ found w, P w → Q found → Q (visit found w).1)
    (hfollow : ∀ found w link, P w → (visit found w).2 = false →
      link ∈ (g.vertex w.vertex).links → P (w.follow link)) (budget : Nat) :
    ∀ {walkers : List Walker} {found : σ}, (∀ w ∈ walkers, P w) → Q found →
      Q (g.walkRounds visit budget walkers found) := by
  induction budget with
  | zero => intro walkers found _ hq; exact hq
  | succ budget ih =>
    intro walkers found hw hq
    cases walkers with
    | nil => exact hq
    | cons w walkers =>
      obtain ⟨hq', hw'⟩ := walkRound_induction hvisit hfollow hw
        (List.forall_mem_nil P) (List.forall_mem_nil P) hq
      exact ih hw' hq'

/-- What holds of the walker at the start and of every walker one link further holds of all
walkers, and so what a visit to such a walker keeps holds of what a walk finds. -/
theorem walk_induction (hvisit : ∀ found w, P w → Q found → Q (visit found w).1)
    (hfollow : ∀ found w link, P w → (visit found w).2 = false →
      link ∈ (g.vertex w.vertex).links → P (w.follow link)) {i : Nat} (hi : P ⟨i, [], 0⟩)
    {found : σ} (hq : Q found) : Q (g.walk visit i found) :=
  walkRounds_induction hvisit hfollow _ (by simpa using hi) hq

end Walk

/-! ## Trees that come off -/

/-- A walker stands at a vertex and has passed over headed trees. -/
structure Walker.Sound (g : StackGraph) (w : Walker) : Prop where
  within : w.vertex < g.size
  headed : ∀ t ∈ w.trees, t.Headed

theorem Walker.sound_start {g : StackGraph} {i : Nat} (hi : i < g.size) :
    Walker.Sound g ⟨i, [], 0⟩ :=
  ⟨hi, by simp⟩

theorem Walker.follow_of_extra {w : Walker} {link : Link} {t : Tree} (ht : link.tree? = some t)
    (hx : t.isExtra = true) : w.follow link = ⟨link.previous, t :: w.trees, w.count⟩ := by
  simp [Walker.follow, ht, hx]

theorem Walker.follow_of_counted {w : Walker} {link : Link} {t : Tree}
    (ht : link.tree? = some t) (hx : t.isExtra = false) :
    w.follow link = ⟨link.previous, t :: w.trees, w.count + 1⟩ := by
  simp [Walker.follow, ht, hx]

theorem Walker.Sound.follow {g : StackGraph} (hg : g.Sound) {w : Walker} (hw : w.Sound g)
    {link : Link} (hl : link ∈ (g.vertex w.vertex).links) : (w.follow link).Sound g := by
  have hlink := hg.links _ link hl
  unfold Walker.follow
  split
  · exact ⟨hlink.within, hw.headed⟩
  · rename_i t ht
    exact ⟨hlink.within, by simpa using ⟨hlink.headed t ht, hw.headed⟩⟩

/-- A property of vertices and one of sequences of trees hold of slices. -/
def SlicesHold (V : Nat → Prop) (S : List Tree → Prop) (slices : List Slice) : Prop :=
  ∀ slice ∈ slices, V slice.vertex ∧ ∀ ts ∈ slice.sequences, S ts

/-- What holds of a walker's vertex and trees still holds of all slices when it is noted. -/
theorem SlicesHold.noteSlice {V : Nat → Prop} {S : List Tree → Prop} {w : Walker}
    (hv : V w.vertex) (hs : S w.trees) {slices : List Slice} (h : SlicesHold V S slices) :
    SlicesHold V S (noteSlice w slices) := by
  induction slices with
  | nil =>
    intro slice hslice
    obtain rfl := List.mem_singleton.mp hslice
    exact ⟨hv, by simpa using hs⟩
  | cons first rest ih =>
    intro slice hslice
    rw [StackGraph.noteSlice] at hslice
    split at hslice
    · rcases List.mem_cons.mp hslice with rfl | hslice
      · obtain ⟨hf, hseq⟩ := h first (by simp)
        refine ⟨hf, fun ts hts => ?_⟩
        rcases List.mem_append.mp hts with hts | hts
        · exact hseq ts hts
        · rw [List.mem_singleton.mp hts]
          exact hs
      · exact h slice (by simp [hslice])
    · rcases List.mem_cons.mp hslice with rfl | hslice
      · exact h slice (by simp)
      · exact ih (fun s hs' => h s (by simp [hs'])) slice hslice

/-- A walk that only notes walkers finds headed trees above vertices. -/
theorem walk_sound {g : StackGraph} (hg : g.Sound) {i : Nat} (hi : i < g.size)
    {visit : List Slice → Walker → List Slice × Bool}
    (hvisit : ∀ found w, (visit found w).1 = noteSlice w found ∨ (visit found w).1 = found) :
    SlicesHold (· < g.size) (fun ts => ∀ t ∈ ts, t.Headed) (g.walk visit i []) := by
  refine walk_induction (P := Walker.Sound g) (Q := SlicesHold _ _) ?_ ?_
    (Walker.sound_start hi) (by simp [SlicesHold])
  · intro found w hw hq
    rcases hvisit found w with hnoted | hpassed
    · rw [hnoted]
      exact hq.noteSlice hw.within hw.headed
    · rw [hpassed]
      exact hq
  · intro found w link hw _ hl
    exact hw.follow hg hl

/-- What comes off a stack is headed, and lies above a vertex. -/
theorem slices_sound {g : StackGraph} (hg : g.Sound) {i : Nat} (hi : i < g.size) (count : Nat) :
    SlicesHold (· < g.size) (fun ts => ∀ t ∈ ts, t.Headed) (g.slices i count) := by
  apply walk_sound hg hi
  intro found w
  by_cases h : w.count = count <;> simp [h]

/-- What comes off a stack as a whole is headed. -/
theorem wholeSlices_sound {g : StackGraph} (hg : g.Sound) {i : Nat} (hi : i < g.size) :
    SlicesHold (· < g.size) (fun ts => ∀ t ∈ ts, t.Headed) (g.wholeSlices i) := by
  apply walk_sound hg hi
  intro found w
  by_cases h : (g.vertex w.vertex).links.isEmpty <;> simp [h]

/-- A sequence of trees that the start tag of a script element begins. -/
def BeginsWithTag (ts : List Tree) : Prop :=
  ∃ tag rest, ts = tag :: rest ∧ tag.isExtra = false ∧ tag.symbol = .phrase .scriptStartTag

/-- A walker is still so far above the start tag of a script element, or has just passed over it. -/
def Walker.Seeks (g : StackGraph) (count : Nat) (w : Walker) : Prop :=
  (∃ m, w.count + m = count ∧ (g.vertex w.vertex).state.Opens m) ∨
    (w.count = count ∧ BeginsWithTag w.trees)

theorem Walker.Seeks.follow {g : StackGraph} (hg : g.Sound) {count : Nat} {w : Walker}
    (hw : w.Seeks g count) (hc : w.count ≠ count) {link : Link}
    (hl : link ∈ (g.vertex w.vertex).links) : (w.follow link).Seeks g count := by
  -- The tag is not passed over yet, as the walker has not counted so many trees.
  obtain ⟨m, hm, ho⟩ := hw.resolve_right fun h => hc h.1
  have hlink := hg.links _ link hl
  cases ht : link.tree? with
  | none =>
    rw [hlink.fresh ht] at ho
    cases ho
  | some t =>
    rcases (hlink.leads t ht).opens ho with ⟨hx, ho'⟩ | ⟨hx, ⟨rfl, hsym⟩ | ⟨m', rfl, ho'⟩⟩
    · rw [Walker.follow_of_extra ht hx]
      exact .inl ⟨m, hm, ho'⟩
    · rw [Walker.follow_of_counted ht hx]
      exact .inr ⟨hm, t, w.trees, rfl, hx, hsym⟩
    · rw [Walker.follow_of_counted ht hx]
      exact .inl ⟨m', by simp only; omega, ho'⟩

/-- From a state of a script element its start tag comes off first. -/
theorem slices_opens {g : StackGraph} (hg : g.Sound) {i count : Nat}
    (ho : (g.vertex i).state.Opens count) :
    SlicesHold (fun _ => True) BeginsWithTag (g.slices i count) := by
  refine walk_induction (P := Walker.Seeks g count) (Q := SlicesHold _ _) ?_ ?_
    (.inl ⟨count, by simp, ho⟩) (by simp [SlicesHold])
  · intro found w hw hq
    split
    · refine hq.noteSlice trivial ?_
      rcases hw with ⟨m, hm, hopen⟩ | ⟨-, htag⟩
      -- A walker that has counted all trees cannot be above the tag any more.
      · have := hg.regular _ m hopen
        omega
      · exact htag
    · exact hq
  · intro found w link hw hstop hl
    refine hw.follow hg ?_ hl
    rintro hc
    simp [hc] at hstop

/-- A walker stands where it set out, or behind the first tree below; or reading starts afresh
where it set out. -/
def Walker.IsNear (g : StackGraph) (i : Nat) (w : Walker) : Prop :=
  ((g.vertex i).state = .fault ∨ (g.vertex i).state = .start) ∨ (w.vertex = i ∧ w.trees = []) ∨
    ∃ t, w.trees = [t] ∧ (g.vertex w.vertex).state.Leads t (g.vertex i).state

theorem Walker.IsNear.follow {g : StackGraph} (hg : g.Sound) {i : Nat} {w : Walker}
    (hw : w.IsNear g i) (hn : w.trees = []) {link : Link}
    (hl : link ∈ (g.vertex w.vertex).links) : (w.follow link).IsNear g i := by
  rcases hw with hfresh | ⟨rfl, -⟩ | ⟨t, ht, -⟩
  · exact .inl hfresh
  · have hlink := hg.links _ link hl
    cases ht : link.tree? with
    | none => exact .inl (.inl (hlink.fresh ht))
    | some t =>
      exact .inr (.inr ⟨t, by simp [Walker.follow, ht, hn],
        by simpa [Walker.follow, ht] using hlink.leads t ht⟩)
  · simp [hn] at ht

/-- What leads over a fault to a state leads there over any tree that is passed over. -/
theorem leads_of_leads_fault {s s' : State} {fault t : Tree} (hf : fault.symbol = .fault)
    (h : s.Leads fault s') (hx : t.isExtra = true) : s.Leads t s' := by
  cases h with
  | extra _ => exact .extra hx
  | shift _ symbol _ => rw [hf] at symbol; cases symbol
  | goto _ symbol _ => rw [hf] at symbol; cases symbol
  | afresh fresh => exact .afresh fresh

/-- Below a fault on top of a stack reading goes on as at the top. -/
theorem faultOnTop?_sound {g : StackGraph} (hg : g.Sound) {i : Nat} (hi : i < g.size) {v : Nat}
    {fault : Tree} (h : g.faultOnTop? i = some (v, fault)) :
    v < g.size ∧ fault.Headed ∧
      ∀ t, t.isExtra = true → (g.vertex v).state.Leads t (g.vertex i).state := by
  unfold faultOnTop? at h
  dsimp only at h
  split at h
  · revert h
    refine walk_induction (P := fun w => w.Sound g ∧ w.IsNear g i)
      (Q := fun found => found = some (v, fault) → v < g.size ∧ fault.Headed ∧
        ∀ t, t.isExtra = true → (g.vertex v).state.Leads t (g.vertex i).state) ?_ ?_
      ⟨Walker.sound_start hi, .inr (.inl ⟨rfl, rfl⟩)⟩ ?_
    · rintro found w ⟨hw, hnear⟩ hq
      split
      · exact hq
      · rename_i t rest htrees
        cases found with
        | some _ => exact hq
        | none =>
          intro hfound
          obtain ⟨hfault, rfl, rfl⟩ : t.symbol = .fault ∧ w.vertex = v ∧ t = fault := by
            simpa using hfound
          refine ⟨hw.within, hw.headed t (by simp [htrees]), fun u hu => ?_⟩
          rcases hnear with hfresh | ⟨-, hnil⟩ | ⟨t', ht', hleads⟩
          · exact .afresh hfresh
          · simp [hnil] at htrees
          · obtain rfl : t' = t := by simp [htrees] at ht'; exact ht'.1.symm
            exact leads_of_leads_fault hfault hleads hu
    · rintro found w link ⟨hw, hnear⟩ hstop hl
      have hnil : w.trees = [] := by
        cases htrees : w.trees with
        | nil => rfl
        | cons _ _ => simp [htrees] at hstop
      exact ⟨hw.follow hg hl, hnear.follow hg hnil hl⟩
    · intro h
      cases h
  · cases h

end SfcProxy.Markup.StackGraph
