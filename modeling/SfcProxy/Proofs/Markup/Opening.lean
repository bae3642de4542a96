import Mathlib.Data.List.TakeWhile
import Mathlib.Tactic.Common
import SfcProxy.Markup.Document

/-!
# Script elements open with their start tags

A script element is put together from what lies on top of the stack when its end tag is complete.
The states on the stack tell what that is: below the end tag lies raw text or the start tag, and
below raw text lies the start tag. So the first child of a script element is its start tag, in
every tree that reading without faults builds.

## Main definitions

* `Tree.Headed`: every script element in a tree begins with its start tag
* `State.Leads`: a tree leads from one state of reading to another
* `State.Opens`: so many trees below a state lies the start tag of a script element
* `Reading.Stepped`: what one step of reading comes to
* `Reading.Sound`: the trees on the stack are headed and lead from state to state

## Main results

* `Node.of_mem_shownFirst`: what a node shows is headed and does not start before the node
* `State.Leads.opens`: one step back from a state of a script element
* `Reading.Sound.step`, `Reading.runFrom_sound`: reading keeps the stack sound
-/

namespace SfcProxy.Markup

/-! ## Headed trees -/

/-- Every script element in a tree begins with its start tag. -/
inductive Tree.Headed : Tree → Prop
  | node {facts : Facts} {children : List Tree}
      (opens : facts.symbol = .phrase .scriptElement →
        ∃ tag rest, children = tag :: rest ∧ tag.symbol = .phrase .scriptStartTag)
      (parts : ∀ t ∈ children, t.Headed) : Headed (.node facts children)

namespace Tree

theorem Headed.of_mem_children {t c : Tree} (ht : t.Headed) (hc : c ∈ t.children) : c.Headed := by
  cases ht with
  | node _ parts => exact parts c hc

theorem Headed.opens {t : Tree} (ht : t.Headed) (hs : t.symbol = .phrase .scriptElement) :
    ∃ tag rest, t.children = tag :: rest ∧ tag.symbol = .phrase .scriptStartTag := by
  cases ht with
  | node opens _ => exact opens hs

theorem headed_leaf {symbol : Symbol} (hs : symbol ≠ .phrase .scriptElement)
    (padding size : Extent) (memory : Memory) : (leaf symbol padding size memory).Headed :=
  .node (fun h => absurd h hs) (by simp)

theorem headed_missing (token : Token) : (missing token).Headed :=
  .node (fun h => by cases h) (by simp)

theorem headed_branch {symbol : Symbol} {children : List Tree}
    (opens : symbol = .phrase .scriptElement →
      ∃ tag rest, children = tag :: rest ∧ tag.symbol = .phrase .scriptStartTag)
    (parts : ∀ t ∈ children, t.Headed) : (branch symbol children).Headed :=
  .node opens parts

theorem Headed.withExtra {t : Tree} (ht : t.Headed) (isExtra : Bool) :
    (t.withExtra isExtra).Headed := by
  cases ht with
  | node opens parts => exact .node opens parts

@[simp] theorem isExtra_withExtra (t : Tree) (isExtra : Bool) :
    (t.withExtra isExtra).isExtra = isExtra := by
  cases t; rfl

@[simp] theorem isExtra_branch (symbol : Symbol) (children : List Tree) :
    (branch symbol children).isExtra = false := rfl

end Tree

/-! ## What a node shows -/

namespace Node

mutual

/-- What is shown of a headed tree is headed and does not start before the tree. -/
theorem of_mem_shown {start : Nat} {n : Node} :
    ∀ {t : Tree}, t.Headed → n ∈ shown start t → n.tree.Headed ∧ start ≤ n.start
  | .node facts children, ht, hn => by
    rw [shown] at hn
    split at hn
    · obtain rfl := List.mem_singleton.mp hn
      exact ⟨ht, Nat.le_refl _⟩
    · exact of_mem_shownFirst (fun _ hc => ht.of_mem_children hc) hn

theorem of_mem_shownFirst {start : Nat} {n : Node} :
    ∀ {ts : List Tree}, (∀ t ∈ ts, t.Headed) → n ∈ shownFirst start ts →
      n.tree.Headed ∧ start ≤ n.start
  | [], _, hn => by simp [shownFirst] at hn
  | t :: rest, hts, hn => by
    rw [shownFirst] at hn
    rcases List.mem_append.mp hn with hn | hn
    · exact of_mem_shown (hts t (by simp)) hn
    · obtain ⟨hh, hs⟩ := of_mem_shownAfter (fun u hu => hts u (by simp [hu])) hn
      exact ⟨hh, by omega⟩

theorem of_mem_shownAfter {before : Nat} {n : Node} :
    ∀ {ts : List Tree}, (∀ t ∈ ts, t.Headed) → n ∈ shownAfter before ts →
      n.tree.Headed ∧ before ≤ n.start
  | [], _, hn => by simp [shownAfter] at hn
  | t :: rest, hts, hn => by
    rw [shownAfter] at hn
    rcases List.mem_append.mp hn with hn | hn
    · obtain ⟨hh, hs⟩ := of_mem_shown (hts t (by simp)) hn
      exact ⟨hh, by omega⟩
    · obtain ⟨hh, hs⟩ := of_mem_shownAfter (fun u hu => hts u (by simp [hu])) hn
      exact ⟨hh, by omega⟩

end

end Node

/-! ## States on a stack -/

/-- A tree leads from the state below it to the state behind it: it is passed over, it is a token
or a phrase that the state below takes in, or reading starts afresh behind it. -/
inductive State.Leads : State → Tree → State → Prop
  | extra {s : State} {t : Tree} (extra : t.isExtra = true) : Leads s t s
  | shift {s s' : State} {t : Tree} {token : Token} (counts : t.isExtra = false)
      (symbol : t.symbol = .token token) (next : s.shift? token = some s') : Leads s t s'
  | goto {s s' : State} {t : Tree} {phrase : Phrase} (counts : t.isExtra = false)
      (symbol : t.symbol = .phrase phrase) (next : s.goto? phrase = some s') : Leads s t s'
  | afresh {s s' : State} {t : Tree} (fresh : s' = .fault ∨ s' = .start) : Leads s t s'

/-- So many trees below a state, the next included, lies the start tag of a script element. -/
inductive State.Opens : State → Nat → Prop
  | tag {level : Level} : Opens (.rawOpened .script level) 1
  | text {level : Level} : Opens (.rawFilled .script level) 2
  | whole {size : Nat} {follow : Follow} : Opens (.built .scriptElement size follow) size

namespace State

theorem behindNode?_not_opens {s s' : State} {n : Nat} (h : s.behindNode? = some s') :
    ¬ s'.Opens n := by
  intro ho
  cases ho <;> cases s <;> simp [behindNode?] at h

theorem behindEndOpening?_not_opens {s s' : State} {n : Nat} (h : s.behindEndOpening? = some s') :
    ¬ s'.Opens n := by
  intro ho
  cases ho <;> cases s <;> simp [behindEndOpening?] at h

theorem behindEnd?_not_opens {s s' : State} {n : Nat} (h : s.behindEnd? = some s') :
    ¬ s'.Opens n := by
  intro ho
  cases ho <;> cases s <;> simp [behindEnd?] at h

theorem startTag_ne_scriptElement (kind : RawKind) : kind.startTag ≠ .scriptElement := by
  cases kind <;> decide

/-- The only token that leads to such a state is raw text. -/
theorem shift?_opens {s s' : State} {t : Token} {n : Nat} (h : s.shift? t = some s')
    (ho : s'.Opens n) : n = 2 ∧ s.Opens 1 := by
  unfold shift? at h
  split at h
  case h_1 => exact absurd ho (behindEndOpening?_not_opens h)
  case h_2 | h_3 => exact absurd ho (behindNode?_not_opens h)
  case h_6 => exact absurd ho (behindEnd?_not_opens h)
  case h_7 =>
    cases ho <;> cases h
    exact ⟨rfl, .tag⟩
  all_goals cases ho <;> simp [startTag_ne_scriptElement] at h

/-- The phrases that lead to such a state are the end tag and the start tag of a script element. -/
theorem goto?_opens {s s' : State} {p : Phrase} {n : Nat} (h : s.goto? p = some s')
    (ho : s'.Opens n) : (n = 1 ∧ p = .scriptStartTag) ∨ ∃ m, n = m + 1 ∧ s.Opens m := by
  unfold goto? at h
  split at h
  all_goals try exact absurd ho (behindNode?_not_opens h)
  all_goals try exact absurd ho (behindEnd?_not_opens h)
  case h_9 =>
    cases ho <;> simp at h
    exact .inl ⟨rfl, rfl⟩
  case h_12 kind level =>
    cases kind <;> cases ho <;> simp [RawKind.element] at h
    exact .inr ⟨1, h.1.symm, .tag⟩
  case h_13 kind level =>
    cases kind <;> cases ho <;> simp [RawKind.element] at h
    exact .inr ⟨2, h.1.symm, .text⟩
  all_goals cases ho <;> simp at h

/-- One step back from a state of a script element: the tree is passed over, it is the start tag,
or it leads from such a state. -/
theorem Leads.opens {s s' : State} {t : Tree} {n : Nat} (h : s.Leads t s') (ho : s'.Opens n) :
    (t.isExtra = true ∧ s.Opens n) ∨ (t.isExtra = false ∧
      ((n = 1 ∧ t.symbol = .phrase .scriptStartTag) ∨ ∃ m, n = m + 1 ∧ s.Opens m)) := by
  cases h with
  | extra extra => exact .inl ⟨extra, ho⟩
  | shift counts _ next =>
    obtain ⟨rfl, hs⟩ := shift?_opens next ho
    exact .inr ⟨counts, .inr ⟨1, rfl, hs⟩⟩
  | goto counts symbol next =>
    rcases goto?_opens next ho with ⟨rfl, rfl⟩ | hm
    · exact .inr ⟨counts, .inl ⟨rfl, symbol⟩⟩
    · exact .inr ⟨counts, .inr hm⟩
  | afresh fresh => rcases fresh with rfl | rfl <;> cases ho

/-- A state of a script element has a tree below it. -/
def Regular (s : State) : Prop :=
  ∀ n, s.Opens n → 0 < n

theorem regular_start : start.Regular := by
  intro n ho
  cases ho

theorem Leads.regular {s s' : State} {t : Tree} (h : s.Leads t s') (hs : s.Regular) :
    s'.Regular := by
  intro n ho
  rcases h.opens ho with ⟨-, ho⟩ | ⟨-, ⟨rfl, -⟩ | ⟨m, rfl, -⟩⟩
  · exact hs n ho
  · exact Nat.one_pos
  · exact Nat.succ_pos m

/-- A script element is put together only in a state of one. -/
theorem opens_of_reduction? {s : State} {t : Token} {n : Nat}
    (h : s.reduction? t = some (.scriptElement, n)) : s.Opens n := by
  unfold reduction? at h
  split at h
  case h_1 phrase size follow =>
    split at h
    · obtain ⟨rfl, rfl⟩ : phrase = .scriptElement ∧ size = n := by simpa using h
      exact .whole
    · cases h
  all_goals simp at h

/-- What is done with a token in a state, read off the tables. -/
theorem action?_cases {s : State} {t : Token} {a : Action} (h : s.action? t = some a) :
    (∃ p n, a = .reduce p n ∧ s.reduction? t = some (p, n)) ∨
      (∃ s', a = .shift s' ∧ s.shift? t = some s') ∨ a = .pass ∨ a = .accept ∨ a = .recover := by
  unfold action? at h
  split at h
  · exact .inr (.inr (.inl (Option.some.inj h).symm))
  split at h
  · split at h
    · exact .inr (.inr (.inr (.inr (Option.some.inj h).symm)))
    · cases h
  split at h
  · split at h
    · exact .inr (.inr (.inr (.inl (Option.some.inj h).symm)))
    · cases h
  split at h
  · rename_i p n hr
    exact .inl ⟨p, n, (Option.some.inj h).symm, hr⟩
  · obtain ⟨s', hs, rfl⟩ := Option.map_eq_some_iff.mp h
    exact .inr (.inl ⟨s', rfl, hs⟩)

theorem shift?_of_action? {s s' : State} {t : Token} (h : s.action? t = some (.shift s')) :
    s.shift? t = some s' := by
  rcases action?_cases h with ⟨_, _, h, _⟩ | ⟨_, h, hs⟩ | h | h | h <;> cases h
  exact hs

theorem opens_of_action? {s : State} {t : Token} {n : Nat}
    (h : s.action? t = some (.reduce .scriptElement n)) : s.Opens n := by
  rcases action?_cases h with ⟨_, _, h, hr⟩ | ⟨_, h, _⟩ | h | h | h <;> cases h
  exact opens_of_reduction? hr

theorem opens_of_actionOn? {s : State} {symbol : Symbol} {n : Nat}
    (h : s.actionOn? symbol = some (.reduce .scriptElement n)) : s.Opens n := by
  cases symbol with
  | token t => exact opens_of_action? h
  | phrase _ | fault | faultRun => cases h

theorem shift?_finish (s : State) : s.shift? .finish = none := by
  cases s <;> rfl

end State

/-! ## Trees that come off a stack -/

theorem withoutExtras_append (trees : List Tree) :
    (withoutExtras trees).1 ++ (withoutExtras trees).2 = trees := by
  have hsplit : trees = (trees.reverse.dropWhile Tree.isExtra).reverse
      ++ (trees.reverse.takeWhile Tree.isExtra).reverse := by
    rw [← List.reverse_append, List.takeWhile_append_dropWhile, List.reverse_reverse]
  have hlen : trees.length - (trees.reverse.takeWhile Tree.isExtra).reverse.length
      = (trees.reverse.dropWhile Tree.isExtra).reverse.length := by
    have := congrArg List.length hsplit
    simp only [List.length_append] at this
    omega
  have hfront : trees.take (trees.reverse.dropWhile Tree.isExtra).reverse.length
      = (trees.reverse.dropWhile Tree.isExtra).reverse :=
    (List.prefix_iff_eq_take.mp ⟨_, hsplit.symm⟩).symm
  simp only [withoutExtras, hlen, hfront]
  exact hsplit.symm

theorem isExtra_of_mem_withoutExtras {trees : List Tree} {t : Tree}
    (ht : t ∈ (withoutExtras trees).2) : t.isExtra = true := by
  simp only [withoutExtras, List.mem_reverse] at ht
  exact List.mem_takeWhile_imp ht

theorem headed_withoutExtras {trees : List Tree} (ht : ∀ t ∈ trees, t.Headed) :
    (∀ t ∈ (withoutExtras trees).1, t.Headed) ∧
      ∀ t ∈ (withoutExtras trees).2, t.Headed ∧ t.isExtra = true := by
  have hmem : ∀ t ∈ (withoutExtras trees).1 ++ (withoutExtras trees).2, t.Headed := by
    rw [withoutExtras_append]
    exact ht
  exact ⟨fun t hu => hmem t (List.mem_append_left _ hu),
    fun t hu => ⟨hmem t (List.mem_append_right _ hu), isExtra_of_mem_withoutExtras hu⟩⟩

theorem withoutExtras_cons {tag : Tree} (hx : tag.isExtra = false) (rest : List Tree) :
    ∃ rest', (withoutExtras (tag :: rest)).1 = tag :: rest' := by
  have happ := withoutExtras_append (tag :: rest)
  cases h : (withoutExtras (tag :: rest)).1 with
  | nil =>
    rw [h, List.nil_append] at happ
    have : tag ∈ (withoutExtras (tag :: rest)).2 := by rw [happ]; simp
    rw [isExtra_of_mem_withoutExtras this] at hx
    cases hx
  | cons a rest' =>
    rw [h, List.cons_append] at happ
    exact ⟨rest', by rw [(List.cons.inj happ).1]⟩

/-! ## Sound stacks -/

/-- A token as it is looked at: a leaf, which counts for a rule unless it is the end. -/
structure Lookahead.Sound (look : Lookahead) : Prop where
  headed : look.tree.Headed
  counts : ∀ t, look.symbol = .token t → t ≠ .finish → look.tree.isExtra = false

theorem Lookahead.read_sound (state : State) (advanced : Bool) (memory : Memory) (place : Place) :
    (read state advanced memory place).Sound := by
  unfold read
  dsimp only
  split
  · refine ⟨Tree.headed_leaf (by simp) _ _ _, ?_⟩
    intro t ht hne
    simp only [symbol, leafOf, Tree.symbol, Tree.leaf, Tree.facts, Symbol.token.injEq] at ht
    simp [leafOf, Tree.leaf, Tree.isExtra, Tree.facts, ht, hne]
  · refine ⟨Tree.headed_leaf (by simp) _ _ _, ?_⟩
    intro t ht
    simp [symbol, fault, Tree.symbol, Tree.leaf, Tree.facts] at ht

theorem Lookahead.Sound.leads {look : Lookahead} (hl : look.Sound) {s s' : State}
    (h : s.actionOn? look.symbol = some (.shift s')) : s.Leads look.tree s' := by
  cases hsym : look.symbol with
  | token t =>
    rw [hsym] at h
    have hshift := State.shift?_of_action? h
    have hne : t ≠ .finish := by
      rintro rfl
      rw [State.shift?_finish] at hshift
      cases hshift
    exact .shift (hl.counts t hsym hne) hsym hshift
  | phrase _ | fault | faultRun => rw [hsym] at h; cases h

/-- The state at the top of a stack. -/
def topState (frames : List Frame) : State :=
  (frames.head?.map Frame.state).getD .start

/-- The trees on a stack are headed and lead from state to state. -/
inductive SoundStack : List Frame → Prop
  | nil : SoundStack []
  | cons {frame : Frame} {frames : List Frame} (headed : frame.tree.Headed)
      (leads : (topState frames).Leads frame.tree frame.state) (below : SoundStack frames) :
      SoundStack (frame :: frames)

namespace SoundStack

theorem headed {frames : List Frame} (h : SoundStack frames) :
    ∀ frame ∈ frames, frame.tree.Headed := by
  induction h with
  | nil => simp
  | cons headed _ _ ih => simpa using ⟨headed, ih⟩

theorem regular {frames : List Frame} (h : SoundStack frames) : (topState frames).Regular := by
  induction h with
  | nil => exact State.regular_start
  | cons _ leads _ ih => exact leads.regular ih

theorem takeOff {frames : List Frame} (h : SoundStack frames) :
    ∀ (n : Nat) (taken : List Tree), (∀ t ∈ taken, t.Headed) →
      (∀ t ∈ (Reading.takeOff taken n frames).1, t.Headed) ∧
        SoundStack (Reading.takeOff taken n frames).2 := by
  induction h with
  | nil =>
    intro n taken ht
    cases n <;> simpa [Reading.takeOff] using ⟨ht, .nil⟩
  | @cons frame frames headed leads below ih =>
    intro n taken ht
    cases n with
    | zero => simpa [Reading.takeOff] using ⟨ht, .cons headed leads below⟩
    | succ n =>
      rw [Reading.takeOff]
      exact ih _ _ (by simpa using ⟨headed, ht⟩)

/-- From a state of a script element its start tag comes off first. -/
theorem takeOff_opens {frames : List Frame} (h : SoundStack frames) :
    ∀ {n : Nat} (taken : List Tree), (topState frames).Opens n →
      ∃ tag rest, (Reading.takeOff taken n frames).1 = tag :: rest ∧
        tag.isExtra = false ∧ tag.symbol = .phrase .scriptStartTag := by
  induction h with
  | nil => intro n taken ho; cases ho
  | @cons frame frames headed leads below ih =>
    intro n taken ho
    have hpos : 0 < n := (SoundStack.cons headed leads below).regular n ho
    obtain ⟨n, rfl⟩ := Nat.exists_eq_succ_of_ne_zero hpos.ne'
    rw [Reading.takeOff]
    rcases leads.opens ho with ⟨hx, ho⟩ | ⟨hx, ⟨h1, hs⟩ | ⟨m, hm, ho⟩⟩
    · simpa [hx] using ih (frame.tree :: taken) ho
    · obtain rfl : n = 0 := by omega
      exact ⟨frame.tree, taken, by simp [hx, Reading.takeOff], hx, hs⟩
    · obtain rfl : n = m := by omega
      simpa [hx] using ih (frame.tree :: taken) ho

theorem putOn {frames : List Frame} (h : SoundStack frames) {s : State} :
    ∀ {trees : List Tree}, (∀ t ∈ trees, t.Headed ∧ t.isExtra = true) → topState frames = s →
      SoundStack (Reading.putOn s trees frames) := by
  intro trees
  induction trees generalizing frames with
  | nil => intro _ _; simpa [Reading.putOn] using h
  | cons t trees ih =>
    intro ht hs
    obtain ⟨htree, hx⟩ := ht t (by simp)
    have hnext : SoundStack (⟨s, t⟩ :: frames) := .cons htree (hs ▸ .extra hx) h
    exact ih hnext (fun u hu => ht u (by simp [hu])) rfl

end SoundStack

/-! ## Reading -/

theorem rootOf?_headed {trees : List Tree} (ht : ∀ t ∈ trees, t.Headed) {root : Tree}
    (h : rootOf? trees = some root) : ∀ t ∈ root.children, t.Headed := by
  obtain ⟨hbefore, hafter⟩ := headed_withoutExtras ht
  obtain ⟨last, hlast, rfl⟩ := Option.map_eq_some_iff.mp h
  have hl : last.Headed := hbefore last (List.mem_of_getLast? hlast)
  intro t hu
  simp only [Tree.branch, Tree.children, List.mem_append] at hu
  rcases hu with (hu | hu) | hu
  · exact hbefore t (List.dropLast_subset _ hu)
  · exact hl.of_mem_children hu
  · exact (hafter t hu).1

namespace Reading

/-- The stack of a reading is sound, and so is the token that it looks at. -/
structure Sound (r : Reading) : Prop where
  stack : SoundStack r.frames
  look? : ∀ look, r.look? = some look → look.Sound

/-- The trees of a document are headed; a reading that is stuck is sound. -/
def Outcome.Sound : Outcome → Prop
  | .document tree => ∀ t ∈ tree.children, t.Headed
  | .stuck reading look => reading.Sound ∧ look.Sound

theorem sound_start (source : List Char) : (start source).Sound :=
  ⟨.nil, by simp [start]⟩

theorem Sound.look {r : Reading} (hr : r.Sound) : r.look.Sound := by
  unfold Reading.look
  cases h : r.look? with
  | none => exact Lookahead.read_sound _ _ _ _
  | some look => exact hr.look? look h

theorem Sound.shift {r : Reading} (hr : r.Sound) {s : State} {t : Tree} (ht : t.Headed)
    (hs : r.state.Leads t s) : (r.shift s t).Sound :=
  ⟨.cons ht hs hr.stack, by simp [Reading.shift]⟩

theorem Sound.reduce? {r r' : Reading} (hr : r.Sound) {look : Lookahead} (hl : look.Sound)
    {phrase : Phrase} {size : Nat} (ho : phrase = .scriptElement → r.state.Opens size)
    (h : r.reduce? phrase size look = some r') : r'.Sound := by
  obtain ⟨htaken, hbelow⟩ := hr.stack.takeOff size [] (by simp)
  obtain ⟨next, hnext, rfl⟩ := Option.map_eq_some_iff.mp h
  refine ⟨?_, by rintro _ ⟨⟩; exact hl⟩
  obtain ⟨hparts, hextras⟩ := headed_withoutExtras htaken
  have hbranch : (Tree.branch (.phrase phrase)
      (withoutExtras (takeOff [] size r.frames).1).1).Headed := by
    refine Tree.headed_branch ?_ hparts
    intro hp
    obtain ⟨tag, rest, htag, hx, hsym⟩ :=
      hr.stack.takeOff_opens [] (ho (Symbol.phrase.inj hp))
    obtain ⟨rest', hrest⟩ := withoutExtras_cons hx rest
    exact ⟨tag, rest', by rw [htag, hrest], hsym⟩
  have hstack : SoundStack (⟨next, .branch (.phrase phrase)
      (withoutExtras (takeOff [] size r.frames).1).1⟩ :: (takeOff [] size r.frames).2) :=
    .cons hbranch (.goto rfl rfl hnext) hbelow
  exact hstack.putOn hextras rfl

/-- What one step comes to: the next token is taken in or passed over, a phrase is put together
before it, or reading ends. -/
inductive Stepped (r : Reading) : Reading ⊕ Outcome → Prop
  | shifted {next : State} (action : r.state.actionOn? r.look.symbol = some (.shift next)) :
      Stepped r (.inl (r.shift next r.look.tree))
  | passed (action : r.state.actionOn? r.look.symbol = some .pass) :
      Stepped r (.inl (r.shift r.state (r.look.tree.withExtra true)))
  | reduced {phrase : Phrase} {size : Nat} {s : Reading}
      (action : r.state.actionOn? r.look.symbol = some (.reduce phrase size))
      (reduce_eq : r.reduce? phrase size r.look = some s) : Stepped r (.inl s)
  | accepted {root : Tree}
      (root_eq : rootOf? ((r.look.tree :: r.frames.map Frame.tree).reverse) = some root) :
      Stepped r (.inr (.document root))
  | stuck : Stepped r (.inr (.stuck r r.look))

theorem stepped_step (r : Reading) : Stepped r r.step := by
  unfold Reading.step
  dsimp only
  split
  · rename_i next haction
    exact .shifted haction
  · rename_i haction
    exact .passed haction
  · rename_i phrase size haction
    cases hreduce : r.reduce? phrase size r.look with
    | none => exact .stuck
    | some s => exact .reduced haction hreduce
  · cases hroot : rootOf? ((r.look.tree :: r.frames.map Frame.tree).reverse) with
    | none => exact .stuck
    | some root => exact .accepted hroot
  all_goals exact .stuck

/-- One step of reading keeps the reading sound, or ends soundly. -/
theorem Sound.step {r : Reading} (hr : r.Sound) : Sum.elim Sound Outcome.Sound r.step := by
  have hstepped := r.stepped_step
  generalize r.step = result at hstepped ⊢
  cases hstepped with
  | shifted action => exact hr.shift hr.look.headed (hr.look.leads action)
  | passed => exact hr.shift (hr.look.headed.withExtra true) (.extra (by simp))
  | reduced action reduce_eq =>
    refine hr.reduce? hr.look ?_ reduce_eq
    rintro rfl
    exact State.opens_of_actionOn? action
  | accepted root_eq =>
    refine rootOf?_headed ?_ root_eq
    intro t ht
    rcases List.mem_cons.mp (List.mem_reverse.mp ht) with rfl | ht
    · exact hr.look.headed
    · obtain ⟨frame, hf, rfl⟩ := List.mem_map.mp ht
      exact hr.stack.headed frame hf
  | stuck => exact ⟨hr, hr.look⟩

theorem runFrom_sound {r : Reading} (hr : r.Sound) (budget : Nat) :
    (r.runFrom budget).Sound := by
  induction budget generalizing r with
  | zero => exact ⟨hr, hr.look⟩
  | succ budget ih =>
    unfold runFrom
    have hstep := hr.step
    cases h : r.step with
    | inl next => rw [h] at hstep; exact ih hstep
    | inr outcome => rw [h] at hstep; exact hstep

/-- Reading a source gives headed trees, or gets stuck on a sound stack. -/
theorem run_sound (source : List Char) : (run source).Sound :=
  runFrom_sound (sound_start source) _

end Reading

end SfcProxy.Markup
