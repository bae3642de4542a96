import Mathlib.Algebra.GroupWithZero.Nat
import SfcProxy.Proofs.Markup.Lexing

/-!
# Nodes and elements

A run of nodes is kept on the stack as a single tree: whenever a further token is seen, the node
before it is put together with those before that. So among nodes a reading is known by what lies
below them, by the tree of the nodes so far, and by the open elements.

## Main definitions

* `withContent`, `putNode`: the stack with the nodes so far, and these with one more
* `Settles`: a stack comes to that form before any token that can follow
* `Amid`: a reading among the nodes at a level
* `Advances`: a reading comes to another in few steps for each character

## Main results

* `Settles.node`, `Settles.startTag`, `Settles.endTag`: the stacks behind a node and behind a tag
* `Amid.text`: how text is read
* `Amid.startTag`, `Amid.endTag`: how the tags of an element are read
-/

namespace SfcProxy.Markup

/-! ## The nodes so far -/

/-- The state in which the nodes at a level begin. -/
inductive State.Begins : Level → State → Prop
  | top : Begins .top .start
  | inner (level : Level) : Begins .inner (.opened level)

/-- The state behind a run of nodes, by the state in which they begin. -/
def State.filledBy : State → State
  | .start => .nodes
  | .opened level => .filled level
  | s => s

/-- The stack with the nodes so far as one tree, if there are any. -/
def withContent (base : List Frame) : Option Tree → List Frame
  | none => base
  | some t => ⟨(topState base).filledBy, t⟩ :: base

/-- Nodes at a level may come next. -/
inductive State.AmongNodes : Level → State → Prop
  | start : AmongNodes .top .start
  | nodes : AmongNodes .top .nodes
  | opened (level : Level) : AmongNodes .inner (.opened level)
  | filled (level : Level) : AmongNodes .inner (.filled level)

theorem State.Begins.among {level : Level} {base : List Frame} (h : Begins level (topState base))
    (content : Option Tree) : AmongNodes level (topState (withContent base content)) := by
  cases content with
  | none =>
    rw [withContent]
    generalize topState base = s at h
    cases h with
    | top => exact .start
    | inner level => exact .opened level
  | some nodes =>
    change AmongNodes level (topState base).filledBy
    generalize topState base = s at h
    cases h with
    | top => exact .nodes
    | inner level => exact .filled level

namespace State.AmongNodes

variable {level : Level} {s : State}

theorem goto?_startTag (h : AmongNodes level s) : s.goto? .startTag = some (.opened level) := by
  cases h <;> rfl

theorem goto?_scriptStartTag (h : AmongNodes level s) :
    s.goto? .scriptStartTag = some (.rawOpened .script level) := by
  cases h <;> rfl

theorem action?_opening (h : AmongNodes level s) :
    s.action? .opening = some (.shift (.tagOpen level)) := by
  cases h <;> rfl

/-- A text is a node, and so are an element and a script. -/
theorem exists_behindNode (h : AmongNodes level s) :
    ∃ next, s.behindNode? = some next ∧ s.action? .text = some (.shift next) ∧
      s.goto? .element = some next ∧ s.goto? .scriptElement = some next := by
  cases h <;> exact ⟨_, rfl, rfl, rfl, rfl⟩

end State.AmongNodes

/-- The nodes so far with one more. -/
def putNode (content : Option Tree) (t : Tree) : Tree :=
  match content with
  | none => t
  | some nodes => .branch (.phrase .nodes) [nodes, t]

/-- The length of the nodes so far in a source. -/
def contentChars (content : Option Tree) : Nat :=
  (content.map fun t => t.total.chars).getD 0

theorem Tree.chars_size_branch (symbol : Symbol) (t : Tree) (ts : List Tree) :
    (branch symbol (t :: ts)).facts.size.chars
      = t.facts.size.chars + (ts.map fun t => t.total.chars).sum := by
  have hfold : ∀ (size : Extent), (ts.foldl (fun size t => size + t.total) size).chars
      = size.chars + (ts.map fun t => t.total.chars).sum := by
    induction ts with
    | nil => exact fun size => rfl
    | cons u ts ih =>
      intro size
      rw [List.foldl_cons, ih, Extent.chars_add, List.map_cons, List.sum_cons, Nat.add_assoc]
  exact hfold t.facts.size

theorem Tree.chars_total_branch (symbol : Symbol) (t : Tree) (ts : List Tree) :
    (branch symbol (t :: ts)).total.chars = ((t :: ts).map fun t => t.total.chars).sum := by
  change t.facts.padding.chars + (branch symbol (t :: ts)).facts.size.chars = _
  rw [chars_size_branch, ← Nat.add_assoc]
  rfl

theorem contentChars_putNode (content : Option Tree) (t : Tree) :
    contentChars (some (putNode content t)) = contentChars content + t.total.chars := by
  cases content with
  | none => exact (Nat.zero_add _).symm
  | some nodes =>
    change (Tree.branch (.phrase .nodes) [nodes, t]).total.chars = _
    rw [Tree.chars_total_branch]
    rfl

/-! ## Stacks among nodes -/

namespace State

theorem action?_built {phrase : Phrase} {size : Nat} {follow : Follow} {t : Token}
    (ht : follow.admits t = true) :
    (State.built phrase size follow).action? t = some (.reduce phrase size) := by
  have hcomment : t ≠ .comment := by
    rintro rfl
    cases follow with
    | node level => cases level <;> exact absurd ht (by decide)
    | tagPart kind => cases kind <;> exact absurd ht (by decide)
    | rawText => exact absurd ht (by decide)
  rw [State.action?, if_neg hcomment, if_neg (by simp), if_neg (by simp), State.reduction?,
    if_pos ht]

theorem action?_moreNodes {level : Level} {t : Token} (ht : (Follow.node level).admits t = true) :
    (State.moreNodes level).action? t = some (.reduce .nodes 2) := by
  have hcomment : t ≠ .comment := by
    rintro rfl
    cases level <;> exact absurd ht (by decide)
  rw [State.action?, if_neg hcomment, if_neg (by simp), if_neg (by simp), State.reduction?,
    if_pos ht]

end State

/-- Whichever token follows that can stand behind a node, the stack comes to what lies below the
nodes and their tree. -/
structure Settles (level : Level) (base : List Frame) (content : Option Tree)
    (frames : List Frame) : Prop where
  begins : State.Begins level (topState base)
  counts : ∀ t, content = some t → t.isExtra = false
  state : (topState frames).IsContent level
  reduces : ∀ t, (Follow.node level).admits t = true →
    Reading.Reduces 3 t frames (withContent base content)

namespace Settles

variable {level : Level} {base frames : List Frame} {content : Option Tree}

/-- Where no node has been read yet, there is nothing to put together. -/
theorem empty (hbegins : State.Begins level (topState base)) : Settles level base none base := by
  refine ⟨hbegins, nofun, ?_, fun t _ => .refl 3 t base⟩
  generalize topState base = s at hbegins
  cases hbegins with
  | top => exact ⟨rfl, rfl⟩
  | inner level => exact ⟨rfl, rfl⟩

/-- A node comes to stand behind the nodes so far. -/
theorem of_node (hbegins : State.Begins level (topState base))
    (hcounts : ∀ t, content = some t → t.isExtra = false) (tree : Tree)
    (htree : tree.isExtra = false) {next : State}
    (hnext : (topState (withContent base content)).behindNode? = some next) :
    next.IsContent level ∧ ∀ t, (Follow.node level).admits t = true →
      Reading.Reduces 1 t (⟨next, tree⟩ :: withContent base content)
        (withContent base (some (putNode content tree))) := by
  cases content with
  | none =>
    have hfilled : next = (topState base).filledBy ∧ next.IsContent level := by
      rw [withContent] at hnext
      generalize topState base = s at hbegins hnext
      cases hbegins with
      | top => cases hnext; exact ⟨rfl, rfl, rfl⟩
      | inner level => cases hnext; exact ⟨rfl, rfl, rfl⟩
    refine ⟨hfilled.2, fun t _ => ?_⟩
    rw [hfilled.1]
    exact .refl 1 t _
  | some nodes =>
    have hmore : next = .moreNodes level := by
      change ((topState base).filledBy).behindNode? = some next at hnext
      generalize topState base = s at hbegins hnext
      cases hbegins with
      | top => cases hnext; rfl
      | inner level => cases hnext; rfl
    subst hmore
    refine ⟨by cases level <;> exact ⟨rfl, rfl⟩, fun t ht => ?_⟩
    -- The new node and the nodes so far are one phrase, which stands where the nodes so far stood.
    have hgoto : (topState base).goto? .nodes = some (topState base).filledBy := by
      generalize topState base = s at hbegins
      cases hbegins <;> rfl
    refine Reading.Reduces.phrase [⟨.moreNodes level, tree⟩, ⟨(topState base).filledBy, nodes⟩] base
      ?_ (State.action?_moreNodes ht) hgoto
    intro frame hframe
    rcases List.mem_cons.mp hframe with rfl | hframe
    · exact htree
    · rw [List.mem_singleton.mp hframe]
      exact hcounts nodes rfl

/-- The tree of the nodes so far with one more counts for a rule. -/
theorem counts_putNode (tree : Tree) (htree : tree.isExtra = false) :
    ∀ t, some (putNode content tree) = some t → t.isExtra = false := by
  rintro t ⟨⟩
  cases content with
  | none => exact htree
  | some nodes => rfl

/-- **A token that is a node** stands behind the nodes so far. -/
theorem node (h : Settles level base content frames) {tree : Tree} (htree : tree.isExtra = false)
    {next : State} (hnext : (topState (withContent base content)).behindNode? = some next) :
    Settles level base (some (putNode content tree))
      (⟨next, tree⟩ :: withContent base content) := by
  obtain ⟨hstate, hreduces⟩ := of_node h.begins h.counts tree htree hnext
  exact ⟨h.begins, counts_putNode tree htree, hstate,
    fun t ht => (hreduces t ht).mono (by omega)⟩

/-- **Behind a start tag** the nodes of its element begin. -/
theorem startTag (h : Settles level base content frames) {opening name close : Tree}
    (hopening : opening.isExtra = false) (hname : name.isExtra = false)
    (hclose : close.isExtra = false) :
    Settles .inner
      (⟨.opened level, .branch (.phrase .startTag) [opening, name, close]⟩
        :: withContent base content) none
      (⟨.built .startTag 3 (.node .inner), close⟩ :: ⟨.tagNamed level, name⟩
        :: ⟨.tagOpen level, opening⟩ :: withContent base content) := by
  refine ⟨.inner level, nofun, ⟨rfl, rfl⟩, fun t ht => ?_⟩
  have hreduces := Reading.Reduces.phrase [⟨.built .startTag 3 (.node .inner), close⟩,
    ⟨.tagNamed level, name⟩, ⟨.tagOpen level, opening⟩] (withContent base content)
    (by simp [hopening, hname, hclose]) (State.action?_built ht)
    (h.begins.among content).goto?_startTag
  exact hreduces.mono (by omega)

/-- **A phrase that is a node** is put together behind the nodes so far. -/
theorem phrase (h : Settles level base content frames) {phrase : Phrase}
    (hphrase : phrase = .element ∨ phrase = .scriptElement) (parts : List Frame)
    (hparts : ∀ frame ∈ parts, frame.tree.isExtra = false) {t : Token}
    (ht : (Follow.node level).admits t = true)
    (haction : (topState (parts ++ withContent base content)).action? t
      = some (.reduce phrase parts.length)) :
    Reading.Reduces 2 t (parts ++ withContent base content)
      (withContent base (some (putNode content
        (.branch (.phrase phrase) (parts.map Frame.tree).reverse)))) := by
  obtain ⟨next, hnext, -, helement, hscript⟩ := (h.begins.among content).exists_behindNode
  have hgoto : (topState (withContent base content)).goto? phrase = some next := by
    rcases hphrase with rfl | rfl
    · exact helement
    · exact hscript
  exact (Reading.Reduces.phrase parts (withContent base content) hparts haction hgoto).trans
    ((of_node h.begins h.counts _ rfl hnext).2 t ht)

/-- The element of two tags and the nodes between them. -/
def element (startTag : Tree) (content : Option Tree) (endTag : Tree) : Tree :=
  .branch (.phrase .element) (startTag :: (content.toList ++ [endTag]))

/-- The parts of an element are put together behind its end. -/
theorem closing (h : Settles level base content frames) {startTag ending : Tree}
    {inside : Option Tree} (hstart : startTag.isExtra = false)
    (hinside : ∀ t, inside = some t → t.isExtra = false) (hending : ending.isExtra = false)
    {t : Token} (ht : (Follow.node level).admits t = true) :
    Reading.Reduces 2 t
      (⟨.built .element (2 + inside.toList.length) (.node level), ending⟩
        :: withContent (⟨.opened level, startTag⟩ :: withContent base content) inside)
      (withContent base (some (putNode content (element startTag inside ending)))) := by
  cases inside with
  | none =>
    exact h.phrase (.inl rfl) [⟨.built .element 2 (.node level), ending⟩,
      ⟨.opened level, startTag⟩] (by simp [hstart, hending]) ht (State.action?_built ht)
  | some nodes =>
    exact h.phrase (.inl rfl) [⟨.built .element 3 (.node level), ending⟩, ⟨.filled level, nodes⟩,
      ⟨.opened level, startTag⟩] (by simp [hstart, hinside nodes rfl, hending]) ht
      (State.action?_built ht)

/-- **Behind an end tag** its element is a node behind those before it. -/
theorem endTag {startTag : Tree} {inside : Option Tree} {framesInside : List Frame}
    (h : Settles level base content frames)
    (hinside : Settles .inner (⟨.opened level, startTag⟩ :: withContent base content) inside
      framesInside) (hstart : startTag.isExtra = false) {opening name close : Tree}
    (hopening : opening.isExtra = false) (hname : name.isExtra = false)
    (hclose : close.isExtra = false) :
    Settles level base
      (some (putNode content
        (element startTag inside (.branch (.phrase .endTag) [opening, name, close]))))
      (⟨.built .endTag 3 (.node level), close⟩ :: ⟨.endNamed level, name⟩
        :: ⟨.endOpen level, opening⟩
        :: withContent (⟨.opened level, startTag⟩ :: withContent base content) inside) := by
  refine ⟨h.begins, counts_putNode _ rfl, by cases level <;> exact ⟨rfl, rfl⟩, fun t ht => ?_⟩
  have hgoto : (topState (withContent (⟨.opened level, startTag⟩ :: withContent base content)
      inside)).goto? .endTag = some (.built .element (2 + inside.toList.length) (.node level)) := by
    cases inside <;> rfl
  have hend := Reading.Reduces.phrase [⟨.built .endTag 3 (.node level), close⟩,
      ⟨.endNamed level, name⟩, ⟨.endOpen level, opening⟩] _ (by simp [hopening, hname, hclose])
    (State.action?_built ht) hgoto
  exact hend.trans (h.closing hstart hinside.counts rfl ht)

end Settles

/-! ## What the nodes show -/

/-- What is shown of the nodes so far, behind so many characters of a source. -/
def shownOf (before : Nat) : Option Tree → List Node
  | none => []
  | some t => Node.shown (before + t.facts.padding.chars) t

/-- A node is an element or a text that is there. -/
def Node.IsPlain (n : Node) : Prop :=
  n.tree.symbol = .phrase .element ∨
    n.tree.symbol = .token .text ∧ n.tree.facts.isMissing = false

/-- More nodes are shown than before, and all of them are elements or texts. -/
def Extends (content content' : Option Tree) : Prop :=
  ∀ before, ∃ more, shownOf before content' = shownOf before content ++ more ∧
    ∀ n ∈ more, n.IsPlain

theorem shownOf_putNode (before : Nat) (content : Option Tree) (t : Tree) :
    shownOf before (some (putNode content t))
      = shownOf before content ++ shownOf (before + contentChars content) (some t) := by
  cases content with
  | none => rfl
  | some nodes =>
    have hstart : before + nodes.total.chars + t.facts.padding.chars
        = before + nodes.facts.padding.chars + nodes.facts.size.chars + t.facts.padding.chars := by
      rw [Tree.total, Extent.chars_add, ← Nat.add_assoc before]
    change Node.shown (before + nodes.facts.padding.chars) nodes
        ++ (Node.shown _ t ++ Node.shownAfter _ []) = _ ++ Node.shown (before + _ + _) t
    rw [Node.shownAfter, List.append_nil]
    change _ = _ ++ Node.shown (before + nodes.total.chars + t.facts.padding.chars) t
    rw [hstart]
    rfl

theorem Node.shown_of_isVisible {t : Tree} (h : t.symbol.isVisible = true) (start : Nat) :
    shown start t = [⟨t, start⟩] := by
  cases t with
  | node facts children =>
    rw [shown]
    exact if_pos h

theorem Node.isPlain_text (gap body : List Char) (start : Nat) :
    (Node.mk (.ofToken .text gap body none) start).IsPlain :=
  .inr ⟨rfl, rfl⟩

namespace Extends

theorem refl (content : Option Tree) : Extends content content :=
  fun before => ⟨[], by rw [List.append_nil], nofun⟩

theorem trans {content content' content'' : Option Tree} (h : Extends content content')
    (h' : Extends content' content'') : Extends content content'' := by
  intro before
  obtain ⟨more, hmore, hplain⟩ := h before
  obtain ⟨more', hmore', hplain'⟩ := h' before
  refine ⟨more ++ more', by rw [hmore', hmore, List.append_assoc], fun n hn => ?_⟩
  rcases List.mem_append.mp hn with hn | hn
  · exact hplain n hn
  · exact hplain' n hn

/-- A text or an element is one more node that is shown. -/
theorem put (content : Option Tree) {t : Tree} (ht : ∀ start, (Node.mk t start).IsPlain) :
    Extends content (some (putNode content t)) := by
  intro before
  refine ⟨_, shownOf_putNode before content t, fun n hn => ?_⟩
  have hvisible : t.symbol.isVisible = true := by
    rcases ht 0 with hsymbol | ⟨hsymbol, -⟩
    all_goals
      rw [show t.symbol = _ from hsymbol]
      rfl
  rw [shownOf, Node.shown_of_isVisible hvisible, List.mem_singleton] at hn
  rw [hn]
  exact ht _

end Extends

/-! ## Readings among nodes -/

namespace Reading

/-- A reading comes to another in at most four steps for each character. -/
def Advances (r r' : Reading) : Prop :=
  ∃ n, Reaches (4 * n) r r' ∧ r'.place.before.chars = r.place.before.chars + n ∧
    r.place.rest.length = r'.place.rest.length + n

theorem Advances.refl (r : Reading) : Advances r r :=
  ⟨0, .refl _ r, rfl, rfl⟩

theorem Advances.trans {r s t : Reading} (h : Advances r s) (h' : Advances s t) : Advances r t := by
  obtain ⟨m, hm, hbeforem, hrestm⟩ := h
  obtain ⟨n, hn, hbeforen, hrestn⟩ := h'
  refine ⟨m + n, ?_, by omega, by omega⟩
  rw [Nat.mul_add]
  exact hm.trans hn

/-- A token that is not empty takes a reading on, after three phrases at most. -/
theorem Advances.token {frames frames' : List Frame} {before : Extent} {gap body tail : List Char}
    {memory kept : Memory} {t : Token} {next : State}
    (hfinds : Lookahead.Finds (topState frames) memory ⟨before, gap ++ (body ++ tail)⟩ t gap body
      kept)
    (hbody : body ≠ []) (hreduces : Reduces 3 t frames frames')
    (hshift : (topState frames').action? t = some (.shift next)) :
    Advances ⟨frames, ⟨before, gap ++ (body ++ tail)⟩, memory, none⟩
      ⟨⟨next, .ofToken t gap body kept⟩ :: frames', ⟨before + .ofChars (gap ++ body), tail⟩,
        kept.or memory, none⟩ := by
  have hpositive := List.length_pos_iff.mpr hbody
  refine ⟨gap.length + body.length,
    (Reaches.token hfinds hreduces hshift).mono (by omega), ?_, ?_⟩
  · change (before + Extent.ofChars (gap ++ body)).chars = _
    rw [Extent.chars_add, Extent.chars_ofChars, List.length_append]
  · change (gap ++ (body ++ tail)).length = tail.length + _
    rw [List.length_append, List.length_append, Nat.add_comm tail.length, Nat.add_assoc]

/-- The name of a tag and the bracket behind it are taken in. -/
theorem Advances.tagRest {opened named built : State} (opening : Tree) (below : List Frame)
    {before : Extent} {name rest : List Char} {memory : Memory} {stack : List Element} {t : Token}
    (hfinds : Lookahead.Finds opened memory ⟨before, [] ++ (name ++ '>' :: rest)⟩ t [] name
      (some stack))
    (hne : name ≠ []) (hname : opened.action? t = some (.shift named)) (hnamed : named.IsTagRest)
    (hclose : named.action? .close = some (.shift built)) :
    Advances ⟨⟨opened, opening⟩ :: below, ⟨before, name ++ '>' :: rest⟩, memory, none⟩
      ⟨⟨built, .ofToken .close [] ['>'] none⟩ :: ⟨named, .ofToken t [] name (some stack)⟩
          :: ⟨opened, opening⟩ :: below,
        ⟨before + .ofChars name + .ofChars ['>'], rest⟩, some stack, none⟩ := by
  have hfirst : Advances
      ⟨⟨opened, opening⟩ :: below, ⟨before, [] ++ (name ++ '>' :: rest)⟩, memory, none⟩
      ⟨⟨named, .ofToken t [] name (some stack)⟩ :: ⟨opened, opening⟩ :: below,
        ⟨before + .ofChars ([] ++ name), [] ++ (['>'] ++ rest)⟩, some stack, none⟩ :=
    .token hfinds hne (.refl 3 t _) hname
  have hbracket := Lookahead.finds_close hnamed (before + .ofChars ([] ++ name)) (some stack) rest
  exact hfirst.trans (.token hbracket (by simp) (.refl 3 .close _) hclose)

end Reading

/-- A reading among the nodes at a level: what lies below them, which elements are open, the nodes
so far, and where they start. -/
structure Amid (level : Level) (base : List Frame) (stack : List Element) (content : Option Tree)
    (start : Nat) (r : Reading) : Prop where
  settles : Settles level base content r.frames
  memory : r.memory.getD [] = stack
  look : r.look? = none
  chars : r.place.before.chars = start + contentChars content

/-- A reading stands before a gap and what follows it. -/
structure Stands (r : Reading) (gap tail : List Char) : Prop where
  rest : r.place.rest = gap ++ tail
  atGap : AtGap r.place.before gap tail
  text : ∀ c ∈ gap, isTextChar c = true

namespace Amid

variable {level : Level} {base frames : List Frame} {stack : List Element} {content : Option Tree}
  {start : Nat} {r : Reading}

/-- **How text is read** up to a bracket: it is a node unless there are only blanks, and blanks
behind it are left. -/
theorem text (h : Amid level base stack content start r) {run tail : List Char}
    (hrest : r.place.rest = run ++ tail) (hrun : ∀ c ∈ run, isTextChar c = true)
    (hpasses : Outlook.Passes level stack tail) :
    ∃ content' gap r', r.Advances r' ∧ Amid level base stack content' start r' ∧
      Stands r' gap tail ∧ Extends content content' := by
  obtain ⟨frames, ⟨before, rest⟩, memory, look?⟩ := r
  obtain rfl : look? = none := h.look
  obtain rfl : rest = run ++ tail := hrest
  obtain ⟨gap, rest, hsplit, hgap, hblank, hhead⟩ := exists_gap before (run ++ tail)
  have htextual := Lookahead.isTextChar_of_gap hblank
  obtain ⟨body, rfl, rfl⟩ : ∃ body, run = gap ++ body ∧ rest = body ++ tail := by
    rcases List.append_eq_append_iff.mp hsplit with ⟨more, rfl, htail⟩ | ⟨body, rfl, rfl⟩
    · cases more with
      | nil => exact ⟨[], by rw [List.append_nil, List.append_nil], htail.symm⟩
      | cons c more =>
        rcases hpasses.bracket with ⟨rfl, -⟩ | ⟨rest', rfl, -⟩
        · cases htail
        · have hbracket := htextual '<' (by rw [(List.cons.inj htail).1]; simp)
          exact absurd hbracket (by decide)
    · exact ⟨body, rfl, rfl⟩
  cases body with
  | nil =>
    refine ⟨content, gap, _, .refl _, h, ⟨?_, hgap, htextual⟩, .refl content⟩
    change gap ++ [] ++ tail = gap ++ tail
    rw [List.append_nil]
  | cons c body =>
    obtain ⟨word, blanks, hword, hlength, hblanks⟩ := exists_trimmed (c :: body)
    have hc : isBlank c = false := hhead c rfl
    obtain ⟨word, rfl⟩ : ∃ more, word = c :: more := by
      have hpositive := trimmedLength_pos hc body
      rw [hlength] at hpositive
      cases word with
      | nil => exact absurd hpositive (Nat.lt_irrefl 0)
      | cons d word => exact ⟨word, by rw [(List.cons.inj hword).1]⟩
    rw [hword] at hrun hgap hlength
    have hfinds : Lookahead.Finds (topState frames) memory
        ⟨before, gap ++ (c :: word ++ (blanks ++ tail))⟩ .text gap (c :: word) none :=
      Lookahead.finds_text h.settles.state (by rwa [← List.append_assoc] at hrun ⊢)
        (by rwa [List.append_assoc] at hgap) hlength (by rw [h.memory]; exact hpasses)
    obtain ⟨next, hnext, hshift, -, -⟩ := (h.settles.begins.among content).exists_behindNode
    have hadmits : (Follow.node level).admits .text = true := by cases level <;> decide
    have htree := Tree.isExtra_ofToken (t := .text) (by decide) gap (c :: word) none
    have hadvances :=
      Reading.Advances.token hfinds (by simp) (h.settles.reduces .text hadmits) hshift
    refine ⟨_, blanks, ⟨_, ⟨before + .ofChars (gap ++ c :: word), blanks ++ tail⟩, memory, none⟩,
      ?_, ⟨h.settles.node htree hnext, h.memory, rfl, ?_⟩, ⟨rfl, ?_, ?_⟩,
      .put content (Node.isPlain_text gap (c :: word))⟩
    · have hsame : gap ++ c :: body ++ tail = gap ++ (c :: word ++ (blanks ++ tail)) := by
        rw [hword, List.append_assoc, List.append_assoc]
      rw [hsame]
      exact hadvances
    · have hchars : before.chars = start + contentChars content := h.chars
      rw [contentChars_putNode, Tree.chars_total_ofToken]
      change (before + Extent.ofChars (gap ++ c :: word)).chars = _
      rw [Extent.chars_add, Extent.chars_ofChars, List.length_append, hchars]
      omega
    · refine atGap_of_blanks (.inl ?_) hblanks ?_
      · change (before + Extent.ofChars (gap ++ c :: word)).chars ≠ 0
        rw [Extent.chars_add, Extent.chars_ofChars]
        simp
      · intro d hd
        rcases hpasses.bracket with ⟨rfl, -⟩ | ⟨rest', rfl, -⟩
        · cases hd
        · obtain rfl := Option.some.inj hd
          decide
    · exact fun d hd => isTextChar_of_isBlank (hblanks d hd)

/-- The start tag of an element behind a gap. -/
def startTagOf (gap name : List Char) (memory : Memory) : Tree :=
  .branch (.phrase .startTag) [.ofToken .opening gap ['<'] none, .ofToken .startName [] name memory,
    .ofToken .close [] ['>'] none]

/-- The end tag of an element behind a gap. -/
def endTagOf (gap name : List Char) (memory : Memory) : Tree :=
  .branch (.phrase .endTag) [.ofToken .endOpening gap ['<', '/'] none,
    .ofToken .endName [] name memory, .ofToken .close [] ['>'] none]

theorem chars_total_startTagOf (gap name : List Char) (memory : Memory) :
    (startTagOf gap name memory).total.chars = gap.length + name.length + 2 := by
  rw [startTagOf, Tree.chars_total_branch]
  simp
  omega

theorem chars_total_endTagOf (gap name : List Char) (memory : Memory) :
    (endTagOf gap name memory).total.chars = gap.length + name.length + 3 := by
  rw [endTagOf, Tree.chars_total_branch]
  simp
  omega

theorem chars_total_element (startTag : Tree) (content : Option Tree) (endTag : Tree) :
    (Settles.element startTag content endTag).total.chars
      = startTag.total.chars + contentChars content + endTag.total.chars := by
  rw [Settles.element, Tree.chars_total_branch]
  cases content with
  | none => simp [contentChars]
  | some nodes => simp [contentChars, Nat.add_assoc]

/-- The bracket of a start tag is taken in behind the nodes so far. -/
theorem opening (h : Amid level base stack content start r) {gap name rest : List Char}
    (hstands : Stands r gap ('<' :: (name ++ rest))) (hname : IsWord name rest)
    (hpasses : Outlook.Passes level stack ('<' :: (name ++ rest))) :
    r.Advances ⟨⟨.tagOpen level, .ofToken .opening gap ['<'] none⟩ :: withContent base content,
      ⟨r.place.before + .ofChars (gap ++ ['<']), name ++ rest⟩, r.memory, none⟩ := by
  obtain ⟨frames, ⟨before, _⟩, memory, look?⟩ := r
  obtain rfl : look? = none := h.look
  obtain rfl := hstands.rest
  have hmemory : memory.getD [] = stack := h.memory
  have hopening : Lookahead.Finds (topState frames) memory
      ⟨before, gap ++ (['<'] ++ (name ++ rest))⟩ .opening gap ['<'] none :=
    Lookahead.finds_opening h.settles.state hstands.text hstands.atGap (hname.head?_ne (by decide))
      (by rw [hmemory]; exact hpasses)
  have hadmits : (Follow.node level).admits .opening = true := by cases level <;> decide
  exact .token hopening (by simp) (h.settles.reduces .opening hadmits)
    (h.settles.begins.among content).action?_opening

/-- **How a start tag is read**: behind it the nodes of its element begin. -/
theorem startTag (h : Amid level base stack content start r) {gap name rest : List Char}
    (hstands : Stands r gap ('<' :: (name ++ '>' :: rest))) (hname : IsWord name ('>' :: rest))
    (hpasses : Outlook.Passes level stack ('<' :: (name ++ '>' :: rest))) {element : Element}
    (helement : .ofName (.ofChars name) = element) (htoken : startToken element = .startName)
    {opened : List Element} (hopened : remembered (element :: stack) = opened) :
    ∃ r', r.Advances r' ∧ r'.place.rest = rest ∧
      Amid .inner (⟨.opened level, startTagOf gap name (some opened)⟩ :: withContent base content)
        opened none r'.place.before.chars r' ∧
      r'.place.before.chars
        = start + contentChars content + (startTagOf gap name (some opened)).total.chars := by
  have hopening := h.opening hstands hname hpasses
  have houtlook : (State.tagOpen level).outlook = .startName := rfl
  have hfinds := Lookahead.finds_startName houtlook hname
    (r.place.before + .ofChars (gap ++ ['<'])) r.memory
  rw [helement, htoken, h.memory, hopened] at hfinds
  have hrest := Reading.Advances.tagRest (.ofToken .opening gap ['<'] none)
    (withContent base content) hfinds hname.ne_nil
    (show (State.tagOpen level).action? .startName = some (.shift (.tagNamed level)) from rfl)
    ⟨.inl rfl, .inl rfl⟩ rfl
  refine ⟨_, hopening.trans hrest, rfl, ⟨?_, rfl, rfl, rfl⟩, ?_⟩
  · exact h.settles.startTag (Tree.isExtra_ofToken (by decide) _ _ _)
      (Tree.isExtra_ofToken (by decide) _ _ _) (Tree.isExtra_ofToken (by decide) _ _ _)
  · rw [chars_total_startTagOf]
    simp [h.chars]
    omega

/-- **How an end tag is read**: behind it its element is a node. -/
theorem endTag {inside : Option Tree} {startTag : Tree} {gap name rest : List Char}
    {element : Element} (hsettles : Settles level base content frames)
    (h : Amid .inner (⟨.opened level, startTag⟩ :: withContent base content) (element :: stack)
      inside (start + contentChars content + startTag.total.chars) r)
    (hstands : Stands r gap ('<' :: '/' :: (name ++ '>' :: rest)))
    (hname : IsWord name ('>' :: rest)) (helement : .ofName (.ofChars name) = element)
    (hstart : startTag.isExtra = false) (hremembered : remembered stack = stack) :
    ∃ r', r.Advances r' ∧ r'.place.rest = rest ∧ r'.memory = some stack ∧
      Amid level base stack (some (putNode content
        (Settles.element startTag inside (endTagOf gap name (some stack))))) start r' := by
  obtain ⟨framesInside, ⟨before, _⟩, memory, look?⟩ := r
  obtain rfl : look? = none := h.look
  obtain rfl := hstands.rest
  have hmemory : memory.getD [] = element :: stack := h.memory
  have hpasses : Outlook.Passes .inner (element :: stack) ('<' :: '/' :: (name ++ '>' :: rest)) :=
    ⟨.inr ⟨_, rfl, by simp, fun _ => by rw [← helement]; exact closesTop_endTag hname⟩⟩
  have hopening : Lookahead.Finds (topState framesInside) memory
      ⟨before, gap ++ (['<', '/'] ++ (name ++ '>' :: rest))⟩ .endOpening gap ['<', '/'] none :=
    Lookahead.finds_endOpening h.settles.state hstands.text hstands.atGap
      (by rw [hmemory]; exact hpasses)
  have hshift : (topState (withContent (⟨.opened level, startTag⟩ :: withContent base content)
      inside)).action? .endOpening = some (.shift (.endOpen level)) := by
    cases inside <;> rfl
  have hfirst := Reading.Advances.token hopening (by simp)
    (h.settles.reduces .endOpening (by decide)) hshift
  have hfinds : Lookahead.Finds (.endOpen level) ((none : Memory).or memory)
      ⟨before + .ofChars (gap ++ ['<', '/']), [] ++ (name ++ '>' :: rest)⟩ .endName [] name
      (some stack) := by
    have hfound := Lookahead.finds_endName (show (State.endOpen level).outlook = .endName from rfl)
      hname (before + .ofChars (gap ++ ['<', '/'])) (by rw [hmemory, helement])
    rwa [hremembered] at hfound
  have hrest := Reading.Advances.tagRest (.ofToken .endOpening gap ['<', '/'] none)
    (withContent (⟨.opened level, startTag⟩ :: withContent base content) inside) hfinds hname.ne_nil
    (show (State.endOpen level).action? .endName = some (.shift (.endNamed level)) from rfl)
    ⟨.inr rfl, .inr rfl⟩ rfl
  refine ⟨_, hfirst.trans hrest, rfl, rfl, ?_, rfl, rfl, ?_⟩
  · exact hsettles.endTag h.settles hstart (Tree.isExtra_ofToken (by decide) _ _ _)
      (Tree.isExtra_ofToken (by decide) _ _ _) (Tree.isExtra_ofToken (by decide) _ _ _)
  · have hchars : before.chars
        = start + contentChars content + startTag.total.chars + contentChars inside := h.chars
    rw [contentChars_putNode, chars_total_element, chars_total_endTagOf]
    simp [hchars]
    omega

end Amid

end SfcProxy.Markup
