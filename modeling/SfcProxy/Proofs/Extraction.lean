import SfcProxy.Proofs.Alignment
import SfcProxy.Proofs.Markup.Forgetting
import SfcProxy.Proofs.Markup.Script

/-!
# Extraction from well-formed components

A component of nested elements with one script element among them is read without faults, and its
tree shows the script element between elements and texts. So the block that is extracted is that of
the script element, as it stands in the source. Elements that are nested deeper than is remembered
lead to a fault before an equally sound script.

## Main definitions

* `Component.writtenBlock`: the block of a script element, by what is written before and in it
* `Component.faultKinds`: the kinds of the faults of a tree

## Main results

* `Markup.exists_children`: the nodes of a component with a script element
* `Component.extract_scriptSource`: the block of a component with a script element
* `Component.faults_overNested`: the faults of a component with an element that is forgotten
-/

namespace SfcProxy

namespace Markup

/-! ## Whole documents -/

theorem treeOf_eq {source : List Char} {n : Nat} {r : Reading} {tree : Tree}
    (h : Reading.Reaches n (.start source) r) (hend : r.step = .inr (.document tree))
    (hbudget : n < 8 * source.length + 16) : treeOf source = tree := by
  unfold treeOf Reading.run
  rw [h.runFrom hend hbudget]

/-- Where reading is stuck, the tree is the one with which it is resumed. -/
theorem treeOf_of_stuck {source : List Char} {r : Reading} {look : Lookahead} {tree : Tree}
    (hrun : Reading.run source = .stuck r look)
    (hrecovery : Recovery.run source r look = some tree) : treeOf source = tree := by
  unfold treeOf
  rw [hrun]
  change (Recovery.run source r look).getD _ = tree
  rw [hrecovery, Option.getD_some]

/-- **How reading ends** behind nodes and a gap: they are the document. -/
theorem treeOf_of_amid {source gap : List Char} {nodes : Tree} {r : Reading}
    (hadvances : (Reading.start source).Advances r)
    (h : Amid .top [] [] (some nodes) 0 r) (hstands : Stands r gap []) :
    treeOf source = .branch (.phrase .document) [nodes, .ofToken .finish gap [] none] := by
  obtain ⟨n, hreaches, -, hlength⟩ := hadvances
  obtain ⟨frames, ⟨before, _⟩, memory, look?⟩ := r
  obtain rfl : look? = none := h.look
  obtain rfl := hstands.rest
  have hstate := h.settles.state
  have hfinds : Lookahead.Finds (topState frames) memory ⟨before, gap ++ ([] ++ [])⟩ .finish gap []
      none := Lookahead.finds_finish hstate hstands.text hstands.atGap
  have hdocument : Reading.Reduces 1 .finish [⟨.nodes, nodes⟩]
      [⟨.finished, .branch (.phrase .document) [nodes]⟩] :=
    Reading.Reduces.phrase [⟨.nodes, nodes⟩] [] (by simp [h.settles.counts nodes rfl]) rfl rfl
  have hunfinished : topState frames ≠ .finished := by
    intro hfinished
    rw [hfinished] at hstate
    cases hstate.lexicon
  obtain ⟨s, hs, hend⟩ := Reading.Reaches.accept hfinds
    ((h.settles.reduces .finish rfl).trans hdocument) hunfinished rfl
  refine treeOf_eq (hreaches.trans hs) hend ?_
  change source.length = _ + n at hlength
  omega

/-- The nodes of a document are its children that are shown; its end is not. -/
theorem children_document {source gap : List Char} {nodes : Tree}
    (h : treeOf source = .branch (.phrase .document) [nodes, .ofToken .finish gap [] none]) :
    (document source).children = shownOf 0 (some nodes) := by
  unfold document
  rw [h, shownOf, Nat.zero_add]
  change Node.shown nodes.facts.padding.chars nodes ++ [] = _
  rw [List.append_nil]

/-- **A script element between outlines** is a node of the document, and all others are elements
and texts. -/
theorem exists_children (p q : Outline) (hp : p.depth ≤ 1019) (hq : q.depth ≤ 1019)
    {lang text : List Char} (hlang : lang ≠ [] ∧ ∀ c ∈ lang, c.isAlpha = true)
    (htext : IsScriptText text) :
    ∃ before gap after, (document (p.chars ++ (scriptSource lang text ++ q.chars))).children
        = before ++ ⟨scriptOf gap lang text [], p.chars.length⟩ :: after ∧
      (∀ n ∈ before, n.IsPlain) ∧ ∀ n ∈ after, n.IsPlain := by
  generalize hsource : p.chars ++ (scriptSource lang text ++ q.chars) = source
  have hstart : Amid .top [] (([] : List TagName).map TagName.element) none 0 (.start source) :=
    ⟨.empty .top, rfl, rfl, rfl⟩
  have hpasses : Outlook.Passes .top [] (scriptSource lang text ++ q.chars) :=
    ⟨.inr ⟨_, rfl, by simp [scriptTagSource_eq], nofun⟩⟩
  obtain ⟨content₁, gap₁, r₁, hadvances₁, hamid₁, hstands₁, hextends₁⟩ :=
    p.reads hstart (by simpa using hp) hsource.symm hpasses
  obtain ⟨r₂, hadvances₂, hrest₂, hamid₂⟩ :=
    Amid.script hamid₁ hstands₁ hpasses hlang htext (by decide +kernel) (by decide +kernel)
  obtain ⟨content₃, gap₃, r₃, hadvances₃, hamid₃, hstands₃, hextends₃⟩ :=
    q.reads hamid₂ (by simpa using hq) (by rw [hrest₂, List.append_nil]) ⟨.inl ⟨rfl, rfl⟩⟩
  have hplace : contentChars content₁ + gap₁.length = p.chars.length := by
    obtain ⟨n, -, hbefore, hlength⟩ := hadvances₁
    rw [hstands₁.rest, List.length_append] at hlength
    rw [hamid₁.chars] at hbefore
    change source.length = _ at hlength
    change _ = 0 + n at hbefore
    rw [← hsource, List.length_append] at hlength
    omega
  obtain ⟨before, hbefore, hplain⟩ := hextends₁ 0
  obtain ⟨after, hafter, hplain'⟩ := hextends₃ 0
  rw [shownOf_putNode, hbefore, List.map_nil] at hafter
  have hshown : shownOf (0 + contentChars content₁) (some (scriptOf gap₁ lang text []))
      = [⟨scriptOf gap₁ lang text [], p.chars.length⟩] := by
    have hpadding : (scriptOf gap₁ lang text []).facts.padding.chars = gap₁.length :=
      Extent.chars_ofChars gap₁
    rw [shownOf, Node.shown_of_isVisible rfl, hpadding, Nat.zero_add, hplace]
  rw [hshown] at hafter
  refine ⟨before, gap₁, after, ?_, hplain, hplain'⟩
  cases content₃ with
  | none => simp [shownOf] at hafter
  | some nodes =>
    rw [children_document (treeOf_of_amid
      ((hadvances₁.trans hadvances₂).trans hadvances₃) hamid₃ hstands₃), hafter]
    simp [shownOf]

/-! ## The script element -/

/-- What a node spells stands at its place in the source. -/
theorem Node.text_eq {source front body tail : List Char} {n : Node}
    (hsource : source = front ++ (body ++ tail)) (hstart : n.start = front.length)
    (hsize : n.tree.facts.size.chars = body.length) : n.text source = body := by
  rw [text, hstart, hsize, hsource, List.drop_left, List.take_left]

/-- An attribute with a value in quotes is that value under its name. -/
theorem attribute?_quotedAttribute {source front name value tail : List Char}
    (hsource : source = front ++ (attributeSource name value ++ tail)) (hname : name ≠ []) :
    Node.attribute? source ⟨quotedAttribute name value, front.length + 1⟩
      = some (name, .text value) := by
  have hnameSource : source
      = (front ++ [' ']) ++ (name ++ ('=' :: '"' :: (value ++ ['"']) ++ tail)) := by
    rw [hsource]
    simp [attributeSource]
  have hvalueSource : source
      = (front ++ ' ' :: (name ++ ['=', '"'])) ++ (value ++ ('"' :: tail)) := by
    rw [hsource]
    simp [attributeSource]
  have hnameText : (Node.mk (.ofToken .attributeName [' '] name none)
      (front.length + 1)).text source = name :=
    Node.text_eq hnameSource (by simp) (Extent.chars_ofChars name)
  have hvalueText : (Node.mk (.ofToken .quoteText [] value none) (front.length + 1
      + (Extent.ofChars name).chars + 2)).text source = value :=
    Node.text_eq hvalueSource (by simp; omega) (Extent.chars_ofChars value)
  have hnames : (Node.mk (quotedAttribute name value) (front.length + 1)).children.filter
      (fun part => part.isToken .attributeName)
      = [⟨.ofToken .attributeName [' '] name none, front.length + 1⟩] := rfl
  have hvalues : (Node.mk (quotedAttribute name value) (front.length + 1)).children.filterMap
      (Node.attributeValue? source) = [.text value] := by
    change [Attribute.text ((Node.mk (.ofToken .quoteText [] value none) (front.length + 1
      + (Extent.ofChars name).chars + 2)).text source)] = _
    rw [hvalueText]
  unfold Node.attribute?
  dsimp only
  rw [hnames, hvalues, List.getLast?_singleton, Option.map_some, hnameText]
  cases name with
  | nil => exact absurd rfl hname
  | cons c name => rfl

/-- The attribute of a script tag is the language that it spells. -/
theorem attributes_scriptTagOf {source front tail gap lang : List Char} {memory : Memory}
    (hsource : source = front ++ ('<' :: scriptTagSource lang ++ tail)) :
    (Node.mk (scriptTagOf gap lang memory) front.length).attributes source
      = [("lang".toList, .text lang)] := by
  have htag : source = (front ++ "<script".toList)
      ++ (attributeSource "lang".toList lang ++ ('>' :: tail)) := by
    rw [hsource]
    simp [scriptTagSource_eq]
  have hattribute := attribute?_quotedAttribute htag (by decide)
  rw [List.length_append] at hattribute
  change Attribute.distinct ([Node.mk (quotedAttribute "lang".toList lang)
    (front.length + "<script".toList.length + 1)].filterMap (Node.attribute? source)) = _
  rw [List.filterMap_cons, hattribute]
  rfl

theorem chars_size_scriptTagOf (gap lang : List Char) (memory : Memory) :
    (scriptTagOf gap lang memory).facts.size.chars = ('<' :: scriptTagSource lang).length := by
  rw [scriptTagOf, Tree.chars_size_branch]
  have hopening : (Tree.ofToken .opening gap ['<'] none).facts.size.chars = 1 := rfl
  simp only [hopening, List.map_cons, List.map_nil, List.sum_cons, List.sum_nil,
    Tree.chars_total_ofToken, quotedAttribute, Tree.chars_total_branch, scriptTagSource_eq,
    attributeSource, List.length_cons, List.length_append, List.length_nil]
  omega

end Markup

namespace Component

open Markup

/-- The block of a script element with a language behind some text. -/
def writtenBlock (front lang text : List Char) : ScriptBlock where
  content := text
  start := .after (front ++ '<' :: scriptTagSource lang)
  finish := .after (front ++ '<' :: scriptTagSource lang ++ text)
  attributes := [("lang".toList, .text lang)]

/-- The block of a script element is what is written. -/
theorem blockOf?_scriptOf {source front tail gap lang text : List Char} {stack : List Element}
    (hsource : source = front ++ (scriptSource lang text ++ tail)) :
    blockOf? source ⟨scriptOf gap lang text stack, front.length⟩
      = some (writtenBlock front lang text) := by
  have hattributes : (Node.mk (scriptTagOf gap lang (some (.script :: stack)))
      front.length).attributes source = [("lang".toList, .text lang)] := by
    have hsplit : source = front ++ ('<' :: scriptTagSource lang
        ++ (text ++ ("</script".toList ++ '>' :: tail))) := by
      rw [hsource]
      simp [scriptSource]
    exact attributes_scriptTagOf hsplit
  change some (blockBetween source (front.length
    + (scriptTagOf gap lang (some (.script :: stack))).facts.size.chars)
    (front.length + (scriptTagOf gap lang (some (.script :: stack))).facts.size.chars
      + (Extent.ofChars text).chars) ((Node.mk (scriptTagOf gap lang (some (.script :: stack)))
      front.length).attributes source)) = _
  rw [hattributes, chars_size_scriptTagOf, Extent.chars_ofChars, ← List.length_append]
  generalize hbefore : front ++ '<' :: scriptTagSource lang = before
  have hsplit : source = before ++ (text ++ ("</script".toList ++ '>' :: tail)) := by
    rw [hsource, ← hbefore]
    simp [scriptSource]
  have htake : source.take (before.length + text.length) = before ++ text := by
    rw [hsplit, ← List.append_assoc, ← List.length_append, List.take_left]
  rw [blockBetween, htake, Nat.add_sub_cancel_left, hsplit, List.take_left, List.drop_left,
    List.take_left, writtenBlock, hbefore]

/-- The block is the one that is looked for if the language is that of the block. -/
theorem candidate?_scriptOf {source front tail gap lang text : List Char} {stack : List Element}
    (hsource : source = front ++ (scriptSource lang text ++ tail)) :
    candidate? (.ofChars lang) source ⟨scriptOf gap lang text stack, front.length⟩
      = some (writtenBlock front lang text) := by
  rw [candidate?, blockOf?_scriptOf hsource, Option.filter_some]
  exact if_pos (by simp [writtenBlock, ScriptBlock.isSetup, ScriptBlock.lang?,
    ScriptBlock.attribute?, Attribute.text?])

/-- Elements and texts do not concern scripts. -/
theorem concerns_of_isPlain {n : Node} (h : n.IsPlain) :
    n.isPhrase .scriptElement = false ∧ concerns n = false := by
  rcases h with hsymbol | ⟨hsymbol, hthere⟩
  · simp [concerns, Node.isPhrase, Facts.fault?, show n.tree.facts.symbol = _ from hsymbol, hsymbol]
  · simp [concerns, Node.isPhrase, Facts.fault?, show n.tree.facts.symbol = _ from hsymbol, hsymbol,
      hthere]

theorem filter_between (test : Node → Bool) {before after : List Node} {n : Node}
    (hn : test n = true) (hbefore : ∀ m ∈ before, test m = false)
    (hafter : ∀ m ∈ after, test m = false) : (before ++ n :: after).filter test = [n] := by
  rw [List.filter_append, List.filter_eq_nil_iff.mpr fun m hm => by rw [hbefore m hm]; decide,
    List.filter_cons_of_pos hn, List.filter_eq_nil_iff.mpr fun m hm => by rw [hafter m hm]; decide]
  rfl

/-- **Extraction from well-formed components**: the block is that of the script element as it is
written, and there are no faults. -/
theorem extract_scriptSource (p q : Outline) (hp : p.depth ≤ 1019) (hq : q.depth ≤ 1019)
    {lang text : List Char} (hlang : lang ≠ [] ∧ ∀ c ∈ lang, c.isAlpha = true)
    (htext : IsScriptText text) :
    extract (.ofChars lang) (p.chars ++ (scriptSource lang text ++ q.chars))
      = ⟨some (writtenBlock p.chars lang text), []⟩ := by
  obtain ⟨before, gap, after, hchildren, hbefore, hafter⟩ := exists_children p q hp hq hlang htext
  generalize hn : Node.mk (scriptOf gap lang text []) p.chars.length = n at hchildren
  have hscripts := filter_between (fun n => n.isPhrase .scriptElement)
    (show n.isPhrase .scriptElement = true by rw [← hn]; rfl)
    (fun m hm => (concerns_of_isPlain (hbefore m hm)).1)
    (fun m hm => (concerns_of_isPlain (hafter m hm)).1)
  have hconcerned := filter_between concerns (show concerns n = true by rw [← hn]; rfl)
    (fun m hm => (concerns_of_isPlain (hbefore m hm)).2)
    (fun m hm => (concerns_of_isPlain (hafter m hm)).2)
  have hfaults : n.faults = [] := by rw [← hn]; rfl
  unfold extract
  dsimp only
  rw [hchildren, hscripts, hconcerned, List.filterMap_cons, List.flatMap_cons, hfaults, ← hn,
    candidate?_scriptOf rfl]
  rfl

/-! ## Elements that are nested too deep -/

/-- The kinds of the faults of the script elements in a tree and of the faults between them. -/
def faultKinds (t : Tree) : List FaultKind :=
  (((Node.mk t t.facts.padding.chars).children.filter concerns).flatMap Node.faults).map Fault.kind

theorem faults_extract (lang : Text) (source : List Char) :
    (extract lang source).faults.map SyntaxFault.kind = faultKinds (treeOf source) := by
  unfold extract faultKinds document
  dsimp only
  rw [List.map_map]
  rfl

/-- Nested elements, of which the innermost is forgotten, and a script element behind them. -/
def overNested : List Char :=
  startTags 1020 ++ (endTags 1020 ++ scriptSource ['a'] [])

/-- Where reading that source is stuck. -/
def overNestedReading : Reading :=
  strayReading ⟨11216, 11216, 0⟩ (scriptSource ['a'] [])

theorem faultKinds_recovery :
    (Recovery.run overNested overNestedReading overNestedReading.look).map faultKinds
      = some [.unexpected] := by
  decide +kernel

/-- **An element that is forgotten** is a fault, though each element has its end tag. -/
theorem faults_overNested (lang : Text) :
    (extract lang overNested).faults.map SyntaxFault.kind = [.unexpected] := by
  obtain ⟨tree, htree, hkinds⟩ := Option.map_eq_some_iff.mp faultKinds_recovery
  have hrun : Reading.run overNested = .stuck overNestedReading overNestedReading.look :=
    run_nested (scriptSource ['a'] [])
  rw [faults_extract, treeOf_of_stuck hrun htree, hkinds]

/-! ## Well-formed components -/

/-- **Exact extraction**: from a component with a script element between nested elements its block
is extracted without faults, with the content and the language as written. -/
theorem extractText_wellFormed (p q : Outline) (hp : p.depth ≤ 1019) (hq : q.depth ≤ 1019)
    {lang content : List Char} (hlang : lang ≠ [] ∧ ∀ c ∈ lang, c.isAlpha = true)
    (hcontent : IsScriptText content) :
    ∃ block, extractText (.ofChars lang) (.ofChars (p.chars ++ "<script lang=\"".toList ++ lang
        ++ "\">".toList ++ content ++ "</script>".toList ++ q.chars)) = .ok ⟨some block, []⟩ ∧
      block.content = content ∧ block.lang? = some lang ∧ block.isSetup = false ∧
      block.start.line = 1 + p.chars.count '\n' := by
  have hsource : p.chars ++ "<script lang=\"".toList ++ lang ++ "\">".toList ++ content
      ++ "</script>".toList ++ q.chars = p.chars ++ (scriptSource lang content ++ q.chars) := by
    simp [scriptSource, scriptTagSource_eq, attributeSource]
  refine ⟨writtenBlock p.chars lang content, ?_, rfl, rfl, rfl, ?_⟩
  · rw [hsource, extractText_ofChars, extract_scriptSource p q hp hq hlang hcontent]
  · -- there is no line break in the start tag
    have hletters : lang.count '\n' = 0 :=
      List.count_eq_zero.mpr fun h => absurd (hlang.2 _ h) (by decide)
    have htag : ('<' :: scriptTagSource lang).count '\n' = 0 := by
      simp [scriptTagSource_eq, attributeSource, hletters]
    change ((p.chars ++ '<' :: scriptTagSource lang).count '\n' : Int) + 1 = _
    rw [List.count_append, htag, Nat.add_zero, Int.add_comm]

/-- A component with elements in elements and text that is no markup in its script. -/
theorem extractText_wellFormed_comparison :
    ∃ block, extractText (.ofChars "gleam".toList) (.ofChars ("<div>a\n<span></span></div>\n".toList
        ++ "<script lang=\"".toList ++ "gleam".toList ++ "\">".toList ++ "x << 1 < y".toList
        ++ "</script>".toList ++ "\n<template>é</template>".toList)) = .ok ⟨some block, []⟩ ∧
      block.content = "x << 1 < y".toList ∧ block.lang? = some "gleam".toList ∧
      block.isSetup = false ∧ block.start.line = 3 := by
  obtain ⟨p, hp, hdepth⟩ : ∃ p : Outline, p.chars = "<div>a\n<span></span></div>\n".toList ∧
      p.depth ≤ 1019 :=
    ⟨.element ⟨[], nofun⟩ .div (.element ⟨"a\n".toList, List.all_eq_true.mp (by decide)⟩ .span
      (.last ⟨[], nofun⟩) (.last ⟨[], nofun⟩))
      (.last ⟨"\n".toList, List.all_eq_true.mp (by decide)⟩), by decide, by decide⟩
  obtain ⟨q, hq, hdepth'⟩ : ∃ q : Outline, q.chars = "\n<template>é</template>".toList ∧
      q.depth ≤ 1019 :=
    ⟨.element ⟨"\n".toList, List.all_eq_true.mp (by decide)⟩ .template
      (.last ⟨"é".toList, List.all_eq_true.mp (by decide)⟩) (.last ⟨[], nofun⟩),
      by decide, by decide⟩
  have hlang : "gleam".toList ≠ [] ∧ ∀ c ∈ "gleam".toList, c.isAlpha = true :=
    ⟨by decide, List.all_eq_true.mp (by decide)⟩
  have hcontent : IsScriptText "x << 1 < y".toList := by
    refine ⟨by decide, fun hopens => ?_, by decide⟩
    exact absurd (hopens.subset (show '/' ∈ ['<', '/'] by decide)) (by decide)
  have hblock := extractText_wellFormed p q hdepth hdepth' hlang hcontent
  rw [hp, hq] at hblock
  exact hblock

/-- A component with elements that are nested one level deeper has a fault, and a script with a
surrogate in it is no text that is read. -/
theorem extractText_nested_faulty :
    (∃ p : Outline, p.depth = 1020 ∧ ∃ e, extractText (.ofChars "a".toList) (.ofChars (p.chars
        ++ "<script lang=\"".toList ++ "a".toList ++ "\">".toList ++ [] ++ "</script>".toList
        ++ [])) = .ok e ∧ e.faults.map SyntaxFault.kind = [.unexpected]) ∧
      ∃ error, extractText (.ofChars "a".toList) (Text.ofChars "<script lang=\"a\">".toList
        ++ [.surrogate 0] ++ Text.ofChars "</script>".toList) = .error error := by
  refine ⟨⟨.nested 1020, Outline.depth_nested 1020,
    extract (.ofChars "a".toList) overNested, ?_, faults_overNested _⟩, _, rfl⟩
  have hsource : (Outline.nested 1020).chars ++ "<script lang=\"".toList ++ "a".toList
      ++ "\">".toList ++ [] ++ "</script>".toList ++ [] = overNested := by
    rw [Outline.chars_nested, overNested]
    simp only [List.append_assoc]
    rfl
  rw [hsource, extractText_ofChars]

end Component

end SfcProxy
