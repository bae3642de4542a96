import SfcProxy.Component
import SfcProxy.Proofs.Markup.Recovery
import SfcProxy.Proofs.Text

/-!
# Blocks stand where their positions say

A block is the part of its component between two tags, so the component splits around its content.
Its positions count the line breaks and the bytes before the two cuts, and its line offset counts
the line breaks before its source text. Every place of the source text is therefore found again in
the component by adding the line offset to its line; its column stays, but on the line of the
start tag.

## Main definitions

* `LastLine text last`: what a text has behind its last line break
* `Position.Behind p text`: the position `p` is the one behind a text
* `Component.Spans source b pre post`: a source splits around the content of a block

## Main results

* `Position.behind_after`: the position behind a text is computed correctly
* `Component.exists_spans`: every extracted block has a place in its source
* `Component.extractText_aligned`: lines and columns of an extracted block
-/

namespace SfcProxy

/-! ## Positions -/

/-- The part of a text behind its last line break; all of it where there is none. -/
structure LastLine (text last : List Char) : Prop where
  unbroken : '\n' ∉ last
  tail : text = last ∨ ∃ front, text = front ++ '\n' :: last

namespace LastLine

variable {text front last last' : List Char}

theorem takeWhile (text : List Char) :
    LastLine text (text.reverse.takeWhile (· != '\n')).reverse := by
  have hsplit : text = (text.reverse.dropWhile (· != '\n')).reverse
      ++ (text.reverse.takeWhile (· != '\n')).reverse := by
    rw [← List.reverse_append, List.takeWhile_append_dropWhile, List.reverse_reverse]
  refine ⟨fun h => ?_, ?_⟩
  · have hne := List.mem_takeWhile_imp (List.mem_reverse.mp h)
    simp at hne
  cases hrest : text.reverse.dropWhile (· != '\n') with
  | nil =>
    rw [hrest] at hsplit
    exact .inl hsplit
  | cons c rest =>
    have hc : c = '\n' := by
      have := List.head?_dropWhile_not (· != '\n') text.reverse
      rw [hrest] at this
      simpa using this
    rw [hrest, hc] at hsplit
    exact .inr ⟨rest.reverse, by simpa using hsplit⟩

/-- Text before a text with a line break does not change its last line. -/
theorem append_of_mem (h : LastLine text last) (hm : '\n' ∈ text) (front : List Char) :
    LastLine (front ++ text) last := by
  refine ⟨h.unbroken, .inr ?_⟩
  rcases h.tail with rfl | ⟨before, rfl⟩
  · exact absurd hm h.unbroken
  · exact ⟨front ++ before, by simp⟩

theorem append_break (h : LastLine text last) (front : List Char) :
    LastLine (front ++ '\n' :: text) last := by
  refine ⟨h.unbroken, .inr ?_⟩
  rcases h.tail with rfl | ⟨before, rfl⟩
  · exact ⟨front, rfl⟩
  · exact ⟨front ++ '\n' :: before, by simp⟩

theorem unique (h : LastLine text last) (h' : LastLine text last') : last = last' := by
  have hlast : ∀ {l : List Char}, LastLine text l →
      l = (text.reverse.takeWhile (· != '\n')).reverse := by
    intro l hl
    have hall : ∀ c ∈ l.reverse, (c != '\n') = true := by
      intro c hc
      simp only [bne_iff_ne]
      rintro rfl
      exact hl.unbroken (List.mem_reverse.mp hc)
    rcases hl.tail with rfl | ⟨front, rfl⟩
    · rw [List.takeWhile_eq_self_iff.mpr hall, List.reverse_reverse]
    · simp [List.takeWhile_append_of_pos hall]
  rw [hlast h, hlast h']

end LastLine

theorem Utf8.length_encodeChar (c : Char) : (encodeChar c).length = c.utf8Size := by
  have hlt : ∀ n : UInt32, c.val ≤ n ↔ c.toNat < n.toNat + 1 := fun n => by
    rw [UInt32.le_iff_toNat_le, Nat.lt_succ_iff]
    rfl
  unfold encodeChar Char.utf8Size
  simp only [hlt]
  grind

theorem Utf8.length_encodeChars (cs : List Char) :
    (encodeChars cs).length = (String.ofList cs).utf8ByteSize := by
  induction cs with
  | nil => rfl
  | cons c cs ih =>
    rw [encodeChars, List.flatMap_cons, List.length_append, length_encodeChar, String.ofList_cons,
      String.utf8ByteSize_append, String.utf8ByteSize_singleton, ← ih, encodeChars]

/-- A position is the one behind a text: its line counts the line breaks of the text and its column
the bytes behind the last of them, both from one. -/
structure Position.Behind (p : Position) (text : List Char) : Prop where
  line : p.line = text.count '\n' + 1
  column : ∃ last, LastLine text last ∧ p.column = (String.ofList last).utf8ByteSize + 1

namespace Position

theorem behind_after (text : List Char) : (after text).Behind text :=
  ⟨rfl, _, .takeWhile text, by simp [after, Utf8.length_encodeChars]⟩

/-- A place keeps its column behind more text where it does not stand on the first line, or where
that text ends with a line break. -/
theorem Behind.column_eq {p q : Position} {front text : List Char} (hp : p.Behind text)
    (hq : q.Behind (front ++ text)) (h : '\n' ∈ text ∨ ∃ front', front = front' ++ ['\n']) :
    q.column = p.column := by
  obtain ⟨last, hlast, hcol⟩ := hp.column
  obtain ⟨last', hlast', hcol'⟩ := hq.column
  have hsame : LastLine (front ++ text) last := by
    rcases h with hm | ⟨front', rfl⟩
    · exact hlast.append_of_mem hm front
    · rw [List.append_assoc]
      exact hlast.append_break front'
  rw [hcol, hcol', hlast'.unique hsame]

end Position

/-! ## The tags of a script element -/

namespace Markup.Node

/-- A script element shows its start tag first, and all else behind it. -/
theorem children_of_scriptElement {n : Node} (hn : n.tree.Headed)
    (hs : n.isPhrase .scriptElement = true) :
    ∃ tag rest, n.children = tag :: rest ∧ tag.isPhrase .scriptStartTag = true ∧
      ∀ m ∈ rest, tag.finish ≤ m.start := by
  obtain ⟨tag, rest, hchildren, hsym⟩ := hn.opens (of_decide_eq_true hs)
  have hrest : ∀ t ∈ rest, t.Headed := fun t ht => hn.of_mem_children (by simp [hchildren, ht])
  have hshown : shown n.start tag = [⟨tag, n.start⟩] := by
    cases tag with
    | node facts children =>
      have hvisible : facts.symbol.isVisible = true := by
        rw [show facts.symbol = .phrase .scriptStartTag from hsym]
        rfl
      rw [shown, if_pos hvisible]
  refine ⟨⟨tag, n.start⟩, shownAfter (n.start + tag.facts.size.chars) rest, ?_,
    decide_eq_true hsym, fun m hm => (of_mem_shownAfter hrest hm).2⟩
  rw [children, hchildren, shownFirst, hshown]
  rfl

/-- The nodes of a document are headed. -/
theorem headed_of_mem_document {source : List Char} {n : Node}
    (hn : n ∈ (document source).children) : n.tree.Headed :=
  (of_mem_shownFirst (headed_treeOf source) hn).1

end Markup.Node

/-! ## The span of a block -/

namespace Component

/-- A source splits around the content of a block, as the positions of the block say. -/
structure Spans (source : List Char) (b : ScriptBlock) (pre post : List Char) : Prop where
  split : source = pre ++ b.content ++ post
  start : b.start.Behind pre
  finish : b.finish.Behind (pre ++ b.content)

theorem spans_blockBetween (source : List Char) {start finish : Nat} (h : start ≤ finish)
    (attributes : List (List Char × Markup.Attribute)) :
    Spans source (blockBetween source start finish attributes) (source.take start)
      (source.drop finish) := by
  have htake : source.take start ++ (source.drop start).take (finish - start)
      = source.take finish := by
    rw [← List.take_add, Nat.add_sub_cancel' h]
  refine ⟨?_, Position.behind_after _, ?_⟩
  · rw [blockBetween, htake, List.take_append_drop]
  · rw [blockBetween, htake]
    exact Position.behind_after _

theorem blockOf?_spans {source : List Char} {script : Markup.Node} {b : ScriptBlock}
    (hn : script.tree.Headed) (hs : script.isPhrase .scriptElement = true)
    (hb : blockOf? source script = some b) : ∃ pre post, Spans source b pre post := by
  obtain ⟨tag, rest, hchildren, htag, hrest⟩ := Markup.Node.children_of_scriptElement hn hs
  have hend : tag.isPhrase .endTag = false := by
    have hsym : tag.tree.symbol = .phrase .scriptStartTag := of_decide_eq_true htag
    simp [Markup.Node.isPhrase, hsym]
  simp only [blockOf?, hchildren, List.find?_cons, htag, hend, Bool.or_true, Bool.true_or] at hb
  split at hb
  · rename_i startTag endTag hstart hfind
    obtain rfl := Option.some.inj hstart
    split at hb
    · cases hb
    · obtain rfl := Option.some.inj hb
      exact ⟨_, _, spans_blockBetween source (hrest endTag (List.mem_of_find?_eq_some hfind)) _⟩
  · cases hb

/-- Every extracted block has a place in its source. -/
theorem exists_spans {lang : Text} {source : List Char} {b : ScriptBlock}
    (hb : (extract lang source).block = some b) : ∃ pre post, Spans source b pre post := by
  obtain ⟨script, hscript, hcand⟩ := List.mem_filterMap.mp (List.mem_of_getLast? hb)
  obtain ⟨hmem, hphrase⟩ := List.mem_filter.mp hscript
  exact blockOf?_spans (Markup.Node.headed_of_mem_document hmem) hphrase
    (Option.eq_some_of_filter_eq_some hcand)

end Component

/-! ## The source text of a block -/

/-- The content of a block is its source text, behind at most one line break. -/
theorem ScriptBlock.exists_trimmed (b : ScriptBlock) :
    ∃ trimmed, b.content = trimmed ++ b.sourceText ∧
      (trimmed = [] ∨ ∃ front, trimmed = front ++ ['\n'] ∧ '\n' ∉ front) := by
  unfold sourceText
  split
  · rename_i rest h
    exact ⟨['\r', '\n'], h, .inr ⟨['\r'], rfl, by decide⟩⟩
  · rename_i rest h
    exact ⟨['\n'], h, .inr ⟨[], rfl, by simp⟩⟩
  · exact ⟨[], rfl, .inl rfl⟩

theorem ScriptBlock.lineOffset_eq {b : ScriptBlock} {pre trimmed : List Char}
    (hpre : b.start.Behind pre) (hcontent : b.content = trimmed ++ b.sourceText)
    (htrim : trimmed = [] ∨ ∃ front, trimmed = front ++ ['\n'] ∧ '\n' ∉ front) :
    b.lineOffset = (pre ++ trimmed).count '\n' := by
  unfold lineOffset
  rw [hpre.line, List.count_append]
  rcases htrim with rfl | ⟨front, rfl, hfront⟩
  · rw [if_pos (by simp [hcontent])]
    simp
  · have hne : b.sourceText ≠ b.content := by
      intro heq
      have := congrArg List.length hcontent
      rw [← heq] at this
      simp only [List.length_append, List.length_singleton] at this
      omega
    rw [if_neg hne, List.count_append, List.count_eq_zero.mpr hfront]
    simp

namespace Component

/-- A block is aligned with its source: the source splits around its content, the line offset
counts the line breaks before the source text, and each place of the source text, `before` being
what precedes it there, is found in the source on the line below by the offset. It is found in the
same column, on the first line only if a line break was trimmed. -/
structure Aligned (source : List Char) (b : ScriptBlock) (pre trimmed post : List Char) : Prop
    extends Spans source b pre post where
  content_eq : b.content = trimmed ++ b.sourceText
  offset_eq : b.lineOffset = (pre ++ trimmed).count '\n'
  line_eq : ∀ before after p q, b.sourceText = before ++ after → Position.Behind p before →
    Position.Behind q (pre ++ trimmed ++ before) → q.line = p.line + b.lineOffset
  column_eq : ∀ before after p q, b.sourceText = before ++ after → Position.Behind p before →
    Position.Behind q (pre ++ trimmed ++ before) → 1 < p.line ∨ b.sourceText ≠ b.content →
      q.column = p.column

theorem Spans.aligned {source pre post : List Char} {b : ScriptBlock}
    (h : Spans source b pre post) : ∃ trimmed, Aligned source b pre trimmed post := by
  obtain ⟨trimmed, hcontent, htrim⟩ := b.exists_trimmed
  have hoffset := ScriptBlock.lineOffset_eq h.start hcontent htrim
  refine ⟨trimmed, h, hcontent, hoffset, ?_, ?_⟩
  · intro before after p q _ hp hq
    rw [hq.line, hp.line, hoffset, List.count_append]
    omega
  · intro before after p q _ hp hq hor
    refine hp.column_eq hq ?_
    rcases hor with hline | htrimmed
    · rw [hp.line] at hline
      exact .inl (List.count_pos_iff.mp (by omega))
    · rcases htrim with rfl | ⟨front, rfl, -⟩
      · exact absurd hcontent.symm htrimmed
      · exact .inr ⟨pre ++ front, by simp⟩

theorem extractText_ofChars (lang : Text) (cs : List Char) :
    extractText lang (Text.ofChars cs) = .ok (extract lang cs) := by
  rw [extractText, Text.chars?_ofChars]

/-- **Line alignment**: a block that is extracted from a text is aligned with it, whatever its
language and whatever faults there are beside it. -/
theorem extractText_aligned {lang source : Text} {e : Extraction} {b : ScriptBlock}
    (he : extractText lang source = .ok e) (hb : e.block = some b) :
    ∃ chars pre trimmed post, source = Text.ofChars chars ∧
      Aligned chars b pre trimmed post := by
  unfold extractText at he
  split at he
  · rename_i chars hchars
    obtain rfl := Except.ok.inj he
    obtain ⟨pre, post, hspans⟩ := exists_spans hb
    obtain ⟨trimmed, haligned⟩ := hspans.aligned
    exact ⟨chars, pre, trimmed, post, Text.chars?_eq_some_iff.mp hchars, haligned⟩
  · cases he

/-- A start tag over two lines behind a letter of two bytes, and a block with a trimmed line
break. -/
theorem extractText_aligned_multiline :
    ∃ e b, extractText "g" "é<script\r\nlang=g>\r\nx\ny</script>" = .ok e ∧ e.block = some b ∧
      (b.start, b.finish, b.lineOffset) = (⟨2, 8⟩, ⟨4, 2⟩, 2) ∧
      ∃ chars pre trimmed post, ("é<script\r\nlang=g>\r\nx\ny</script>" : Text) =
        Text.ofChars chars ∧ Aligned chars b pre trimmed post := by
  have he := extractText_ofChars "g" "é<script\r\nlang=g>\r\nx\ny</script>".toList
  have hb : (extract "g" "é<script\r\nlang=g>\r\nx\ny</script>".toList).block
      = some ⟨"\r\nx\ny".toList, ⟨2, 8⟩, ⟨4, 2⟩, [("lang".toList, .text "g".toList)]⟩ := by
    decide +kernel
  exact ⟨_, _, he, hb, by decide, extractText_aligned he hb⟩

end Component

end SfcProxy
