import SfcProxy.Formatter
import SfcProxy.Proofs.Alignment

/-!
# What formatting replaces

Formatted code takes the place of the first occurrence of the old code in the component. That is
the block's own place exactly if the content of the block occurs nowhere before it: not in the
template, not in a comment, not in another script, and not, as an empty content does, at the very
front.

## Main results

* `Formatter.formatComponent_text`: the formatted component, given the formatted code
* `Text.length_le_of_replaced_eq`: a place is known by what can be put there
* `Formatter.formatComponent_keeps_iff`: when only the block is replaced
-/

namespace SfcProxy

/-- Two places of a text are the same if putting a unit there gives the same text, whichever of two
units it is. -/
theorem Text.length_le_of_replaced_eq {before after pre post : Text} {u v w : TextUnit}
    (hne : u ≠ v) (hu : before ++ w :: u :: after = pre ++ w :: u :: post)
    (hv : before ++ w :: v :: after = pre ++ w :: v :: post) : pre.length ≤ before.length := by
  by_contra hlt
  have hat : ∀ x, (before ++ w :: x :: after)[before.length + 1]? = some x := by
    intro x
    rw [List.getElem?_append_right (by omega), Nat.add_sub_cancel_left]
    rfl
  have hfix : ∀ x, (pre ++ w :: x :: post)[before.length + 1]?
      = (pre ++ [w])[before.length + 1]? := by
    intro x
    rw [List.append_cons, List.getElem?_append_left (by simp; omega)]
  have hsame : some u = some v := by
    rw [← hat u, ← hat v, hu, hv, hfix, hfix]
  exact hne (Option.some.inj hsame)

namespace Formatter

theorem formatComponent_text {lang source : Text} {files : FileTree} {e : Extraction}
    {b : ScriptBlock} (he : Component.extractText lang source = .ok e) (hb : e.block = some b)
    {format : CodeFormatter} {formatted : Text}
    (hf : (format files (Text.ofChars b.content)).text = .ok formatted) :
    (formatComponent format lang files source).text
      = .ok (source.replaceFirst (Text.ofChars b.content) (.scalar '\n' :: formatted)) := by
  simp only [formatComponent, he, hb, hf]
  rfl

/-- **What formatting replaces.** Formatted code is put, behind a line break, in place of the first
occurrence of the content of the block in the component. So only the block is touched, whatever the
formatter prints, exactly if the place of the block is that of the first occurrence of its
content. -/
theorem formatComponent_keeps_iff {lang source : Text} {files : FileTree} {e : Extraction}
    {b : ScriptBlock} {chars pre post : List Char}
    (he : Component.extractText lang source = .ok e) (hb : e.block = some b)
    (hsource : source = Text.ofChars chars) (hs : Component.Spans chars b pre post) :
    (∃ before after, Text.CutAtFirst (Text.ofChars b.content) source before after ∧
      ∀ (format : CodeFormatter) formatted,
        (format files (Text.ofChars b.content)).text = .ok formatted →
          (formatComponent format lang files source).text
            = .ok (before ++ .scalar '\n' :: formatted ++ after)) ∧
      ((∀ (format : CodeFormatter) formatted,
        (format files (Text.ofChars b.content)).text = .ok formatted →
          (formatComponent format lang files source).text
            = .ok (Text.ofChars pre ++ .scalar '\n' :: formatted ++ Text.ofChars post)) ↔
        Text.CutAtFirst (Text.ofChars b.content) source (Text.ofChars pre)
          (Text.ofChars post)) := by
  have hplace : source = Text.ofChars pre ++ Text.ofChars b.content ++ Text.ofChars post := by
    simp [hsource, hs.split, Text.ofChars]
  obtain ⟨before, after, hcut, hreplace⟩ := Text.exists_replaceFirst hplace
  have htext : ∀ (format : CodeFormatter) formatted,
      (format files (Text.ofChars b.content)).text = .ok formatted →
        (formatComponent format lang files source).text
          = .ok (before ++ .scalar '\n' :: formatted ++ after) := by
    intro format formatted hf
    rw [formatComponent_text he hb hf, hreplace]
  refine ⟨⟨before, after, hcut, htext⟩, ?_, ?_⟩
  · intro hkeeps
    have hboth : ∀ u : TextUnit, before ++ .scalar '\n' :: u :: after
        = Text.ofChars pre ++ .scalar '\n' :: u :: Text.ofChars post := by
      intro u
      have hok := htext (fun files _ => ⟨files, [], .ok [u]⟩) [u] rfl
      rw [hkeeps _ [u] rfl] at hok
      simpa using (Except.ok.inj hok).symm
    have hle := Text.length_le_of_replaced_eq (u := .scalar 'a') (v := .scalar 'b') (by decide)
      (hboth _) (hboth _)
    exact ⟨hplace, fun front back hfront => hle.trans (hcut.least front back hfront)⟩
  · intro hfirst format formatted hf
    obtain ⟨rfl, rfl⟩ := hcut.unique hfirst
    exact htext format formatted hf

/-- The content of the block stands in the template as well, and there it is replaced: the template
is touched, and the block is not. -/
theorem formatComponent_keeps_iff_repeated :
    ∃ (chars pre post : List Char) (e : Extraction) (b : ScriptBlock),
      Component.extractText "gleam" (Text.ofChars chars) = .ok e ∧ e.block = some b ∧
      Component.Spans chars b pre post ∧
      (formatComponent (fun files _ => ⟨files, [], .ok "y"⟩) "gleam" (.empty [])
        (Text.ofChars chars)).text = .ok "<p>\ny</p><script lang=gleam>x</script>" ∧
      ¬ ∀ (format : CodeFormatter) formatted,
        (format (.empty []) (Text.ofChars b.content)).text = .ok formatted →
          (formatComponent format "gleam" (.empty []) (Text.ofChars chars)).text
            = .ok (Text.ofChars pre ++ .scalar '\n' :: formatted ++ Text.ofChars post) := by
  have he := Component.extractText_ofChars "gleam" "<p>x</p><script lang=gleam>x</script>".toList
  have hb : (Component.extract "gleam" "<p>x</p><script lang=gleam>x</script>".toList).block
      = some ⟨['x'], ⟨1, 28⟩, ⟨1, 29⟩, [("lang".toList, .text "gleam".toList)]⟩ := by
    decide +kernel
  have hs : Component.Spans "<p>x</p><script lang=gleam>x</script>".toList
      ⟨['x'], ⟨1, 28⟩, ⟨1, 29⟩, [("lang".toList, .text "gleam".toList)]⟩
      "<p>x</p><script lang=gleam>".toList "</script>".toList :=
    ⟨by decide, Position.behind_after "<p>x</p><script lang=gleam>".toList,
      Position.behind_after "<p>x</p><script lang=gleam>x".toList⟩
  refine ⟨_, _, _, _, _, he, hb, hs, ?_, fun hkeeps => ?_⟩
  · rw [formatComponent_text he hb rfl]
    decide +kernel
  · have hfirst := (formatComponent_keeps_iff he hb rfl hs).2.mp hkeeps
    have hle := hfirst.least "<p>" "</p><script lang=gleam>x</script>" (by decide +kernel)
    exact absurd hle (by decide +kernel)

end Formatter

end SfcProxy
