import SfcProxy.Proofs.Markup.Content

/-!
# Nested elements

An outline is text with elements in it that are properly nested and have no attributes. Reading
takes it in as it stands: each of its elements becomes a node, and behind it the same elements are
open as before. What is open is remembered in so many bytes, of which an element takes one, so
outlines are read in this way up to some depth.

## Main definitions

* `TagName`: the elements in an outline
* `Outline`: text with nested elements
* `Outline.depth`: how deep the elements are nested

## Main results

* `remembered_eq`: elements of the language are remembered as long as they are not too many
* `Outline.reads`: how an outline is read
-/

namespace SfcProxy.Markup

/-! ## What is remembered -/

theorem fitting_eq {stack : List Element} (hknown : ∀ e ∈ stack, ∃ name, e = .known name)
    {used : Nat} (hfits : used + stack.length < 1024) : fitting used stack = stack := by
  induction stack generalizing used with
  | nil => rfl
  | cons e stack ih =>
    obtain ⟨name, rfl⟩ := hknown e List.mem_cons_self
    rw [List.length_cons] at hfits
    rw [fitting, if_pos (show used + (Element.known name).weight < 1024 by
      change used + 1 < 1024; omega)]
    exact congrArg _ (ih (fun d hd => hknown d (List.mem_cons_of_mem _ hd))
      (show used + 1 + stack.length < 1024 by omega))

/-- Elements of the language are remembered as long as they are not too many. -/
theorem remembered_eq {stack : List Element} (hknown : ∀ e ∈ stack, ∃ name, e = .known name)
    (hfits : stack.length ≤ 1019) : remembered stack = stack := by
  have hlength : stack.reverse.length ≤ 65535 := by
    rw [List.length_reverse]
    omega
  rw [remembered, List.take_of_length_le hlength, fitting_eq, List.reverse_reverse]
  · exact fun e he => hknown e (List.mem_reverse.mp he)
  · rw [List.length_reverse]
    omega

/-! ## Outlines -/

/-- The elements in an outline. -/
inductive TagName where
  | template
  | div
  | span
  deriving DecidableEq

namespace TagName

/-- The name in the tags. -/
def chars : TagName → List Char
  | template => "template".toList
  | div => "div".toList
  | span => "span".toList

/-- The element with the name. -/
def element (name : TagName) : Element :=
  .ofName (.ofChars name.chars)

theorem element_eq (name : TagName) : name.element = .known (.ofChars name.chars) := by
  cases name <;> decide +kernel

theorem isWord (name : TagName) (rest : List Char) : IsWord name.chars ('>' :: rest) := by
  refine ⟨by cases name <;> decide, List.all_eq_true.mp (by cases name <;> decide),
    fun c hc => ?_⟩
  obtain rfl := Option.some.inj hc
  decide

theorem plain (name : TagName) : name.element.Plain := by
  refine ⟨by cases name <;> decide +kernel, fun child => ?_, by cases name <;> decide +kernel⟩
  have hgroups : ∀ group ∈ Element.exclusions, group.1.contains (.ofChars name.chars) = false := by
    cases name <;> decide +kernel
  have hcolumns : (Name.ofChars name.chars == Name.ofString "COLGROUP") = false := by
    cases name <;> decide +kernel
  have hparagraph : (Name.ofChars name.chars == Name.ofString "P") = false := by
    cases name <;> decide +kernel
  rw [element_eq]
  change Element.nameMayContain (.ofChars name.chars) child = true
  unfold Element.nameMayContain
  dsimp only
  rw [hcolumns, hparagraph, if_neg Bool.false_ne_true, if_neg Bool.false_ne_true, Bool.not_eq_true',
    List.any_eq_false]
  intro group hgroup
  rw [hgroups group hgroup, Bool.false_and]
  exact Bool.false_ne_true

theorem startToken_eq (name : TagName) : startToken name.element = .startName := by
  cases name <;> decide +kernel

theorem remembered_map {names : List TagName} (hfits : names.length ≤ 1019) :
    remembered (names.map element) = names.map element := by
  refine remembered_eq (fun e he => ?_) (by rwa [List.length_map])
  obtain ⟨name, -, rfl⟩ := List.mem_map.mp he
  exact ⟨_, name.element_eq⟩

end TagName

/-- A run of characters of text. -/
structure Run where
  chars : List Char
  isText : ∀ c ∈ chars, isTextChar c = true

/-- Text with properly nested elements that have no attributes. -/
inductive Outline where
  | last (run : Run)
  | element (run : Run) (name : TagName) (content rest : Outline)

namespace Outline

/-- The source of an outline. -/
def chars : Outline → List Char
  | last run => run.chars
  | element run name content rest =>
    run.chars ++ '<' :: (name.chars ++ '>' :: (content.chars
      ++ '<' :: '/' :: (name.chars ++ '>' :: rest.chars)))

/-- How deep the elements are nested. -/
def depth : Outline → Nat
  | last _ => 0
  | element _ _ content rest => max (content.depth + 1) rest.depth

/-- A start tag closes none of the elements in an outline. -/
theorem passes_startTag (level : Level) (names : List TagName) (name : TagName) (rest : List Char) :
    Outlook.Passes level (names.map TagName.element) ('<' :: (name.chars ++ '>' :: rest)) := by
  have hword := name.isWord rest
  refine ⟨.inr ⟨_, rfl, hword.head?_ne (by decide), fun _ => closesTop_startTag ?_ hword⟩⟩
  intro e he
  obtain ⟨outer, -, rfl⟩ := List.mem_map.mp he
  exact outer.plain

/-- **How an outline is read**: its elements and texts become nodes, and what follows it stands
behind a gap. -/
theorem reads (o : Outline) {level : Level} {base : List Frame} {names : List TagName}
    {content : Option Tree} {start : Nat} {r : Reading}
    (h : Amid level base (names.map TagName.element) content start r)
    (hdepth : names.length + o.depth ≤ 1019) {tail : List Char}
    (hrest : r.place.rest = o.chars ++ tail)
    (hpasses : Outlook.Passes level (names.map TagName.element) tail) :
    ∃ content' gap r', r.Advances r' ∧
      Amid level base (names.map TagName.element) content' start r' ∧ Stands r' gap tail ∧
      Extends content content' := by
  induction o generalizing level base names content start r tail with
  | last run => exact h.text hrest run.isText hpasses
  | element run name inside rest ihInside ihRest =>
    rw [depth] at hdepth
    have hlength : (name :: names).length = names.length + 1 := rfl
    have hsource : r.place.rest = run.chars ++ ('<' :: (name.chars ++ '>' :: (inside.chars
        ++ '<' :: '/' :: (name.chars ++ '>' :: (rest.chars ++ tail))))) := by
      rw [hrest, chars]
      simp
    obtain ⟨content₁, gap₁, r₁, hadvances₁, hamid₁, hstands₁, hextends₁⟩ :=
      h.text hsource run.isText (passes_startTag level names name _)
    obtain ⟨r₂, hadvances₂, hrest₂, hamid₂, hchars₂⟩ := hamid₁.startTag hstands₁ (name.isWord _)
      (passes_startTag level names name _) rfl name.startToken_eq
      (TagName.remembered_map (by omega : (name :: names).length ≤ 1019))
    have hend : Outlook.Passes .inner ((name :: names).map TagName.element)
        ('<' :: '/' :: (name.chars ++ '>' :: (rest.chars ++ tail))) :=
      ⟨.inr ⟨_, rfl, by simp, fun _ => closesTop_endTag (name.isWord _)⟩⟩
    obtain ⟨content₃, gap₃, r₃, hadvances₃, hamid₃, hstands₃, -⟩ :=
      ihInside hamid₂ (by omega) hrest₂ hend
    rw [hchars₂] at hamid₃
    obtain ⟨r₄, hadvances₄, hrest₄, -, hamid₄⟩ := Amid.endTag hamid₁.settles hamid₃ hstands₃
      (name.isWord _) rfl rfl (TagName.remembered_map (by omega))
    obtain ⟨content', gap', r', hadvances, hamid, hstands, hextends⟩ :=
      ihRest hamid₄ (by omega) hrest₄ hpasses
    refine ⟨content', gap', r', ?_, hamid, hstands, ?_⟩
    · exact (((hadvances₁.trans hadvances₂).trans hadvances₃).trans hadvances₄).trans hadvances
    · exact (hextends₁.trans (.put content₁ fun _ => .inl rfl)).trans hextends

end Outline

end SfcProxy.Markup
