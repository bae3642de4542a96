import SfcProxy.Proofs.Markup.Steps

/-!
# Finding tokens

Which token is found at a place depends on the state, on the open elements and on what stands there.
Most tokens stand behind a gap: blanks, and before them a byte order mark at the start of a source.
Text runs up to the next bracket and ends with its last character that is no blank.

## Main definitions

* `Place.gap`: the length of the gap at a place
* `Level.outlook`: what is looked out for among nodes
* `Outlook.Passes`: no end of an element is seen at the next bracket

## Main results

* `Lookahead.finds_lexeme`, `Lookahead.finds_sighting`: where a token is found
* `Outlook.read_text`: nothing is sighted among nodes but for ends of elements
* `exists_gap`, `exists_trimmed`: text falls into a gap, a token and blanks
-/

namespace SfcProxy.Markup

/-! ## Gaps -/

/-- The length of the blanks at a place, with a byte order mark before them. -/
def Place.gap (place : Place) : Nat :=
  place.markLength + countWhile isBlank (place.rest.drop place.markLength)

/-- A byte order mark stands at the start of a source alone. -/
theorem Place.markLength_eq_zero {before : Extent} {rest : List Char}
    (h : before.chars ≠ 0 ∨ rest.head? ≠ some '\uFEFF') :
    (Place.mk before rest).markLength = 0 := by
  rw [markLength]
  dsimp only
  refine if_neg fun hmark => ?_
  rw [Bool.and_eq_true, decide_eq_true_eq, beq_iff_eq] at hmark
  rcases h with h | h
  · exact h hmark.1
  · exact h hmark.2

/-- What stands at a place is a gap, and what stands behind it is not. -/
def AtGap (before : Extent) (gap rest : List Char) : Prop :=
  (Place.mk before (gap ++ rest)).gap = gap.length

theorem countWhile_eq_zero {test : Char → Bool} {cs : List Char}
    (h : ∀ c, cs.head? = some c → test c = false) : countWhile test cs = 0 := by
  cases cs with
  | nil => rfl
  | cons c cs => rw [countWhile, List.takeWhile_cons_of_neg (by rw [h c rfl]; decide)]; rfl

theorem countWhile_append {test : Char → Bool} {front rest : List Char}
    (hfront : ∀ c ∈ front, test c = true) (hrest : ∀ c, rest.head? = some c → test c = false) :
    countWhile test (front ++ rest) = front.length := by
  rw [countWhile, List.takeWhile_append_of_pos hfront, List.length_append]
  exact congrArg (front.length + ·) (countWhile_eq_zero hrest)

/-- Blanks are a gap where no byte order mark can stand. -/
theorem atGap_of_blanks {before : Extent} {gap rest : List Char}
    (hmark : before.chars ≠ 0 ∨ (gap ++ rest).head? ≠ some '\uFEFF')
    (hgap : ∀ c ∈ gap, isBlank c = true) (hrest : ∀ c, rest.head? = some c → isBlank c = false) :
    AtGap before gap rest := by
  rw [AtGap, Place.gap, Place.markLength_eq_zero hmark]
  dsimp only
  rw [List.drop_zero, countWhile_append hgap hrest, Nat.zero_add]

/-- At a tag no gap comes before a character that is no blank. -/
theorem atGap_nil {before : Extent} {c : Char} (hmark : c ≠ '\uFEFF') (hblank : isBlank c = false)
    (rest : List Char) : AtGap before [] (c :: rest) := by
  refine atGap_of_blanks (.inr ?_) nofun ?_
  · rw [List.nil_append, List.head?_cons, Ne, Option.some.injEq]
    exact hmark
  · intro d hd
    obtain rfl := Option.some.inj hd
    exact hblank

theorem isBlank_of_mem_takeWhile {c : Char} {cs : List Char} (h : c ∈ cs.takeWhile isBlank) :
    isBlank c = true :=
  List.mem_takeWhile_imp h

/-- Every place has a gap, and behind it stands no blank. -/
theorem exists_gap (before : Extent) (cs : List Char) :
    ∃ gap rest, cs = gap ++ rest ∧ AtGap before gap rest ∧
      (∀ c ∈ gap, isBlank c = true ∨ before.chars = 0 ∧ c = '\uFEFF') ∧
      ∀ c, rest.head? = some c → isBlank c = false := by
  have hhead : ∀ (ds : List Char) c, (ds.dropWhile isBlank).head? = some c → isBlank c = false := by
    intro ds c hc
    have := List.head?_dropWhile_not isBlank ds
    rw [hc] at this
    exact this
  -- Only at the very front does a byte order mark count as a blank.
  by_cases hmark : before.chars = 0 ∧ cs.head? = some '\uFEFF'
  · obtain ⟨hzero, hhd⟩ := hmark
    cases cs with
    | nil => cases hhd
    | cons c cs =>
      obtain rfl := Option.some.inj hhd
      refine ⟨'\uFEFF' :: cs.takeWhile isBlank, cs.dropWhile isBlank, ?_, ?_, ?_, hhead cs⟩
      · rw [List.cons_append, List.takeWhile_append_dropWhile]
      · rw [AtGap, List.cons_append, List.takeWhile_append_dropWhile, Place.gap, Place.markLength]
        dsimp only
        rw [hzero, if_pos (by rfl), List.length_cons, Nat.add_comm]
        rfl
      · intro c hc
        rcases List.mem_cons.mp hc with rfl | hc
        · exact .inr ⟨hzero, rfl⟩
        · exact .inl (isBlank_of_mem_takeWhile hc)
  · refine ⟨cs.takeWhile isBlank, cs.dropWhile isBlank, ?_, ?_, ?_, hhead cs⟩
    · rw [List.takeWhile_append_dropWhile]
    · refine atGap_of_blanks ?_ (fun c hc => isBlank_of_mem_takeWhile hc) (hhead cs)
      rw [List.takeWhile_append_dropWhile]
      exact Decidable.not_and_iff_not_or_not.mp hmark
    · exact fun c hc => .inl (isBlank_of_mem_takeWhile hc)

/-! ## Text -/

theorem isTextChar_of_isBlank {c : Char} (h : isBlank c = true) : isTextChar c = true := by
  unfold isTextChar
  simp only [Bool.not_eq_true', Bool.or_eq_false_iff, beq_eq_false_iff_ne]
  refine ⟨⟨⟨?_, ?_⟩, ?_⟩, ?_⟩
  all_goals
    rintro rfl
    exact absurd h (by decide)

/-- Text falls into what ends with its last character that is no blank, and blanks. -/
theorem exists_trimmed (cs : List Char) :
    ∃ body blanks, cs = body ++ blanks ∧ trimmedLength cs = body.length ∧
      ∀ c ∈ blanks, isBlank c = true := by
  refine ⟨(cs.reverse.dropWhile isBlank).reverse, (cs.reverse.takeWhile isBlank).reverse,
    ?_, ?_, ?_⟩
  · rw [← List.reverse_append, List.takeWhile_append_dropWhile, List.reverse_reverse]
  · rw [List.length_reverse]
    rfl
  · exact fun c hc => isBlank_of_mem_takeWhile (List.mem_reverse.mp hc)

/-- Text that does not start with a blank is not trimmed away. -/
theorem trimmedLength_pos {c : Char} (h : isBlank c = false) (cs : List Char) :
    0 < trimmedLength (c :: cs) := by
  rw [trimmedLength, List.length_pos_iff, Ne, List.dropWhile_eq_nil_iff]
  intro hall
  have hblank := hall c (List.mem_reverse.mpr List.mem_cons_self)
  rw [h] at hblank
  cases hblank

/-! ## Tokens -/

namespace Lookahead

variable {state : State} {memory : Memory} {before : Extent} {gap body tail : List Char} {t : Token}

/-- Nothing is sighted at a place. -/
def Unsighted (outlook : Outlook) (memory : Memory) (place : Place) : Prop :=
  outlook.read (memory.getD []) (place.rest.drop place.markLength) = none

/-- A token of a lexicon is found behind a gap, where nothing is sighted. -/
theorem finds_lexeme (hunsighted : Unsighted state.outlook memory ⟨before, gap ++ (body ++ tail)⟩)
    (hgap : AtGap before gap (body ++ tail)) (hkeeps : state.lexicon.keepsBlanks = false)
    (hfind : state.lexicon.find (body ++ tail) = (some t, body.length)) :
    Finds state memory ⟨before, gap ++ (body ++ tail)⟩ t gap body none := by
  have hsighted : sighted? state.outlook (admitsEmpty state true) memory
      ⟨before, gap ++ (body ++ tail)⟩ = none := by
    unfold sighted?
    dsimp only
    rw [hunsighted]
  have hlexeme : lexeme state.lexicon ⟨before, gap ++ (body ++ tail)⟩
      = ⟨some t, gap.length, body.length⟩ := by
    have hdrop : (gap ++ (body ++ tail)).drop gap.length = body ++ tail := List.drop_left
    rw [AtGap, Place.gap] at hgap
    unfold lexeme Lexicon.read
    dsimp only at hgap ⊢
    rw [hkeeps, if_neg Bool.false_ne_true, List.drop_drop, hgap, hdrop, hfind]
  unfold Finds hit?
  rw [hsighted, hlexeme]
  rfl

/-- Inside quotes blanks belong to the token. -/
theorem finds_quoted (hunsighted : Unsighted state.outlook memory ⟨before, body ++ tail⟩)
    (hmark : (body ++ tail).head? ≠ some '\uFEFF') (hkeeps : state.lexicon.keepsBlanks = true)
    (hfind : state.lexicon.find (body ++ tail) = (some t, body.length)) :
    Finds state memory ⟨before, [] ++ (body ++ tail)⟩ t [] body none := by
  have hsighted : sighted? state.outlook (admitsEmpty state true) memory ⟨before, body ++ tail⟩
      = none := by
    unfold sighted?
    dsimp only
    rw [hunsighted]
  have hlexeme : lexeme state.lexicon ⟨before, body ++ tail⟩ = ⟨some t, 0, body.length⟩ := by
    unfold lexeme Lexicon.read
    dsimp only
    rw [Place.markLength_eq_zero (.inr hmark), hkeeps, if_pos rfl, List.drop_zero, List.drop_zero,
      hfind]
  unfold Finds hit?
  rw [List.nil_append, hsighted, hlexeme]
  rfl

/-- A token that depends on the open elements is found where it is sighted. -/
theorem finds_sighting {stack : List Element}
    (hmark : before.chars ≠ 0 ∨ (body ++ tail).head? ≠ some '\uFEFF')
    (hread : state.outlook.read (memory.getD []) (body ++ tail) = some ⟨t, 0, body.length, stack⟩)
    (hempty : body ≠ [] ∨ admitsEmpty state true t = true) :
    Finds state memory ⟨before, [] ++ (body ++ tail)⟩ t [] body (some (remembered stack)) := by
  unfold Finds hit? sighted?
  dsimp only
  rw [List.nil_append, Place.markLength_eq_zero hmark, List.drop_zero, hread]
  dsimp only
  rw [if_neg]
  · rfl
  · rintro ⟨hzero, -, hnot⟩
    rcases hempty with hempty | hempty
    · exact hempty (List.length_eq_zero_iff.mp (by omega))
    · rw [hempty] at hnot
      cases hnot

end Lookahead

/-! ## What is sighted among nodes -/

/-- What is looked out for among the nodes at a level. -/
def Level.outlook : Level → Outlook
  | .top => .comments
  | .inner => .elementEnd

namespace Outlook

/-- No comment starts at a bracket, and no element ends there without a tag. -/
structure Passes (level : Level) (stack : List Element) (tail : List Char) : Prop where
  bracket : (tail = [] ∧ level = .top) ∨ ∃ rest, tail = '<' :: rest ∧ rest.head? ≠ some '!' ∧
    (level = .inner → closesTop stack rest = false)

theorem drop_separators (cs : List Char) :
    cs.drop (cs.takeWhile isSeparator).length = cs.dropWhile isSeparator := by
  have hdrop : (cs.takeWhile isSeparator ++ cs.dropWhile isSeparator).drop
      (cs.takeWhile isSeparator).length = cs.dropWhile isSeparator := List.drop_left
  rwa [List.takeWhile_append_dropWhile] at hdrop

variable {outlook : Outlook} {level : Level} {stack : List Element} {skipped : Nat}

/-- Nothing is sighted at a character of text among nodes. -/
theorem find?_text {c : Char} (hc : isTextChar c = true) (rest : List Char) :
    level.outlook.find? stack skipped (c :: rest) = none := by
  have hbracket : c ≠ '<' := by
    rintro rfl
    exact absurd hc (by decide)
  have hnull : c ≠ '\x00' := by
    rintro rfl
    exact absurd hc (by decide)
  unfold find?
  split
  case h_1 | h_2 | h_3 =>
    rename_i heq
    exact absurd (List.cons.inj heq).1 hbracket
  case h_4 =>
    rename_i heq
    cases heq
  case h_5 =>
    rename_i heq
    exact absurd (List.cons.inj heq).1 hnull
  case h_6 => cases level <;> rfl
  case h_7 => rfl
  case h_8 => cases level <;> rfl

/-- Nothing is sighted at the end of text either. -/
theorem find?_tail {tail : List Char} (h : Passes level stack tail) :
    level.outlook.find? stack skipped tail = none := by
  rcases h.bracket with ⟨rfl, rfl⟩ | ⟨rest, rfl, hbang, hcloses⟩
  · rfl
  · unfold find?
    split
    case h_1 =>
      rename_i heq
      rw [(List.cons.inj heq).2] at hbang
      exact absurd rfl hbang
    case h_2 => rfl
    case h_3 =>
      rename_i heq
      obtain rfl := (List.cons.inj heq).2
      cases level with
      | top => rfl
      | inner =>
        rw [if_pos (show Level.inner.outlook.seesElementEnd = true from rfl), impliedEnd?,
          hcloses rfl, if_neg Bool.false_ne_true]
    case h_4 | h_5 | h_6 | h_7 =>
      rename_i heq
      cases heq
    case h_8 =>
      rename_i hother _ _ _ _
      exact (hother rest rfl).elim

/-- **Nothing is sighted among nodes**, in whatever text up to the next bracket. -/
theorem read_text {text tail : List Char} (htext : ∀ c ∈ text, isTextChar c = true)
    (htail : Passes level stack tail) : level.outlook.read stack (text ++ tail) = none := by
  unfold read
  rw [if_neg (by cases level <;> decide)]
  dsimp only
  rw [drop_separators]
  cases hrest : (text.dropWhile isSeparator) with
  | nil =>
    have hall := List.dropWhile_eq_nil_iff.mp hrest
    have htail' : tail.dropWhile isSeparator = tail := by
      rcases htail.bracket with ⟨rfl, -⟩ | ⟨rest, rfl, -⟩
      · rfl
      · rw [List.dropWhile_cons_of_neg (by decide)]
    rw [List.dropWhile_append_of_pos hall, htail']
    exact find?_tail htail
  | cons c rest =>
    rw [List.dropWhile_append, if_neg (by rw [hrest]; nofun), hrest, List.cons_append]
    refine find?_text (htext c ?_) (rest ++ tail)
    exact List.dropWhile_sublist isSeparator |>.mem (hrest ▸ List.mem_cons_self)

end Outlook

/-! ## Words -/

theorem letter_bounds {c : Char} (h : c.isAlpha = true) :
    (65 ≤ c.toNat ∧ c.toNat ≤ 90) ∨ (97 ≤ c.toNat ∧ c.toNat ≤ 122) := by
  rcases Bool.or_eq_true_iff.mp h with hupper | hlower
  · exact .inl ((of_decide_eq_true hupper).imp UInt32.le_iff_toNat_le.mp UInt32.le_iff_toNat_le.mp)
  · obtain ⟨hlow, hhigh⟩ := Bool.and_eq_true_iff.mp hlower
    have hlow : 'a'.val ≤ c.val := of_decide_eq_true hlow
    have hhigh : c.val ≤ 'z'.val := of_decide_eq_true hhigh
    exact .inr ⟨UInt32.le_iff_toNat_le.mp hlow, UInt32.le_iff_toNat_le.mp hhigh⟩

theorem ne_of_isAlpha {c d : Char} (h : c.isAlpha = true) (hd : d.isAlpha = false) : c ≠ d := by
  rintro rfl
  rw [h] at hd
  cases hd

theorem not_isSeparator_of_isAlpha {c : Char} (h : c.isAlpha = true) : isSeparator c = false := by
  have hbounds := letter_bounds h
  rw [isSeparator, Ranges.has, separators]
  simp only [List.any_cons, List.any_nil, Bool.or_false, Bool.or_eq_false_iff,
    Bool.and_eq_false_iff, decide_eq_false_iff_not]
  omega

theorem toNat_of_isBlank {c : Char} (h : isBlank c = true) : c.toNat ≤ 32 := by
  unfold isBlank at h
  simp only [Bool.or_eq_true, Bool.and_eq_true, beq_iff_eq, decide_eq_true_eq, Char.le_def,
    UInt32.le_iff_toNat_le] at h
  rcases h with rfl | ⟨-, hhigh⟩
  · decide
  · have hhigh : c.toNat ≤ 13 := hhigh
    omega

theorem not_isBlank_of_isAlpha {c : Char} (h : c.isAlpha = true) : isBlank c = false := by
  have hbounds := letter_bounds h
  rw [Bool.eq_false_iff]
  intro hblank
  have := toNat_of_isBlank hblank
  omega

theorem isNameChar_of_isAlpha {c : Char} (h : c.isAlpha = true) : isNameChar c = true := by
  have hbounds := letter_bounds h
  rw [isNameChar, if_pos (by omega), Char.isAlphanum, h]
  rfl

/-- A name of letters, and what cannot go on with it. -/
structure IsWord (name rest : List Char) : Prop where
  ne_nil : name ≠ []
  letters : ∀ c ∈ name, c.isAlpha = true
  ends : ∀ c, rest.head? = some c → isNameChar c = false

namespace IsWord

variable {name rest : List Char}

theorem nameAt_eq (h : IsWord name rest) : nameAt (name ++ rest) = name := by
  have hname : ∀ c ∈ name, isNameChar c = true := fun c hc => isNameChar_of_isAlpha (h.letters c hc)
  rw [nameAt, List.takeWhile_append_of_pos hname]
  cases rest with
  | nil => rw [List.takeWhile_nil, List.append_nil]
  | cons c rest =>
    rw [List.takeWhile_cons_of_neg (by rw [h.ends c rfl]; decide), List.append_nil]

theorem exists_cons (h : IsWord name rest) :
    ∃ c more, name ++ rest = c :: more ∧ c.isAlpha = true := by
  cases name with
  | nil => exact absurd rfl h.ne_nil
  | cons c name => exact ⟨c, name ++ rest, rfl, h.letters c List.mem_cons_self⟩

theorem isEmpty_eq (h : IsWord name rest) : name.isEmpty = false :=
  List.isEmpty_eq_false_iff.mpr h.ne_nil

theorem head?_ne (h : IsWord name rest) {d : Char} (hd : d.isAlpha = false) :
    (name ++ rest).head? ≠ some d := by
  obtain ⟨c, more, hcons, hc⟩ := h.exists_cons
  rw [hcons, List.head?_cons, Ne, Option.some.injEq]
  exact ne_of_isAlpha hc hd

end IsWord

namespace Outlook

variable {outlook : Outlook} {stack : List Element} {name rest : List Char}

/-- At a letter, only names are looked out for. -/
theorem find?_letter {c : Char} (hc : c.isAlpha = true) (rest : List Char) (skipped : Nat) :
    outlook.find? stack skipped (c :: rest) = match outlook with
      | startName => startName? stack skipped (c :: rest)
      | endName => endName? stack skipped (c :: rest)
      | _ => none := by
  unfold find?
  split
  case h_1 | h_2 | h_3 =>
    rename_i heq
    exact absurd (List.cons.inj heq).1 (ne_of_isAlpha hc (by decide))
  case h_4 =>
    rename_i heq
    cases heq
  case h_5 | h_6 | h_7 =>
    rename_i heq
    exact absurd (List.cons.inj heq).1 (ne_of_isAlpha hc (by decide))
  case h_8 => rfl

/-- A character that is no separator is looked at itself. -/
theorem read_cons {c : Char} (hc : isSeparator c = false) (houtlook : outlook ≠ rawText)
    (rest : List Char) : outlook.read stack (c :: rest) = outlook.find? stack 0 (c :: rest) := by
  have hseparator : (c :: rest).takeWhile isSeparator = [] :=
    List.takeWhile_cons_of_neg (by rw [hc]; decide)
  unfold read
  rw [if_neg houtlook]
  dsimp only
  rw [hseparator, List.length_nil, List.drop_zero]

theorem read_startName (h : IsWord name rest) : startName.read stack (name ++ rest)
    = some ⟨startToken (.ofName (.ofChars name)), 0, name.length,
      .ofName (.ofChars name) :: stack⟩ := by
  obtain ⟨c, more, hcons, hc⟩ := h.exists_cons
  rw [hcons, read_cons (not_isSeparator_of_isAlpha hc) (by decide), find?_letter hc, ← hcons,
    startName?, h.nameAt_eq]
  dsimp only
  rw [h.isEmpty_eq, if_neg Bool.false_ne_true]

theorem read_endName (h : IsWord name rest) :
    endName.read (.ofName (.ofChars name) :: stack) (name ++ rest)
      = some ⟨.endName, 0, name.length, stack⟩ := by
  obtain ⟨c, more, hcons, hc⟩ := h.exists_cons
  rw [hcons, read_cons (not_isSeparator_of_isAlpha hc) (by decide), find?_letter hc, ← hcons,
    endName?, h.nameAt_eq]
  dsimp only
  rw [h.isEmpty_eq, if_neg Bool.false_ne_true, if_pos (by rw [List.head?_cons])]
  rfl

end Outlook

/-! ## Plain elements -/

/-- An element that only its end tag closes. -/
structure Element.Plain (e : Element) : Prop where
  content : e.isVoid = false
  contains : ∀ child, e.mayContain child = true
  inside : e.endsWithSource = false

/-- An end tag closes another element before if one of its own is open further out. -/
theorem closesTop_slash (stack : List Element) {name rest : List Char} (h : IsWord name rest) :
    closesTop stack ('/' :: (name ++ rest))
      = (stack.head? ≠ some (.ofName (.ofChars name))
        && stack.any fun other => other.sameKind (.ofName (.ofChars name))) := by
  unfold closesTop
  split
  · rename_i heq
    obtain rfl := (List.cons.inj heq).2
    dsimp only
    rw [h.nameAt_eq, h.isEmpty_eq, Bool.false_and, if_neg Bool.false_ne_true]
  · rename_i hother
    exact (hother _ rfl).elim

/-- The end tag of an element does not close another one before. -/
theorem closesTop_endTag {stack : List Element} {name rest : List Char} (h : IsWord name rest) :
    closesTop (.ofName (.ofChars name) :: stack) ('/' :: (name ++ rest)) = false := by
  rw [closesTop_slash _ h]
  simp

/-- No start tag closes a plain element. -/
theorem closesTop_startTag {stack : List Element} (hplain : ∀ e ∈ stack, e.Plain)
    {name rest : List Char} (h : IsWord name rest) : closesTop stack (name ++ rest) = false := by
  unfold closesTop
  split
  · rename_i heq
    obtain ⟨c, more, hcons, hc⟩ := h.exists_cons
    rw [heq] at hcons
    exact absurd (List.cons.inj hcons).1.symm (ne_of_isAlpha hc (by decide))
  · cases stack with
    | nil => rfl
    | cons element stack =>
      have helement := hplain element List.mem_cons_self
      dsimp only
      rw [helement.content, helement.contains, helement.inside]
      simp

/-! ## Tokens among nodes -/

/-- Among the nodes at a level, content and the ends of elements are looked for. -/
structure State.IsContent (s : State) (level : Level) : Prop where
  lexicon : s.lexicon = .content
  outlook : s.outlook = level.outlook

namespace Lookahead

variable {state : State} {level : Level} {memory : Memory} {before : Extent}
  {gap body blanks tail rest : List Char}

theorem unsighted_text (hstate : state.IsContent level) {text : List Char}
    (htext : ∀ c ∈ text, isTextChar c = true)
    (htail : Outlook.Passes level (memory.getD []) tail) :
    Unsighted state.outlook memory ⟨before, text ++ tail⟩ := by
  unfold Unsighted
  dsimp only
  have hmark : (Place.mk before (text ++ tail)).markLength ≤ text.length := by
    cases text with
    | nil =>
      rw [List.nil_append, Place.markLength_eq_zero]
      · exact Nat.le_refl 0
      · rcases htail.bracket with ⟨rfl, -⟩ | ⟨rest, rfl, -⟩ <;> exact .inr (by simp)
    | cons c text =>
      rw [Place.markLength]
      split
      · exact Nat.succ_le_succ (Nat.zero_le _)
      · exact Nat.zero_le _
  rw [List.drop_append_of_le_length hmark, hstate.outlook]
  exact Outlook.read_text (fun c hc => htext c (List.mem_of_mem_drop hc)) htail

theorem isTextChar_of_gap (hgap : ∀ c ∈ gap, isBlank c = true ∨ before.chars = 0 ∧ c = '\uFEFF') :
    ∀ c ∈ gap, isTextChar c = true := by
  intro c hc
  rcases hgap c hc with hblank | ⟨-, rfl⟩
  · exact isTextChar_of_isBlank hblank
  · decide

/-- A bracket among nodes opens a tag. -/
theorem finds_opening (hstate : state.IsContent level) (htext : ∀ c ∈ gap, isTextChar c = true)
    (hgap : AtGap before gap ('<' :: rest)) (hslash : rest.head? ≠ some '/')
    (hpasses : Outlook.Passes level (memory.getD []) ('<' :: rest)) :
    Finds state memory ⟨before, gap ++ (['<'] ++ rest)⟩ .opening gap ['<'] none := by
  refine finds_lexeme (unsighted_text hstate htext hpasses) hgap (by rw [hstate.lexicon]; rfl) ?_
  rw [hstate.lexicon]
  have hbang : rest.head? ≠ some '!' := by
    rcases hpasses.bracket with ⟨hnil, -⟩ | ⟨rest', hcons, hbang, -⟩
    · cases hnil
    · rwa [(List.cons.inj hcons).2]
  change bracket rest = _
  unfold bracket
  split
  · exact absurd rfl hbang
  · exact absurd rfl hslash
  · rfl

/-- A bracket with a slash among nodes opens an end tag. -/
theorem finds_endOpening (hstate : state.IsContent level) (htext : ∀ c ∈ gap, isTextChar c = true)
    (hgap : AtGap before gap ('<' :: '/' :: rest))
    (hpasses : Outlook.Passes level (memory.getD []) ('<' :: '/' :: rest)) :
    Finds state memory ⟨before, gap ++ (['<', '/'] ++ rest)⟩ .endOpening gap ['<', '/'] none := by
  refine finds_lexeme (unsighted_text hstate htext hpasses) hgap (by rw [hstate.lexicon]; rfl) ?_
  rw [hstate.lexicon]
  rfl

/-- The source ends among the nodes of the document. -/
theorem finds_finish (hstate : state.IsContent .top) (htext : ∀ c ∈ gap, isTextChar c = true)
    (hgap : AtGap before gap []) :
    Finds state memory ⟨before, gap ++ ([] ++ [])⟩ .finish gap [] none := by
  refine finds_lexeme (unsighted_text hstate htext ⟨.inl ⟨rfl, rfl⟩⟩) hgap
    (by rw [hstate.lexicon]; rfl) ?_
  rw [hstate.lexicon]
  rfl

theorem find_content_of_isTextChar {c : Char} {rest : List Char} {n : Nat}
    (hc : isTextChar c = true)
    (hlength : trimmedLength ((c :: rest).takeWhile isTextChar) = n + 1) :
    Lexicon.content.find (c :: rest) = (some .text, n + 1) := by
  rw [Lexicon.find.eq_def]
  dsimp only
  rw [hlength]
  split
  · exact absurd hc (by decide)
  · exact absurd hc (by decide)
  · rfl

/-- Text among nodes is a token up to its last character that is no blank. -/
theorem finds_text (hstate : state.IsContent level) {c : Char}
    (htext : ∀ d ∈ gap ++ (c :: body ++ blanks), isTextChar d = true)
    (hgap : AtGap before gap (c :: body ++ (blanks ++ tail)))
    (hbody : trimmedLength (c :: body ++ blanks) = (c :: body).length)
    (hpasses : Outlook.Passes level (memory.getD []) tail) :
    Finds state memory ⟨before, gap ++ (c :: body ++ (blanks ++ tail))⟩ .text gap (c :: body)
      none := by
  have hunsighted : Unsighted state.outlook memory ⟨before, gap ++ (c :: body ++ blanks) ++ tail⟩ :=
    unsighted_text hstate htext hpasses
  rw [List.append_assoc, List.append_assoc] at hunsighted
  refine finds_lexeme hunsighted hgap (by rw [hstate.lexicon]; rfl) ?_
  rw [hstate.lexicon]
  have htextual : isTextChar c = true := htext c (by simp)
  have hrun : (c :: body ++ (blanks ++ tail)).takeWhile isTextChar = c :: body ++ blanks := by
    rw [← List.append_assoc, List.takeWhile_append_of_pos fun d hd =>
      htext d (List.mem_append_right gap hd)]
    rcases hpasses.bracket with ⟨rfl, -⟩ | ⟨rest, rfl, -⟩
    · rw [List.takeWhile_nil, List.append_nil]
    · rw [List.takeWhile_cons_of_neg (by decide), List.append_nil]
  refine find_content_of_isTextChar htextual ?_
  change trimmedLength ((c :: body ++ (blanks ++ tail)).takeWhile isTextChar) = _
  rw [hrun, hbody]
  rfl

end Lookahead

/-! ## Tokens in tags -/

/-- In a state only the rest of a tag can come next. -/
structure State.IsTagRest (s : State) : Prop where
  lexicon : s.lexicon = .tag ∨ s.lexicon = .bracket
  outlook : s.outlook = .tagEnd ∨ s.outlook = .comments

namespace Lookahead

variable {state : State} {memory : Memory} {name rest : List Char}

/-- A bracket closes a tag. -/
theorem finds_close (hstate : state.IsTagRest) (before : Extent) (memory : Memory)
    (rest : List Char) :
    Finds state memory ⟨before, [] ++ (['>'] ++ rest)⟩ .close [] ['>'] none := by
  refine finds_lexeme ?_ (atGap_nil (by decide) (by decide) rest) ?_ ?_
  · change state.outlook.read (memory.getD [])
      (('>' :: rest).drop (Place.mk before ('>' :: rest)).markLength) = none
    rw [Place.markLength_eq_zero (.inr (by simp)), List.drop_zero]
    rcases hstate.outlook with houtlook | houtlook
    all_goals
      rw [houtlook, Outlook.read_cons (by decide) (by decide)]
      rfl
  · rcases hstate.lexicon with hlexicon | hlexicon <;> (rw [hlexicon]; rfl)
  · rcases hstate.lexicon with hlexicon | hlexicon <;> (rw [hlexicon]; rfl)

/-- The name in a start tag opens its element. -/
theorem finds_startName (houtlook : state.outlook = .startName) (hname : IsWord name rest)
    (before : Extent) (memory : Memory) :
    Finds state memory ⟨before, [] ++ (name ++ rest)⟩
      (startToken (.ofName (.ofChars name))) [] name
      (some (remembered (.ofName (.ofChars name) :: memory.getD []))) := by
  refine finds_sighting (.inr (hname.head?_ne (by decide))) ?_ (.inl hname.ne_nil)
  rw [houtlook, Outlook.read_startName hname]

/-- The name in an end tag closes its element if that is the innermost. -/
theorem finds_endName (houtlook : state.outlook = .endName) (hname : IsWord name rest)
    (before : Extent) {stack : List Element}
    (hmemory : memory.getD [] = .ofName (.ofChars name) :: stack) :
    Finds state memory ⟨before, [] ++ (name ++ rest)⟩ .endName [] name
      (some (remembered stack)) := by
  refine finds_sighting (.inr (hname.head?_ne (by decide))) ?_ (.inl hname.ne_nil)
  rw [houtlook, hmemory, Outlook.read_endName hname]

end Lookahead

end SfcProxy.Markup
