import SfcProxy.Proofs.Markup.Outline

/-!
# Script elements

The text of a script element runs up to its end tag, which is looked for by counting how much of it
was seen; a character that does not fit is not looked at again. So the end tag is found where no end
tag opens in the text before it and the text does not end with a bracket.

## Main definitions

* `IsScriptText`: text in which no end tag opens
* `quotedAttribute`, `scriptOf`: the trees of an attribute and of a script element

## Main results

* `rawLength_script`: where the text of a script element ends
* `Amid.script`: how a script element is read
-/

namespace SfcProxy.Markup

/-! ## Raw text -/

/-- A code point in upper case is that code point, or stands behind the signs and digits. -/
theorem upperCodePoint_cases (n : Nat) : upperCodePoint n = n ∨ 64 < upperCodePoint n := by
  have hruns : ∀ run ∈ Text.upperRuns, 64 < run.image := by
    decide +kernel
  unfold upperCodePoint Text.CaseRun.map
  split
  · rename_i run hrun
    have himage := hruns run (List.mem_of_find?_eq_some hrun)
    exact .inr (by omega)
  · exact .inl rfl

/-- A sign is the upper-case form of no other character. -/
theorem eq_of_upper {c d : Char} (hd : d.toNat ≤ 64) (h : upper c = d.toNat) : c = d := by
  rw [upper] at h
  split at h
  · unfold Char.toUpper at h
    split at h
    · -- small letters become capital ones
      rename_i hsmall
      have hoffset : ('A'.val - 'a'.val).toNat = 2 ^ 32 - 32 := by decide
      have hlow : 97 ≤ c.val.toNat := UInt32.le_iff_toNat_le.mp hsmall.1
      have hhigh : c.val.toNat ≤ 122 := UInt32.le_iff_toNat_le.mp hsmall.2
      change (c.val + ('A'.val - 'a'.val)).toNat = d.toNat at h
      rw [UInt32.toNat_add, hoffset] at h
      omega
    · exact Char.toNat_inj.mp h
  · rcases upperCodePoint_cases c.toNat with hsame | hhigh
    · omega
    · omega

/-- Text in which no end tag opens, not even with the end tag behind it. -/
structure IsScriptText (cs : List Char) : Prop where
  notNull : '\x00' ∉ cs
  noEndOpening : ¬ ['<', '/'] <:+: cs
  last : cs.getLast? ≠ some '<'

theorem IsScriptText.tail {c : Char} {cs : List Char} (h : IsScriptText (c :: cs)) :
    IsScriptText cs := by
  refine ⟨fun hnull => h.notNull (List.mem_cons_of_mem c hnull), fun hopens => ?_, fun hlast => ?_⟩
  · exact h.noEndOpening (hopens.trans (List.suffix_cons c cs).isInfix)
  · refine h.last ?_
    cases cs with
    | nil => cases hlast
    | cons d cs => rwa [List.getLast?_cons_cons]

theorem rawLength_of_ne {delimiter more : List Char} {c m : Char} (hnull : c ≠ '\x00')
    (hne : upper c ≠ m.toNat) (mark read : Nat) (rest : List Char) :
    rawLength delimiter (m :: more) mark read (c :: rest)
      = rawLength delimiter delimiter (read + 1) (read + 1) rest := by
  rw [rawLength, if_neg hnull, if_neg hne]

/-- The text of a script element ends where its end tag opens. -/
theorem rawLength_script {tail : List Char} : ∀ {cs : List Char}, IsScriptText cs → ∀ read,
    rawLength (delimiterOf .script) (delimiterOf .script) read read
      (cs ++ ("</script".toList ++ tail)) = read + cs.length
  | [], _, read => rfl
  | [c], h, read => by
    have hc : c ≠ '<' := fun hc => h.last (by rw [hc]; rfl)
    have hnull : c ≠ '\x00' := fun hc => h.notNull (by rw [hc]; exact List.mem_cons_self)
    change rawLength _ ('<' :: _) read read (c :: _) = _
    rw [rawLength_of_ne hnull fun hup => hc (eq_of_upper (by decide) hup)]
    rfl
  | c :: d :: cs, h, read => by
    have hnull : c ≠ '\x00' := fun hc => h.notNull (by rw [hc]; exact List.mem_cons_self)
    by_cases hc : c = '<'
    · -- no slash follows the bracket, and what follows is not looked at again
      subst hc
      have hd : d ≠ '/' := by
        rintro rfl
        exact h.noEndOpening ⟨[], cs, rfl⟩
      have hdnull : d ≠ '\x00' := fun hd => h.notNull (by rw [hd]; simp)
      change rawLength _ ('/' :: _) read (read + 1) (d :: (cs ++ _)) = _
      rw [rawLength_of_ne hdnull fun hup => hd (eq_of_upper (by decide) hup),
        rawLength_script h.tail.tail]
      simp only [List.length_cons]
      omega
    · change rawLength _ ('<' :: _) read read (c :: (d :: cs ++ _)) = _
      rw [rawLength_of_ne hnull fun hup => hc (eq_of_upper (by decide) hup),
        rawLength_script h.tail]
      simp only [List.length_cons]
      omega

/-! ## Tokens -/

theorem run_eq {t : Token} {test : Char → Bool} {word rest : List Char} (hword : word ≠ [])
    (htest : ∀ c ∈ word, test c = true) (hrest : ∀ c, rest.head? = some c → test c = false) :
    run t test (word ++ rest) = (some t, word.length) := by
  rw [run, countWhile_append htest hrest]
  split
  · rename_i hzero
    exact absurd (List.length_eq_zero_iff.mp hzero) hword
  · rfl

theorem isAttributeChar_of_isAlpha {c : Char} (h : c.isAlpha = true) :
    isAttributeChar c = true := by
  have hne : ∀ {d : Char}, d.isAlpha = false → (c == d) = false := fun hd =>
    beq_eq_false_iff_ne.mpr (ne_of_isAlpha h hd)
  unfold isAttributeChar isValueChar
  rw [not_isBlank_of_isAlpha h, hne (by decide), hne (by decide), hne (by decide), hne (by decide),
    hne (by decide), hne (by decide), bne, hne (by decide)]
  rfl

namespace Outlook

/-- Where only comments are looked out for, nothing is sighted but behind a bracket. -/
theorem read_comments {cs : List Char} (h : (cs.dropWhile isSeparator).head? ≠ some '<')
    (stack : List Element) : comments.read stack cs = none := by
  unfold read
  rw [if_neg (by decide)]
  dsimp only
  rw [drop_separators]
  generalize cs.dropWhile isSeparator = ds at h
  unfold find?
  split
  case h_1 | h_2 | h_3 => exact absurd rfl h
  all_goals rfl

end Outlook

namespace Lookahead

variable {state : State} {memory : Memory} {before : Extent} {word rest : List Char} {t : Token}

theorem unsighted_comments (houtlook : state.outlook = .comments) {cs : List Char}
    (hmark : cs.head? ≠ some '\uFEFF')
    (hbracket : (cs.dropWhile isSeparator).head? ≠ some '<') :
    Unsighted state.outlook memory ⟨before, cs⟩ := by
  unfold Unsighted
  dsimp only
  rw [Place.markLength_eq_zero (.inr hmark), List.drop_zero, houtlook]
  exact Outlook.read_comments hbracket _

/-- A sign of a tag that stands for itself. -/
theorem finds_sign (houtlook : state.outlook = .comments) {c : Char} (hc : c = '=' ∨ c = '"')
    (hkeeps : state.lexicon.keepsBlanks = false)
    (hfind : state.lexicon.find (c :: rest) = (some t, 1)) :
    Finds state memory ⟨before, [] ++ ([c] ++ rest)⟩ t [] [c] none := by
  have hmark : c ≠ '\uFEFF' := by rcases hc with rfl | rfl <;> decide
  have hblank : isBlank c = false := by rcases hc with rfl | rfl <;> decide
  refine finds_lexeme (unsighted_comments houtlook ?_ ?_) (atGap_nil hmark hblank rest) hkeeps hfind
  · rw [List.nil_append, List.singleton_append, List.head?_cons, Ne, Option.some.injEq]
    exact hmark
  · rcases hc with rfl | rfl
    all_goals
      rw [List.nil_append, List.singleton_append, List.dropWhile_cons_of_neg (by decide)]
      simp

theorem find_tag_of_isAlpha {c : Char} {cs : List Char} (hc : c.isAlpha = true) :
    Lexicon.tag.find (c :: cs) = run .attributeName isAttributeChar (c :: cs) := by
  rw [Lexicon.find.eq_def]
  dsimp only
  split
  case h_1 | h_2 | h_3 => exact absurd hc (by decide)
  case h_4 => rfl

/-- The name of an attribute behind a blank. -/
theorem finds_attributeName (houtlook : state.outlook = .comments) (hlexicon : state.lexicon = .tag)
    (hword : IsWord word ('=' :: rest)) :
    Finds state memory ⟨before, [' '] ++ (word ++ '=' :: rest)⟩ .attributeName [' '] word none := by
  obtain ⟨c, more, hcons, hc⟩ := hword.exists_cons
  refine finds_lexeme (unsighted_comments houtlook (by simp) ?_) (atGap_of_blanks (.inr (by simp))
    (List.forall_mem_singleton.mpr (by decide)) ?_) (by rw [hlexicon]; rfl) ?_
  · rw [List.singleton_append, List.dropWhile_cons_of_pos (by decide), hcons,
      List.dropWhile_cons_of_neg (by rw [not_isSeparator_of_isAlpha hc]; decide), List.head?_cons,
      Ne, Option.some.injEq]
    exact ne_of_isAlpha hc (by decide)
  · intro d hd
    rw [hcons] at hd
    obtain rfl := Option.some.inj hd
    exact not_isBlank_of_isAlpha hc
  · have hrun : run .attributeName isAttributeChar (word ++ '=' :: rest)
        = (some .attributeName, word.length) := by
      refine run_eq hword.ne_nil (fun d hd => isAttributeChar_of_isAlpha (hword.letters d hd)) ?_
      intro d hd
      obtain rfl := Option.some.inj hd
      decide
    rw [hlexicon, ← hrun, hcons]
    exact find_tag_of_isAlpha hc

/-- The text between quotes. -/
theorem finds_quoteText (houtlook : state.outlook = .comments) (hlexicon : state.lexicon = .quote)
    (hword : IsWord word ('"' :: rest)) :
    Finds state memory ⟨before, [] ++ (word ++ '"' :: rest)⟩ .quoteText [] word none := by
  obtain ⟨c, more, hcons, hc⟩ := hword.exists_cons
  refine finds_quoted (unsighted_comments houtlook (hword.head?_ne (by decide)) ?_)
    (hword.head?_ne (by decide)) (by rw [hlexicon]; rfl) ?_
  · rw [hcons, List.dropWhile_cons_of_neg (by rw [not_isSeparator_of_isAlpha hc]; decide),
      List.head?_cons, Ne, Option.some.injEq]
    exact ne_of_isAlpha hc (by decide)
  · have hrun : run .quoteText (fun d => d != '"' && d != '\x00') (word ++ '"' :: rest)
        = (some .quoteText, word.length) := by
      refine run_eq hword.ne_nil (fun d hd => ?_) fun d hd => ?_
      · have hletter := hword.letters d hd
        rw [bne_iff_ne.mpr (ne_of_isAlpha hletter (by decide)),
          bne_iff_ne.mpr (ne_of_isAlpha hletter (by decide))]
        rfl
      · obtain rfl := Option.some.inj hd
        decide
    rw [hlexicon, ← hrun, hcons]
    exact if_neg (ne_of_isAlpha hc (by decide))

/-- The end tag behind raw text. -/
theorem finds_rawEnd (houtlook : state.outlook = .comments) (hlexicon : state.lexicon = .bracket)
    (rest : List Char) :
    Finds state memory ⟨before, [] ++ (['<', '/'] ++ rest)⟩ .endOpening [] ['<', '/'] none := by
  refine finds_lexeme ?_ (atGap_nil (by decide) (by decide) _) (by rw [hlexicon]; rfl)
    (by rw [hlexicon]; rfl)
  unfold Unsighted
  dsimp only
  rw [Place.markLength_eq_zero (.inr (by simp)), List.drop_zero, houtlook, List.nil_append]
  exact Outlook.read_cons (by decide) (by decide) _

/-- The text of a script element, which may be empty. -/
theorem finds_scriptText (houtlook : state.outlook = .rawText) {stack : List Element}
    (hmemory : memory.getD [] = .script :: stack) (hmark : before.chars ≠ 0) {cs : List Char}
    (hcs : IsScriptText cs) (hempty : admitsEmpty state true .rawText = true) :
    Finds state memory ⟨before, [] ++ (cs ++ ("</script".toList ++ rest))⟩ .rawText [] cs
      (some (remembered (.script :: stack))) := by
  refine finds_sighting (.inl hmark) ?_ (.inr hempty)
  rw [houtlook, hmemory, Outlook.read, if_pos rfl, rawText?, rawLength_script hcs, Nat.zero_add]

end Lookahead

/-! ## Attributes -/

namespace Reading

/-- Reading takes in a text as it stands before another one, with the same elements open. -/
def Takes (memory : Memory) (text tail : List Char) (frames frames' : List Frame) : Prop :=
  ∀ before, Advances ⟨frames, ⟨before, text ++ tail⟩, memory, none⟩
    ⟨frames', ⟨before + .ofChars text, tail⟩, memory, none⟩

namespace Takes

variable {memory : Memory} {text text' tail : List Char} {frames frames' frames'' : List Frame}

theorem trans (h : Takes memory text (text' ++ tail) frames frames')
    (h' : Takes memory text' tail frames' frames'') :
    Takes memory (text ++ text') tail frames frames'' := by
  intro before
  rw [Extent.ofChars_append, ← Extent.add_assoc, List.append_assoc]
  exact (h before).trans (h' (before + .ofChars text))

theorem token {gap body : List Char} {t : Token} {next : State}
    (hfinds : ∀ before, Lookahead.Finds (topState frames) memory ⟨before, gap ++ (body ++ tail)⟩ t
      gap body none)
    (hbody : body ≠ []) (hshift : (topState frames).action? t = some (.shift next)) :
    Takes memory (gap ++ body) tail frames (⟨next, .ofToken t gap body none⟩ :: frames) := by
  intro before
  rw [List.append_assoc]
  exact .token (hfinds before) hbody (.refl 3 t frames) hshift

end Takes

end Reading

/-- The source of an attribute behind a blank, with its value in quotes. -/
def attributeSource (name value : List Char) : List Char :=
  ' ' :: (name ++ '=' :: '"' :: (value ++ ['"']))

/-- The tree of an attribute. -/
def quotedAttribute (name value : List Char) : Tree :=
  .branch (.phrase .attribute) [.ofToken .attributeName [' '] name none,
    .ofToken .equals [] ['='] none,
    .branch (.phrase .quotedValue) [.ofToken .quote [] ['"'] none,
      .ofToken .quoteText [] value none, .ofToken .quote [] ['"'] none]]

/-- The tokens of an attribute on the stack. -/
def attributeFrames (name value : List Char) : List Frame :=
  [⟨.built .quotedValue 3 (.tagPart .raw), .ofToken .quote [] ['"'] none⟩,
    ⟨.quoteText .raw, .ofToken .quoteText [] value none⟩,
    ⟨.quote .raw, .ofToken .quote [] ['"'] none⟩,
    ⟨.attributeEquals .raw, .ofToken .equals [] ['='] none⟩,
    ⟨.attributeName .raw, .ofToken .attributeName [' '] name none⟩]

namespace Reading

variable {frames : List Frame} {kind : RawKind} {name value : List Char}

/-- **How an attribute is read**: its tokens are taken in one by one. -/
theorem Takes.quotedAttribute (hframes : topState frames = .rawTagNamed kind) {memory : Memory}
    {tail : List Char} (hname : IsWord name ('=' :: '"' :: (value ++ '"' :: tail)))
    (hvalue : IsWord value ('"' :: tail)) :
    Takes memory (attributeSource name value) tail frames
      (attributeFrames name value ++ frames) := by
  have hfirst : Takes memory ([' '] ++ name) (['='] ++ ('"' :: (value ++ '"' :: tail))) frames
      ((attributeFrames name value).drop 4 ++ frames) := by
    refine token (fun before => ?_) hname.ne_nil (by rw [hframes]; rfl)
    rw [hframes]
    exact Lookahead.finds_attributeName rfl rfl hname
  have hequals : Takes memory ([] ++ ['=']) (['"'] ++ (value ++ '"' :: tail))
      ((attributeFrames name value).drop 4 ++ frames)
      ((attributeFrames name value).drop 3 ++ frames) :=
    token (fun before => Lookahead.finds_sign rfl (.inl rfl) rfl rfl) (by simp) rfl
  have hquote : Takes memory ([] ++ ['"']) (value ++ (['"'] ++ tail))
      ((attributeFrames name value).drop 3 ++ frames)
      ((attributeFrames name value).drop 2 ++ frames) :=
    token (fun before => Lookahead.finds_sign rfl (.inr rfl) rfl rfl) (by simp) rfl
  have htext : Takes memory ([] ++ value) (['"'] ++ tail)
      ((attributeFrames name value).drop 2 ++ frames)
      ((attributeFrames name value).drop 1 ++ frames) :=
    token (fun before => Lookahead.finds_quoteText rfl rfl hvalue) hvalue.ne_nil rfl
  have hlast : Takes memory ([] ++ ['"']) tail ((attributeFrames name value).drop 1 ++ frames)
      (attributeFrames name value ++ frames) :=
    token (fun before => Lookahead.finds_sign rfl (.inr rfl) rfl rfl) (by simp) rfl
  have hall := (((hfirst.trans hequals).trans hquote).trans htext).trans hlast
  simpa [attributeSource] using hall

/-- The tokens of an attribute are put together before the next part of the tag. -/
theorem Reduces.quotedAttribute (hframes : topState frames = .rawTagNamed kind) {t : Token}
    (ht : (Follow.tagPart .raw).admits t = true) :
    Reduces 2 t (attributeFrames name value ++ frames)
      (⟨.rawTagFilled kind, Markup.quotedAttribute name value⟩ :: frames) := by
  have hplain : ∀ frame ∈ attributeFrames name value, frame.tree.isExtra = false := by
    simp [attributeFrames, Tree.isExtra_ofToken]
  have hvalue := Reduces.phrase ((attributeFrames name value).take 3)
    ((attributeFrames name value).drop 3 ++ frames)
    (fun frame hframe => hplain frame (List.mem_of_mem_take hframe)) (State.action?_built ht)
    (show (State.attributeEquals .raw).goto? .quotedValue
      = some (.built .attribute 3 (.tagPart .raw)) from rfl)
  have hattribute := Reduces.phrase (⟨.built .attribute 3 (.tagPart .raw),
      .branch (.phrase .quotedValue) [.ofToken .quote [] ['"'] none,
        .ofToken .quoteText [] value none, .ofToken .quote [] ['"'] none]⟩
      :: (attributeFrames name value).drop 3) frames
    (List.forall_mem_cons.mpr ⟨rfl, fun frame hframe => hplain frame (List.mem_of_mem_drop hframe)⟩)
    (State.action?_built ht)
    (show (topState frames).goto? .attribute = some (.rawTagFilled kind) by rw [hframes]; rfl)
  exact hvalue.trans hattribute

end Reading

/-! ## Script elements -/

/-- The source of a script element with a language, from behind its first bracket up to its text. -/
def scriptTagSource (lang : List Char) : List Char :=
  "script".toList ++ (attributeSource "lang".toList lang ++ ['>'])

-- the equation that is generated for the definition takes long, for it evaluates the name
theorem scriptTagSource_eq (lang : List Char) :
    scriptTagSource lang = "script".toList ++ (attributeSource "lang".toList lang ++ ['>']) :=
  rfl

/-- The source of a script element with a language. -/
def scriptSource (lang text : List Char) : List Char :=
  '<' :: (scriptTagSource lang ++ (text ++ ("</script".toList ++ ['>'])))

/-- The start tag of a script element behind a gap. -/
def scriptTagOf (gap lang : List Char) (memory : Memory) : Tree :=
  .branch (.phrase .scriptStartTag) [.ofToken .opening gap ['<'] none,
    .ofToken .scriptName [] "script".toList memory, quotedAttribute "lang".toList lang,
    .ofToken .close [] ['>'] none]

/-- A script element behind a gap. -/
def scriptOf (gap lang text : List Char) (stack : List Element) : Tree :=
  .branch (.phrase .scriptElement) [scriptTagOf gap lang (some (.script :: stack)),
    .ofToken .rawText [] text (some (.script :: stack)),
    Amid.endTagOf [] "script".toList (some stack)]

/-- The bracket and the name of a script tag on the stack. -/
def scriptNameFrames (level : Level) (gap : List Char) (stack : List Element) : List Frame :=
  [⟨.rawTagNamed .script, .ofToken .scriptName [] "script".toList (some (.script :: stack))⟩,
    ⟨.tagOpen level, .ofToken .opening gap ['<'] none⟩]

theorem isExtra_scriptNameFrames {level : Level} {gap : List Char} {stack : List Element} :
    ∀ frame ∈ scriptNameFrames level gap stack, frame.tree.isExtra = false :=
  List.forall_mem_cons.mpr ⟨Tree.isExtra_ofToken (by decide) _ _ _,
    List.forall_mem_singleton.mpr (Tree.isExtra_ofToken (by decide) _ _ _)⟩

theorem isWord_script {c : Char} (hc : c = ' ' ∨ c = '>') (rest : List Char) :
    IsWord "script".toList (c :: rest) := by
  refine ⟨by decide, List.all_eq_true.mp (by decide), fun d hd => ?_⟩
  obtain rfl := Option.some.inj hd
  rcases hc with rfl | rfl <;> decide

theorem ofName_script : Element.ofName (.ofChars "script".toList) = .script := by
  decide +kernel

theorem isWord_lang (rest : List Char) : IsWord "lang".toList ('=' :: rest) := by
  refine ⟨by decide, List.all_eq_true.mp (by decide), fun d hd => ?_⟩
  obtain rfl := Option.some.inj hd
  decide

namespace Settles

variable {level : Level} {base frames : List Frame} {content : Option Tree}

/-- **Behind a script element** it is a node behind those before it. -/
theorem script (h : Settles level base content frames) {startTag text opening name close : Tree}
    (hstart : startTag.isExtra = false) (htext : text.isExtra = false)
    (hopening : opening.isExtra = false) (hname : name.isExtra = false)
    (hclose : close.isExtra = false) :
    Settles level base
      (some (putNode content (.branch (.phrase .scriptElement)
        [startTag, text, .branch (.phrase .endTag) [opening, name, close]])))
      (⟨.built .endTag 3 (.node level), close⟩ :: ⟨.endNamed level, name⟩
        :: ⟨.rawEndOpen level, opening⟩ :: ⟨.rawFilled .script level, text⟩
        :: ⟨.rawOpened .script level, startTag⟩ :: withContent base content) := by
  refine ⟨h.begins, counts_putNode _ rfl, by cases level <;> exact ⟨rfl, rfl⟩, fun t ht => ?_⟩
  have hend := Reading.Reduces.phrase [⟨.built .endTag 3 (.node level), close⟩,
      ⟨.endNamed level, name⟩, ⟨.rawEndOpen level, opening⟩]
    (⟨.rawFilled .script level, text⟩ :: ⟨.rawOpened .script level, startTag⟩
      :: withContent base content) (by simp [hopening, hname, hclose]) (State.action?_built ht)
    (show (State.rawFilled .script level).goto? .endTag
      = some (.built .scriptElement 3 (.node level)) from rfl)
  exact hend.trans (h.phrase (.inr rfl) [⟨.built .scriptElement 3 (.node level),
    .branch (.phrase .endTag) [opening, name, close]⟩, ⟨.rawFilled .script level, text⟩,
    ⟨.rawOpened .script level, startTag⟩] (by simp [hstart, htext]) ht (State.action?_built ht))

end Settles

namespace Reading

variable {frames below : List Frame} {level : Level} {stack : List Element}

/-- **How the text of a script element is read**, up to the bracket of its end tag. -/
theorem Advances.scriptText {startTag : Tree} {text tail : List Char} {before : Extent}
    (hframes : topState frames = .built .scriptStartTag 4 .rawText)
    (hreduces : Reduces 1 .rawText frames (⟨.rawOpened .script level, startTag⟩ :: below))
    (hbefore : before.chars ≠ 0) (htext : IsScriptText text)
    (hremembered : remembered (.script :: stack) = .script :: stack) :
    Advances ⟨frames, ⟨before, text ++ ("</script".toList ++ tail)⟩, some (.script :: stack), none⟩
      ⟨⟨.rawEndOpen level, .ofToken .endOpening [] ['<', '/'] none⟩
          :: ⟨.rawFilled .script level, .ofToken .rawText [] text (some (.script :: stack))⟩
          :: ⟨.rawOpened .script level, startTag⟩ :: below,
        ⟨before + .ofChars text + .ofChars ['<', '/'], "script".toList ++ tail⟩,
        some (.script :: stack), none⟩ := by
  have hfinds : Lookahead.Finds (topState frames) (some (.script :: stack))
      ⟨before, [] ++ (text ++ ("</script".toList ++ tail))⟩ .rawText [] text
      (some (.script :: stack)) := by
    rw [hframes, ← hremembered]
    exact Lookahead.finds_scriptText rfl (by rw [Option.getD_some, hremembered]) hbefore htext rfl
  have hfirst : Reaches 2
      ⟨frames, ⟨before, [] ++ (text ++ ("</script".toList ++ tail))⟩, some (.script :: stack), none⟩
      ⟨⟨.rawFilled .script level, .ofToken .rawText [] text (some (.script :: stack))⟩
          :: ⟨.rawOpened .script level, startTag⟩ :: below,
        ⟨before + .ofChars text, [] ++ (['<', '/'] ++ ("script".toList ++ tail))⟩,
        some (.script :: stack), none⟩ :=
    .token hfinds hreduces rfl
  have hsecond := hfirst.trans (.token (Lookahead.finds_rawEnd rfl rfl ("script".toList ++ tail))
    (.refl 0 .endOpening _) rfl)
  refine ⟨text.length + 2, hsecond.mono (by omega), ?_, ?_⟩
  · change (before + Extent.ofChars text + Extent.ofChars ['<', '/']).chars = _
    rw [Extent.chars_add, Extent.chars_add, Extent.chars_ofChars, Extent.chars_ofChars]
    rfl
  · change (text ++ ("</script".toList ++ tail)).length = ("script".toList ++ tail).length + _
    simp only [List.length_append]
    change text.length + (8 + _) = 6 + _ + _
    omega

end Reading

namespace Amid

variable {level : Level} {base : List Frame} {stack : List Element} {content : Option Tree}
  {start : Nat} {r : Reading}

/-- The start tag of a script element is taken in behind the nodes so far. -/
theorem scriptTag (h : Amid level base stack content start r) {gap lang tail : List Char}
    (hstands : Stands r gap ('<' :: (scriptTagSource lang ++ tail)))
    (hpasses : Outlook.Passes level stack ('<' :: (scriptTagSource lang ++ tail)))
    (hlang : IsWord lang ('"' :: '>' :: tail))
    (hremembered : remembered (.script :: stack) = .script :: stack) :
    ∃ frames before, before.chars ≠ 0 ∧
      r.Advances ⟨frames, ⟨before, tail⟩, some (.script :: stack), none⟩ ∧
      topState frames = .built .scriptStartTag 4 .rawText ∧
      Reading.Reduces 1 .rawText frames (⟨.rawOpened .script level,
        scriptTagOf gap lang (some (.script :: stack))⟩ :: withContent base content) := by
  have hsource : scriptTagSource lang ++ tail
      = "script".toList ++ (attributeSource "lang".toList lang ++ '>' :: tail) := by
    simp [scriptTagSource_eq]
  rw [hsource] at hstands hpasses
  have hname : IsWord "script".toList (attributeSource "lang".toList lang ++ '>' :: tail) :=
    isWord_script (.inl rfl) _
  have hopening := h.opening hstands hname hpasses
  have houtlook : (State.tagOpen level).outlook = .startName := rfl
  have hfinds := Lookahead.finds_startName houtlook hname
    (r.place.before + .ofChars (gap ++ ['<'])) r.memory
  rw [ofName_script, show startToken .script = .scriptName from rfl, h.memory, hremembered]
    at hfinds
  have hnamed : Reading.Advances
      ⟨⟨.tagOpen level, .ofToken .opening gap ['<'] none⟩ :: withContent base content,
        ⟨r.place.before + .ofChars (gap ++ ['<']), [] ++ ("script".toList
          ++ (attributeSource "lang".toList lang ++ '>' :: tail))⟩, r.memory, none⟩
      ⟨scriptNameFrames level gap stack ++ withContent base content,
        ⟨r.place.before + .ofChars (gap ++ ['<']) + .ofChars ([] ++ "script".toList),
          attributeSource "lang".toList lang ++ '>' :: tail⟩, some (.script :: stack), none⟩ :=
    .token hfinds (by decide) (.refl 3 .scriptName _) rfl
  generalize r.place.before + Extent.ofChars (gap ++ ['<']) + .ofChars ([] ++ "script".toList)
    = before at hnamed
  have hframes : topState (scriptNameFrames level gap stack ++ withContent base content)
      = .rawTagNamed .script := rfl
  have hattribute : Reading.Takes (some (.script :: stack)) (attributeSource "lang".toList lang)
      ('>' :: tail) _ _ := Reading.Takes.quotedAttribute hframes (isWord_lang _) hlang
  have hclose : Reading.Advances
      ⟨attributeFrames "lang".toList lang
          ++ (scriptNameFrames level gap stack ++ withContent base content),
        ⟨before + .ofChars (attributeSource "lang".toList lang), [] ++ (['>'] ++ tail)⟩,
        some (.script :: stack), none⟩
      ⟨⟨.built .scriptStartTag 4 .rawText, .ofToken .close [] ['>'] none⟩
          :: ⟨.rawTagFilled .script, quotedAttribute "lang".toList lang⟩
          :: (scriptNameFrames level gap stack ++ withContent base content),
        ⟨before + .ofChars (attributeSource "lang".toList lang) + .ofChars ([] ++ ['>']), tail⟩,
        some (.script :: stack), none⟩ :=
    .token (Lookahead.finds_close ⟨.inl rfl, .inr rfl⟩ _ _ tail) (by simp)
      ((Reading.Reduces.quotedAttribute hframes rfl).mono (by omega)) rfl
  refine ⟨_, _, ?_, ((hopening.trans hnamed).trans (hattribute before)).trans hclose, rfl, ?_⟩
  · rw [Extent.chars_add]
    exact Nat.succ_ne_zero _
  · refine Reading.Reduces.phrase
      (⟨.built .scriptStartTag 4 .rawText, .ofToken .close [] ['>'] none⟩
      :: ⟨.rawTagFilled .script, quotedAttribute "lang".toList lang⟩
      :: scriptNameFrames level gap stack) (withContent base content) ?_ (State.action?_built rfl)
      (h.settles.begins.among content).goto?_scriptStartTag
    exact List.forall_mem_cons.mpr ⟨Tree.isExtra_ofToken (by decide) _ _ _,
      List.forall_mem_cons.mpr ⟨rfl, isExtra_scriptNameFrames⟩⟩

theorem chars_total_scriptOf (gap lang text : List Char) (stack : List Element) :
    (scriptOf gap lang text stack).total.chars = gap.length + (scriptSource lang text).length := by
  rw [scriptOf, Tree.chars_total_branch]
  simp only [List.map_cons, List.map_nil, List.sum_cons, List.sum_nil, chars_total_endTagOf,
    Tree.chars_total_ofToken, scriptTagOf, quotedAttribute, Tree.chars_total_branch, scriptSource,
    scriptTagSource_eq, attributeSource, List.length_cons, List.length_append, List.length_nil]
  have hclosing : "</script".toList.length = "script".toList.length + 2 := rfl
  omega

/-- **How a script element is read**: behind it it is a node, and no other element is open. -/
theorem script (h : Amid level base stack content start r) {gap lang text rest : List Char}
    (hstands : Stands r gap (scriptSource lang text ++ rest))
    (hpasses : Outlook.Passes level stack (scriptSource lang text ++ rest))
    (hlang : lang ≠ [] ∧ ∀ c ∈ lang, c.isAlpha = true) (htext : IsScriptText text)
    (hopened : remembered (.script :: stack) = .script :: stack)
    (hclosed : remembered stack = stack) :
    ∃ r', r.Advances r' ∧ r'.place.rest = rest ∧
      Amid level base stack (some (putNode content (scriptOf gap lang text stack))) start r' := by
  have hsource : scriptSource lang text ++ rest
      = '<' :: (scriptTagSource lang ++ (text ++ ("</script".toList ++ '>' :: rest))) := by
    simp [scriptSource]
  rw [hsource] at hstands hpasses
  have hword : IsWord lang ('"' :: '>' :: (text ++ ("</script".toList ++ '>' :: rest))) := by
    refine ⟨hlang.1, hlang.2, fun d hd => ?_⟩
    obtain rfl := Option.some.inj hd
    decide
  obtain ⟨frames, before, hbefore, htag, hframes, hreduces⟩ :=
    h.scriptTag hstands hpasses hword hopened
  have hinside : Reading.Advances
      ⟨frames, ⟨before, text ++ ("</script".toList ++ '>' :: rest)⟩, some (.script :: stack), none⟩
      ⟨⟨.rawEndOpen level, .ofToken .endOpening [] ['<', '/'] none⟩
          :: ⟨.rawFilled .script level, .ofToken .rawText [] text (some (.script :: stack))⟩
          :: ⟨.rawOpened .script level, scriptTagOf gap lang (some (.script :: stack))⟩
          :: withContent base content,
        ⟨before + .ofChars text + .ofChars ['<', '/'], "script".toList ++ '>' :: rest⟩,
        some (.script :: stack), none⟩ :=
    .scriptText hframes hreduces hbefore htext hopened
  have hfinds : Lookahead.Finds (.rawEndOpen level) (some (.script :: stack))
      ⟨before + .ofChars text + .ofChars ['<', '/'], [] ++ ("script".toList ++ '>' :: rest)⟩
      .endName [] "script".toList (some stack) := by
    have hfound := Lookahead.finds_endName
      (show (State.rawEndOpen level).outlook = .endName from rfl) (isWord_script (.inr rfl) rest)
      (before + .ofChars text + .ofChars ['<', '/'])
      (show (some (Element.script :: stack)).getD []
        = .ofName (.ofChars "script".toList) :: stack by rw [ofName_script]; rfl)
    rwa [hclosed] at hfound
  have hend := Reading.Advances.tagRest (.ofToken .endOpening [] ['<', '/'] none)
    (⟨.rawFilled .script level, .ofToken .rawText [] text (some (.script :: stack))⟩
      :: ⟨.rawOpened .script level, scriptTagOf gap lang (some (.script :: stack))⟩
      :: withContent base content) hfinds (by decide)
    (show (State.rawEndOpen level).action? .endName = some (.shift (.endNamed level)) from rfl)
    ⟨.inr rfl, .inr rfl⟩ rfl
  have hall := (htag.trans hinside).trans hend
  refine ⟨_, hall, rfl, ?_, rfl, rfl, ?_⟩
  · exact h.settles.script rfl (Tree.isExtra_ofToken (by decide) _ _ _)
      (Tree.isExtra_ofToken (by decide) _ _ _) (Tree.isExtra_ofToken (by decide) _ _ _)
      (Tree.isExtra_ofToken (by decide) _ _ _)
  · -- what was read is as long as its tree
    obtain ⟨n, -, hbefore, hlength⟩ := hall
    rw [hbefore, h.chars, contentChars_putNode, chars_total_scriptOf]
    rw [hstands.rest, ← hsource, List.length_append, List.length_append] at hlength
    change _ = rest.length + n at hlength
    omega

end Amid

end SfcProxy.Markup
