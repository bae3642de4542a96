import SfcProxy.Proofs.Markup.Outline

/-!
# Elements that are forgotten

Of the elements that are open only so many are remembered by name. An element beyond them ends
before the end tag of any other element, so its own end tag closes the element around it, and at the
end of the outermost one an end tag is left for which no element is open. There reading meets a
fault.

## Main definitions

* `Place.IsIn`: a place lies in a source
* `nestedTree`: the tree of nested elements of which the innermost is forgotten

## Main results

* `Reading.Reaches.isIn`: reading does not leave its source
* `Amid.impliedEnd`: how an element ends without an end tag
* `run_nested`: elements that are nested one level too deep lead to a fault
-/

namespace SfcProxy.Markup

/-! ## Places in a source -/

/-- A place lies in a source. -/
def Place.IsIn (place : Place) (source : List Char) : Prop :=
  ∃ front, source = front ++ place.rest ∧ place.before = .ofChars front

theorem Place.IsIn.move {place : Place} {source : List Char} (h : place.IsIn source) (n : Nat) :
    (place.move n).IsIn source := by
  induction n generalizing place with
  | zero => exact h
  | succ n ih =>
    obtain ⟨front, hsource, hbefore⟩ := h
    rw [Place.move]
    split
    · exact ⟨front, hsource, hbefore⟩
    · rename_i c rest hrest
      refine ih ⟨front ++ [c], ?_, ?_⟩
      · rw [hsource, hrest, List.append_assoc]
        rfl
      · rw [hbefore, Extent.ofChars_append, Extent.ofChars_cons]
        rfl

namespace Reading

theorem step_place {r s : Reading} (h : r.step = .inl s) : ∃ n, s.place = r.place.move n := by
  have hstepped := r.stepped_step
  rw [h] at hstepped
  cases hstepped with
  | shifted | passed => exact ⟨_, rfl⟩
  | reduced _ reduce_eq =>
    unfold reduce? at reduce_eq
    obtain ⟨next, -, rfl⟩ := Option.map_eq_some_iff.mp reduce_eq
    exact ⟨0, rfl⟩

/-- Reading does not leave its source. -/
theorem Reaches.isIn {n : Nat} {r s : Reading} {source : List Char} (h : Reaches n r s)
    (hr : r.place.IsIn source) : s.place.IsIn source := by
  induction h with
  | refl n r => exact hr
  | step first rest ih =>
    obtain ⟨n, hplace⟩ := step_place first
    exact ih (hplace ▸ hr.move n)

end Reading

theorem Extent.ofChars_flatten_replicate {word : List Char} {size : Extent}
    (hword : Extent.ofChars word = size) (n : Nat) :
    Extent.ofChars (List.replicate n word).flatten
      = ⟨n * size.chars, n * size.bytes, n * size.lines⟩ := by
  induction n with
  | zero => simp [Extent.ofChars, Extent.zero]
  | succ n ih =>
    rw [List.replicate_succ, List.flatten_cons, Extent.ofChars_append, ih, hword]
    change Extent.mk _ _ _ = _
    simp only [Nat.succ_mul, Nat.add_comm]

/-! ## Implied ends -/

theorem State.IsContent.admits_impliedEnd {s : State} (h : s.IsContent .inner) :
    Lookahead.admitsEmpty s true .impliedEnd = true := by
  have hfault : s ≠ .fault := by
    rintro rfl
    cases h.lexicon
  have hnext : s.next? .impliedEnd ≠ some s := by
    change s.behindEnd? ≠ some s
    cases s <;> simp [behindEnd?]
  simp [Lookahead.admitsEmpty, hfault, hnext]

/-- **How an element ends without an end tag**: before the end tag of another one. -/
theorem Amid.impliedEnd {level : Level} {base frames : List Frame} {stack : List Element}
    {content inside : Option Tree} {start : Nat} {r : Reading} {startTag : Tree}
    {name rest : List Char} {element : Element} (hsettles : Settles level base content frames)
    (h : Amid .inner (⟨.opened level, startTag⟩ :: withContent base content) (element :: stack)
      inside (start + contentChars content + startTag.total.chars) r)
    (hrest : r.place.rest = '<' :: '/' :: (name ++ rest))
    (hcloses : closesTop (element :: stack) ('/' :: (name ++ rest)) = true)
    (hstart : startTag.isExtra = false) (hremembered : remembered stack = stack) :
    ∃ r', Reading.Reaches 4 r r' ∧ r'.place = r.place ∧ r'.memory = some stack ∧
      Amid level base stack (some (putNode content (Settles.element startTag inside
        (.ofToken .impliedEnd [] [] (some stack))))) start r' := by
  obtain ⟨framesInside, ⟨before, _⟩, memory, look?⟩ := r
  obtain rfl : look? = none := h.look
  obtain rfl : _ = '<' :: '/' :: (name ++ rest) := hrest
  have hread : (topState framesInside).outlook.read (memory.getD []) ('<' :: '/' :: (name ++ rest))
      = some ⟨.impliedEnd, 0, 0, stack⟩ := by
    have hmemory : memory.getD [] = element :: stack := h.memory
    rw [h.settles.state.outlook, hmemory, Outlook.read_cons (by decide) (by decide)]
    change impliedEnd? (element :: stack) 0 ('/' :: (name ++ rest)) = _
    rw [impliedEnd?, hcloses, if_pos rfl]
    rfl
  have hfinds : Lookahead.Finds (topState framesInside) memory
      ⟨before, [] ++ ([] ++ '<' :: '/' :: (name ++ rest))⟩ .impliedEnd [] [] (some stack) := by
    rw [← hremembered]
    exact Lookahead.finds_sighting (.inr (by simp)) hread
      (.inr h.settles.state.admits_impliedEnd)
  have hshift : (topState (withContent (⟨.opened level, startTag⟩ :: withContent base content)
      inside)).action? .impliedEnd
      = some (.shift (.built .element (2 + inside.toList.length) (.node level))) := by
    cases inside <;> rfl
  refine ⟨_, .token hfinds (h.settles.reduces .impliedEnd rfl) hshift, rfl, rfl, ?_, rfl, rfl, ?_⟩
  · -- The new end takes no characters, so all that is new is how the element closes.
    have hending : (Tree.ofToken .impliedEnd [] [] (some stack)).isExtra = false :=
      Tree.isExtra_ofToken (by decide) _ _ _
    exact ⟨hsettles.begins, Settles.counts_putNode _ rfl, by cases level <;> exact ⟨rfl, rfl⟩,
      fun t ht => (hsettles.closing hstart h.settles.counts hending ht).mono (by omega)⟩
  · have hchars : before.chars
        = start + contentChars content + startTag.total.chars + contentChars inside := h.chars
    rw [contentChars_putNode, chars_total_element, Tree.chars_total_ofToken]
    simp [hchars]
    omega

/-! ## Nested elements -/

/-- The start tags of nested elements. -/
def startTags (n : Nat) : List Char :=
  (List.replicate n ('<' :: (TagName.div.chars ++ ['>']))).flatten

/-- The end tags of nested elements. -/
def endTags (n : Nat) : List Char :=
  (List.replicate n ('<' :: '/' :: (TagName.div.chars ++ ['>']))).flatten

theorem startTags_succ (n : Nat) :
    startTags (n + 1) = '<' :: (TagName.div.chars ++ '>' :: startTags n) := by
  simp [startTags, List.replicate_succ]

theorem endTags_succ (n : Nat) (tail : List Char) :
    endTags (n + 1) ++ tail = endTags n ++ '<' :: '/' :: (TagName.div.chars ++ '>' :: tail) := by
  simp [endTags, List.replicate_succ']

/-- An outline of nested elements without text. -/
def Outline.nested : Nat → Outline
  | 0 => .last ⟨[], List.forall_mem_nil _⟩
  | n + 1 =>
    .element ⟨[], List.forall_mem_nil _⟩ .div (nested n) (.last ⟨[], List.forall_mem_nil _⟩)

theorem Outline.depth_nested (n : Nat) : (nested n).depth = n := by
  induction n with
  | zero => rfl
  | succ n ih =>
    rw [nested, depth, ih]
    exact Nat.max_eq_left (Nat.zero_le _)

theorem Outline.chars_nested (n : Nat) : (nested n).chars = startTags n ++ endTags n := by
  induction n with
  | zero => rfl
  | succ n ih =>
    have hend := endTags_succ n []
    rw [List.append_nil] at hend
    rw [nested, chars, ih, startTags_succ, hend]
    simp [chars]

/-- So many elements are open. -/
def openElements (n : Nat) : List Element :=
  List.replicate n TagName.div.element

/-- The tree of an element that is forgotten with as many elements around it, of which no more can
be remembered. -/
def nestedTree : Nat → Tree
  | 0 => Settles.element (Amid.startTagOf [] TagName.div.chars
      (some (.forgotten :: openElements 1019))) none
      (.ofToken .impliedEnd [] [] (some (openElements 1019)))
  | n + 1 => Settles.element (Amid.startTagOf [] TagName.div.chars (some (openElements (1019 - n))))
      (some (nestedTree n)) (Amid.endTagOf [] TagName.div.chars (some (openElements (1018 - n))))

theorem exists_known_of_mem {n : Nat} {e : Element} (he : e ∈ openElements n) :
    ∃ name, e = .known name :=
  ⟨_, (List.eq_of_mem_replicate he).trans TagName.div.element_eq⟩

theorem remembered_openElements {n : Nat} (hn : n ≤ 1019) :
    remembered (openElements n) = openElements n :=
  remembered_eq (fun _ he => exists_known_of_mem he) (by rwa [openElements, List.length_replicate])

/-- The start tags of nested elements close none of them. -/
theorem passes_openElements (level : Level) (n : Nat) (rest : List Char) :
    Outlook.Passes level (openElements n) ('<' :: (TagName.div.chars ++ '>' :: rest)) := by
  have hpasses := Outline.passes_startTag level (List.replicate n .div) .div rest
  rwa [List.map_replicate] at hpasses

theorem stands_nil {r : Reading} {rest : List Char} (h : r.place.rest = '<' :: rest) :
    Stands r [] ('<' :: rest) :=
  ⟨h, atGap_nil (by decide) (by decide) rest, nofun⟩

/-- **How nested elements are read** of which the innermost is forgotten: one end tag is left. -/
theorem reads_nested {n : Nat} (hn : n ≤ 1019) {level : Level} {base : List Frame}
    {content : Option Tree} {start : Nat} {r : Reading}
    (h : Amid level base (openElements (1019 - n)) content start r) {tail : List Char}
    (hrest : r.place.rest = startTags (n + 1) ++ (endTags n ++ '<' :: '/' :: (TagName.div.chars
      ++ '>' :: tail))) :
    ∃ m r', Reading.Reaches (4 * m + 4) r r' ∧ r.place.rest.length = r'.place.rest.length + m ∧
      r'.place.rest = '<' :: '/' :: (TagName.div.chars ++ '>' :: tail) ∧
      r'.memory = some (openElements (1019 - n)) ∧
      Amid level base (openElements (1019 - n)) (some (putNode content (nestedTree n))) start
        r' := by
  induction n generalizing level base content start r tail with
  | zero =>
    have hstands : Stands r [] ('<' :: (TagName.div.chars ++ '>' :: ('<' :: '/'
        :: (TagName.div.chars ++ '>' :: tail)))) :=
      stands_nil (by rw [hrest]; simp [startTags, endTags])
    have hforgotten : remembered (TagName.div.element :: openElements (1019 - 0))
        = .forgotten :: openElements 1019 := by
      decide +kernel
    obtain ⟨r₁, ⟨m, hsteps, hbefore, hlength⟩, hrest₁, hamid₁, hchars₁⟩ := h.startTag hstands
      (TagName.div.isWord _) (passes_openElements level _ _) rfl TagName.div.startToken_eq
      hforgotten
    rw [hchars₁] at hamid₁
    have hcloses : closesTop (.forgotten :: openElements 1019)
        ('/' :: (TagName.div.chars ++ '>' :: tail)) = true := by
      rw [closesTop_slash _ (TagName.div.isWord tail)]
      decide +kernel
    obtain ⟨r', hend, hplace, hmemory, hamid⟩ := Amid.impliedEnd h.settles hamid₁ hrest₁ hcloses rfl
      (remembered_openElements (by omega))
    refine ⟨m, r', hsteps.trans hend, ?_, ?_, hmemory, hamid⟩
    · rw [hplace, hlength]
    · rw [hplace, hrest₁]
  | succ n ih =>
    obtain ⟨k, hk⟩ : ∃ k, 1019 - n = k + 1 := ⟨1018 - n, by omega⟩
    have hlevel : 1019 - (n + 1) = k := by omega
    have hlevel' : 1018 - n = k := by omega
    rw [hlevel] at h ⊢
    rw [startTags_succ, endTags_succ] at hrest
    have hstands : Stands r [] ('<' :: (TagName.div.chars ++ '>' :: (startTags (n + 1) ++ (endTags n
        ++ '<' :: '/' :: (TagName.div.chars ++ '>' :: '<' :: '/' :: (TagName.div.chars
          ++ '>' :: tail)))))) := stands_nil (by rw [hrest]; simp)
    obtain ⟨r₁, ⟨m₁, hsteps₁, hbefore₁, hlength₁⟩, hrest₁, hamid₁, hchars₁⟩ := h.startTag hstands
      (TagName.div.isWord _) (passes_openElements level _ _) rfl TagName.div.startToken_eq
      (remembered_openElements (by omega : k + 1 ≤ 1019))
    obtain ⟨m₂, r₂, hsteps₂, hlength₂, hrest₂, -, hamid₂⟩ :=
      ih (by omega) (by rw [hk]; exact hamid₁) hrest₁
    rw [hk, hchars₁] at hamid₂
    obtain ⟨r₃, ⟨m₃, hsteps₃, hbefore₃, hlength₃⟩, hrest₃, hmemory₃, hamid₃⟩ :=
      Amid.endTag h.settles hamid₂ (stands_nil hrest₂) (TagName.div.isWord _) rfl rfl
        (remembered_openElements (by omega))
    refine ⟨m₁ + m₂ + m₃, r₃, ?_, by omega, hrest₃, hmemory₃, ?_⟩
    · exact ((hsteps₁.trans hsteps₂).trans hsteps₃).mono (by omega)
    · rw [nestedTree, hk, hlevel']
      exact hamid₃

/-! ## The end tag that is left -/

/-- Reading behind nested elements, at the name of an end tag for which no element is open. -/
def strayReading (before : Extent) (tail : List Char) : Reading where
  frames := [⟨.strayOpen .top, .ofToken .endOpening [] ['<', '/'] none⟩, ⟨.nodes, nestedTree 1019⟩]
  place := ⟨before, TagName.div.chars ++ '>' :: tail⟩
  memory := some []
  look? := none

/-- Where no element is open, no token is found at a name. -/
theorem hit?_name {outlook : Outlook} (houtlook : outlook = .comments ∨ outlook = .anything)
    (admitsEmpty : Token → Bool) (before : Extent) (tail : List Char) :
    Lookahead.hit? .bracket outlook admitsEmpty (some [])
      ⟨before, TagName.div.chars ++ '>' :: tail⟩ = none := by
  have hmark : (Place.mk before (TagName.div.chars ++ '>' :: tail)).markLength = 0 :=
    Place.markLength_eq_zero (.inr ((TagName.div.isWord tail).head?_ne (by decide)))
  have hread : outlook.read [] (TagName.div.chars ++ '>' :: tail) = none := by
    obtain ⟨c, more, hcons, hc⟩ := (TagName.div.isWord tail).exists_cons
    rw [hcons, Outlook.read_cons (not_isSeparator_of_isAlpha hc)
      (by rcases houtlook with rfl | rfl <;> decide), Outlook.find?_letter hc]
    rcases houtlook with rfl | rfl <;> rfl
  unfold Lookahead.hit? Lookahead.sighted? Lookahead.lexeme
  dsimp only
  rw [hmark, Option.getD_some, List.drop_zero, hread]
  rfl

/-- The name at which reading stands is a fault. -/
theorem symbol_strayReading (before : Extent) (tail : List Char) :
    (strayReading before tail).look.symbol = .fault := by
  have hlook : (strayReading before tail).look = Lookahead.read (.strayOpen .top) true (some [])
      ⟨before, TagName.div.chars ++ '>' :: tail⟩ := rfl
  rw [hlook]
  unfold Lookahead.read Lookahead.resumed?
  dsimp only
  rw [show (State.strayOpen .top).lexicon = .bracket from rfl,
    show (State.strayOpen .top).outlook = .comments from rfl, hit?_name (.inl rfl),
    hit?_name (.inr rfl)]
  rfl

theorem ofChars_startTags (n : Nat) : Extent.ofChars (startTags n) = ⟨n * 5, n * 5, n * 0⟩ :=
  Extent.ofChars_flatten_replicate
    (show Extent.ofChars ('<' :: (TagName.div.chars ++ ['>'])) = ⟨5, 5, 0⟩ from rfl) n

theorem ofChars_endTags (n : Nat) : Extent.ofChars (endTags n) = ⟨n * 6, n * 6, n * 0⟩ :=
  Extent.ofChars_flatten_replicate
    (show Extent.ofChars ('<' :: '/' :: (TagName.div.chars ++ ['>'])) = ⟨6, 6, 0⟩ from rfl) n

/-- **Elements that are nested too deep** lead to a fault: the end tag of the outermost element is
left, and no element is open for it. -/
theorem run_nested (tail : List Char) :
    Reading.run (startTags 1020 ++ (endTags 1020 ++ tail))
      = .stuck (strayReading ⟨11216, 11216, 0⟩ tail)
        (strayReading ⟨11216, 11216, 0⟩ tail).look := by
  rw [endTags_succ]
  generalize hsource : startTags 1020 ++ (endTags 1019
    ++ '<' :: '/' :: (TagName.div.chars ++ '>' :: tail)) = source
  have hstart : Amid .top [] (openElements (1019 - 1019)) none 0 (.start source) :=
    ⟨.empty .top, rfl, rfl, rfl⟩
  obtain ⟨m, r, hsteps, hlength, hrest, hmemory, hamid⟩ :=
    reads_nested (Nat.le_refl 1019) hstart hsource.symm
  have hstarts : (Reading.start source).place.IsIn source := ⟨[], rfl, rfl⟩
  obtain ⟨front, hfront, hbefore⟩ := hsteps.isIn hstarts
  rw [hrest, ← hsource, ← List.append_assoc] at hfront
  have hplace : Extent.ofChars front + Extent.ofChars ['<', '/'] = ⟨11216, 11216, 0⟩ := by
    rw [← List.append_cancel_right hfront, Extent.ofChars_append, ofChars_startTags,
      ofChars_endTags]
    decide +kernel
  obtain ⟨frames, ⟨before, _⟩, memory, look?⟩ := r
  obtain rfl : look? = none := hamid.look
  obtain rfl : memory = some [] := hmemory
  obtain rfl : _ = '<' :: '/' :: (TagName.div.chars ++ '>' :: tail) := hrest
  obtain rfl : before = .ofChars front := hbefore
  have hopening : Lookahead.Finds (topState frames) (some []) ⟨.ofChars front, [] ++ (['<', '/']
      ++ (TagName.div.chars ++ '>' :: tail))⟩ .endOpening [] ['<', '/'] none :=
    Lookahead.finds_endOpening hamid.settles.state nofun (atGap_nil (by decide) (by decide) _)
      ⟨.inr ⟨_, rfl, by simp, nofun⟩⟩
  have hstray : Reading.Reaches (4 * m + 4 + (3 + 1)) (.start source)
      (strayReading (.ofChars front + .ofChars ['<', '/']) tail) :=
    hsteps.trans (.token hopening (hamid.settles.reduces .endOpening rfl)
      (show State.nodes.action? .endOpening = some (.shift (.strayOpen .top)) from rfl))
  rw [hplace] at hstray
  have hend : (strayReading ⟨11216, 11216, 0⟩ tail).step
      = .inr (.stuck (strayReading ⟨11216, 11216, 0⟩ tail)
        (strayReading ⟨11216, 11216, 0⟩ tail).look) := by
    unfold Reading.step
    dsimp only
    rw [symbol_strayReading]
    rfl
  refine hstray.runFrom hend ?_
  change source.length = _ + m at hlength
  omega

end SfcProxy.Markup
