import SfcProxy.Proofs.FileUri

/-!
# Paths that come back from their URIs

A path is normal if its components are what a text between slashes can be: none of them is empty, a
dot, or has a slash in it. All paths that are read from texts are normal, and a normal path behind
one slash is read from its own text.

The URI of a path gives back its text, up to a host and a drive letter. So a normal path behind one
slash, without surrogates and without a drive letter, has a URI, and the URI leads back to it,
whatever characters are in its components. No two such paths share a URI.

## Main definitions

* `Path.IsNormal`: the components of a path are those of a text
* `FileUri.Addressable`: a path of characters behind one slash, without a drive letter

## Main results

* `Path.isNormal_ofText`, `Path.ofText_text`: normal paths are those that are read from texts
* `FileUri.exists_ofPath`: an addressable path has a URI
* `FileUri.uri_leads_back`: the URI leads back to the path
-/

namespace SfcProxy

/-! ## Pieces between cuts -/

namespace Text

variable {cut : TextUnit → Bool}

theorem forall_mem_splitOn (t : Text) : ∀ piece ∈ t.splitOn cut, ∀ u ∈ piece, cut u = false := by
  induction t with
  | nil => simp [splitOn]
  | cons u t ih =>
    intro piece hpiece v hv
    rw [splitOn] at hpiece
    split at hpiece
    · rcases List.mem_cons.mp hpiece with rfl | hpiece
      · cases hv
      · exact ih piece hpiece v hv
    · rename_i hu
      split at hpiece
      · obtain rfl := List.mem_singleton.mp hpiece
        obtain rfl := List.mem_singleton.mp hv
        exact Bool.eq_false_iff.mpr hu
      · rename_i first pieces hsplit
        rw [hsplit] at ih
        rcases List.mem_cons.mp hpiece with rfl | hpiece
        · rcases List.mem_cons.mp hv with rfl | hv
          · exact Bool.eq_false_iff.mpr hu
          · exact ih first List.mem_cons_self v hv
        · exact ih piece (List.mem_cons_of_mem first hpiece) v hv

theorem splitOn_append_cons {part : Text} (hpart : ∀ u ∈ part, cut u = false) {u : TextUnit}
    (hu : cut u = true) (rest : Text) :
    (part ++ u :: rest).splitOn cut = part :: rest.splitOn cut := by
  induction part with
  | nil => rw [List.nil_append, splitOn, if_pos hu]
  | cons v part ih =>
    have hv : cut v = false := hpart v List.mem_cons_self
    have hrest := ih fun w hw => hpart w (List.mem_cons_of_mem v hw)
    rw [List.cons_append, splitOn, hv, if_neg Bool.false_ne_true, hrest]

/-- Pieces that were put together come apart again. -/
theorem splitOn_join {u : TextUnit} (hu : cut u = true) {parts : List Text} (hne : parts ≠ [])
    (hparts : ∀ part ∈ parts, ∀ v ∈ part, cut v = false) :
    (join [u] parts).splitOn cut = parts := by
  induction parts with
  | nil => exact absurd rfl hne
  | cons first rest ih =>
    have hfirst := hparts first List.mem_cons_self
    cases rest with
    | nil =>
      rw [join, List.intercalate_singleton, splitOn_of_forall hfirst]
    | cons second rest =>
      rw [join_cons_cons, List.append_assoc, List.singleton_append, splitOn_append_cons hfirst hu,
        ih (List.cons_ne_nil second rest) fun part hpart =>
          hparts part (List.mem_cons_of_mem first hpart)]

end Text

/-! ## Normal paths -/

namespace Path

/-- The components of the path are those of a text. -/
structure IsNormal (p : Path) : Prop where
  ne_nil : ∀ part ∈ p.parts, part ≠ []
  ne_dot : ∀ part ∈ p.parts, part ≠ "."
  slash_notMem : ∀ part ∈ p.parts, .scalar '/' ∉ part

/-- A path that is read from a text is normal. -/
theorem isNormal_ofText (t : Text) : (ofText t).IsNormal := by
  have hpart : ∀ part ∈ (ofText t).parts,
      part ∈ t.splitOn isSlash ∧ part ≠ [] ∧ part ≠ Text.ofString "." := by
    intro part hpart
    rw [ofText, components, List.mem_filter] at hpart
    simpa using hpart
  constructor
  · intro part hmem
    exact (hpart part hmem).2.1
  · intro part hmem
    exact (hpart part hmem).2.2
  · intro part hmem hslash
    have := Text.forall_mem_splitOn t part (hpart part hmem).1 _ hslash
    simp [isSlash] at this

variable {p : Path}

theorem IsNormal.isSlash_eq_false (h : p.IsNormal) :
    ∀ part ∈ p.parts, ∀ u ∈ part, isSlash u = false := by
  intro part hpart u hu
  rw [isSlash, beq_eq_false_iff_ne]
  rintro rfl
  exact h.slash_notMem part hpart hu

/-- The components of a normal path are read from its text. -/
theorem IsNormal.components_join (h : p.IsNormal) :
    components (.scalar '/' :: Text.join "/" p.parts) = p.parts := by
  have hkept : ∀ part ∈ p.parts, (!part.isEmpty && part != Text.ofString ".") = true := by
    intro part hpart
    simp [h.ne_nil part hpart, h.ne_dot part hpart]
  have hslash : isSlash (.scalar '/') = true := rfl
  rw [components, Text.splitOn, if_pos hslash, List.filter_cons_of_neg (by simp)]
  by_cases hparts : p.parts = []
  · rw [hparts]
    rfl
  · have hsplit : (Text.join "/" p.parts).splitOn isSlash = p.parts :=
      Text.splitOn_join hslash hparts h.isSlash_eq_false
    rw [hsplit, List.filter_eq_self.mpr hkept]

/-- No second slash stands behind the first one. -/
theorem IsNormal.head?_join_ne (h : p.IsNormal) :
    (Text.join "/" p.parts).head? ≠ some (.scalar '/') := by
  cases hparts : p.parts with
  | nil => simp [Text.join, List.intercalate]
  | cons first rest =>
    have hmem : first ∈ p.parts := hparts ▸ List.mem_cons_self
    have hhead : (Text.join "/" (first :: rest)).head? = first.head? := by
      cases rest with
      | nil => rw [Text.join, List.intercalate_singleton]
      | cons second rest =>
        rw [Text.join_cons_cons, List.append_assoc, List.head?_append_of_ne_nil _ (h.ne_nil _ hmem)]
    rw [hhead]
    intro hslash
    exact h.slash_notMem first hmem (List.mem_of_head? hslash)

theorem text_of_root (h : p.anchor = .root) : p.text = .scalar '/' :: Text.join "/" p.parts := by
  unfold text
  split
  · rename_i hanchor _
    rw [h] at hanchor
    cases hanchor
  · rw [h]
    rfl

/-- A normal path behind one slash is read from its text. -/
theorem ofText_text (h : p.IsNormal) (hroot : p.anchor = .root) : ofText p.text = p := by
  have hanchor : anchorOf p.text = .root := by
    rw [text_of_root hroot, anchorOf, List.takeWhile_cons_of_pos rfl]
    have hnone : (Text.join "/" p.parts).takeWhile isSlash = [] := by
      cases htext : Text.join "/" p.parts with
      | nil => rfl
      | cons u rest =>
        have hhead := h.head?_join_ne
        rw [htext, List.head?_cons, ne_eq, Option.some.injEq] at hhead
        exact List.takeWhile_cons_of_neg (by simpa [isSlash] using hhead)
    rw [hnone]
    rfl
  rw [ofText, hanchor, text_of_root hroot, h.components_join, ← hroot]

end Path

/-! ## URIs -/

namespace FileUri

/-- A path behind one slash that is made of characters and does not start with a drive letter. -/
structure Addressable (p : Path) : Prop where
  normal : p.IsNormal
  root : p.anchor = .root
  characters : ∃ cs, p.text = Text.ofChars cs
  no_drive : isDrivePath p.text = false

theorem escape_ofChars (cs : List Char) :
    escape (Text.ofChars cs) = .ok ((Utf8.encodeChars cs).flatMap escapeByte) := by
  rw [escape, Utf8.encode, Text.chars?_ofChars]

variable {p : Path}

theorem Addressable.splitHost_text (h : Addressable p) : splitHost p.text = .ok ([], p.text) := by
  rw [Path.text_of_root h.root]
  unfold splitHost
  split
  · rename_i rest htext
    have hhead := h.normal.head?_join_ne
    rw [(List.cons.inj htext).2] at hhead
    exact absurd rfl hhead
  · rfl

theorem Addressable.slashed_text (h : Addressable p) : slashed p.text = p.text := by
  rw [Path.text_of_root h.root]
  rfl

/-- An addressable path has a URI. -/
theorem exists_ofPath (h : Addressable p) : ∃ uri, ofPath p = .ok uri := by
  obtain ⟨cs, hcs⟩ := h.characters
  have hwritten : writtenPath (slashed p.text)
      = .ok ((Utf8.encodeChars cs).flatMap escapeByte) := by
    rw [h.slashed_text, writtenPath, h.no_drive, if_neg Bool.false_ne_true, hcs, escape_ofChars]
  have hhost : escape [] = .ok [] := escape_ofChars []
  refine ⟨("file://" : Text) ++ [] ++ (Utf8.encodeChars cs).flatMap escapeByte, ?_⟩
  rw [ofPath_eq, h.splitHost_text]
  change (writtenPath (slashed p.text) >>= fun written => escape [] >>= fun host =>
    pure (("file://" : Text) ++ host ++ written)) = _
  rw [hwritten, hhost]
  rfl

/-- The URI of an addressable path leads back to it. -/
theorem toPath?_of_ofPath (h : Addressable p) {uri : Text} (huri : ofPath p = .ok uri) :
    toPath? uri = .ok (some p) := by
  obtain ⟨host, path, hsplit, hread⟩ := pathText_of_ofPath huri
  obtain ⟨rfl, rfl⟩ : [] = host ∧ p.text = path := by
    rw [h.splitHost_text] at hsplit
    exact Prod.mk.inj (Except.ok.inj hsplit)
  have hback : readBack [] p.text = p.text := by
    rw [readBack, h.no_drive]
    rfl
  have hne : p.text.isEmpty = false := by
    rw [Path.text_of_root h.root]
    rfl
  rw [h.slashed_text, hback] at hread
  rw [toPath?, if_pos (List.isPrefixOf_iff_prefix.mpr (hasScheme_of_ofPath huri)), hread]
  change Except.ok (if p.text.isEmpty then none else some (Path.ofText p.text)) = _
  rw [hne, if_neg Bool.false_ne_true, Path.ofText_text h.normal h.root]

/-- **Paths survive in their URIs.** An addressable path has a URI, which leads back to it, and no
other addressable path has the same URI. -/
theorem uri_leads_back (h : Addressable p) :
    ∃ uri, ofPath p = .ok uri ∧ toPath? uri = .ok (some p) ∧
      ∀ q, Addressable q → ofPath q = ofPath p → q = p := by
  obtain ⟨uri, huri⟩ := exists_ofPath h
  have hback := toPath?_of_ofPath h huri
  refine ⟨uri, huri, hback, ?_⟩
  intro q hq hsame
  have hback' := toPath?_of_ofPath hq (hsame.trans huri)
  rw [hback] at hback'
  exact (Option.some.inj (Except.ok.inj hback')).symm

/-- Spaces, escapes, delimiters of URIs, brackets and characters outside of ASCII. -/
theorem uri_leads_back_delimiters :
    ∃ p, p = Path.ofText "/srv/a b%41#?;[é]/c:/😀.vue" ∧ Addressable p ∧
      ∃ uri, ofPath p = .ok uri ∧ toPath? uri = .ok (some p) ∧
        ∀ q, Addressable q → ofPath q = ofPath p → q = p := by
  refine ⟨_, rfl, ?_⟩
  have haddressable : Addressable (Path.ofText "/srv/a b%41#?;[é]/c:/😀.vue") := by
    constructor
    · exact Path.isNormal_ofText _
    · decide +kernel
    · refine ⟨"/srv/a b%41#?;[é]/c:/😀.vue".toList, ?_⟩
      decide +kernel
    · decide +kernel
  exact ⟨haddressable, uri_leads_back haddressable⟩

end FileUri

end SfcProxy
