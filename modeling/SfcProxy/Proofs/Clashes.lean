import SfcProxy.Proofs.Rediscovery

/-!
# Clashes

Two components share a generated file only if their paths are the same but for case. The ending of
a component's name is replaced before the name is lower-cased, and that might merge two names, or
keep two apart that are the same in lower case: a capital sigma takes its form from what stands
behind it. But both endings are a dot, which is passed over, and then a letter, so what stands in
front of them comes out the same.

## Main results

* `Text.lowerAfter_append_congr`: what stands in front of two endings
* `GeneratedFile.exists_stem`: a component's name and that of its generated file in lower case
* `GeneratedFile.nameOf_eq_iff`: components whose generated files have the same name
* `GeneratedFile.generated_eq_iff`: components that share a generated file
-/

namespace SfcProxy

namespace Text

/-! ## What stands in front of an ending -/

theorem nextIsCased_cons (u : TextUnit) (t : Text) :
    nextIsCased (u :: t)
      = if caseIgnorable.has u.codePoint then nextIsCased t else cased.has u.codePoint := by
  by_cases hu : caseIgnorable.has u.codePoint = true
  · rw [if_pos hu, nextIsCased, List.dropWhile_cons, if_pos hu, nextIsCased]
  · rw [if_neg hu, nextIsCased, List.dropWhile_cons, if_neg hu]

theorem nextIsCased_append_congr {back back' : Text}
    (h : nextIsCased back = nextIsCased back') (front : Text) :
    nextIsCased (front ++ back) = nextIsCased (front ++ back') := by
  induction front with
  | nil => exact h
  | cons u front ih =>
    rw [List.cons_append, List.cons_append, nextIsCased_cons, nextIsCased_cons, ih]

/-- Two endings that go on alike leave the same of what stands in front of them. -/
theorem lowerAfter_append_congr {back back' : Text} (h : nextIsCased back = nextIsCased back')
    (before front : Text) : ∃ lowered,
      lowerAfter before (front ++ back) = lowered ++ lowerAfter (front.reverse ++ before) back ∧
      lowerAfter before (front ++ back')
        = lowered ++ lowerAfter (front.reverse ++ before) back' := by
  induction front generalizing before with
  | nil => exact ⟨[], rfl, rfl⟩
  | cons u front ih =>
    obtain ⟨lowered, hback, hback'⟩ := ih (u :: before)
    have hu : lowerBetween before u (front ++ back) = lowerBetween before u (front ++ back') := by
      rw [lowerBetween, nextIsCased_append_congr h, lowerBetween]
    refine ⟨lowerBetween before u (front ++ back) ++ lowered, ?_, ?_⟩
    · rw [List.cons_append, lowerAfter_cons, hback, List.reverse_cons, List.append_assoc,
        List.append_assoc, List.singleton_append]
    · rw [List.cons_append, lowerAfter_cons, hback', hu, List.reverse_cons, List.append_assoc,
        List.append_assoc, List.singleton_append]

/-! ## Endings unit by unit -/

/-- A steady ending has as many units as what it is the lower-case form of. -/
theorem flatMap_lower_eq_map {back ending : Text} (h : back.flatMap TextUnit.lower = ending)
    (hending : ∀ v ∈ ending, v ∉ unsteady) :
    back.map (fun u => TextUnit.ofCodePoint (lowerCodePoint u.codePoint)) = ending := by
  have hone : ∀ u ∈ back, u.lower = [TextUnit.ofCodePoint (lowerCodePoint u.codePoint)] := by
    intro u hu
    rw [TextUnit.lower, if_neg]
    intro hdotted
    have hmem : TextUnit.scalar (Char.ofNat 0x307) ∈ ending := by
      rw [← h]
      exact List.mem_flatMap.mpr ⟨u, hu, by simp [TextUnit.lower, hdotted]⟩
    exact hending _ hmem (by simp [unsteady])
  rw [← h, List.flatMap_congr hone, List.map_eq_flatMap]

/-- A dot is the lower-case form of itself alone, and a small v of the two cases of that letter. -/
theorem lowerCodePoint_eq_cases {n c : Nat} (hc : c = 0x2E ∨ c = 0x76)
    (h : lowerCodePoint n = c) : n = c ∨ 0x61 ≤ c ∧ n + 32 = c := by
  have hruns : ∀ run ∈ lowerRuns, 0x61 ≤ run.image ∧ (run.image ≤ 0x76 →
      0x76 ≤ run.image + (run.last - run.first) → run.first + 32 = run.image) := by
    decide +kernel
  unfold lowerCodePoint CaseRun.map at h
  split at h
  · rename_i run hrun
    have hbounds := List.find?_some hrun
    simp only [Bool.and_eq_true, decide_eq_true_eq] at hbounds
    obtain ⟨hcapitals, hletters⟩ := hruns run (List.mem_of_find?_eq_some hrun)
    have := hletters (by omega) (by omega)
    exact .inr (by omega)
  · exact .inl h

end Text

namespace Path

theorem below_below (p : Path) (names names' : List Text) :
    (p.below names).below names' = p.below (names ++ names') := by
  rw [below, below, below, List.append_assoc]

/-- A path is its parent and, behind that, its name. -/
theorem below_parent_name {p : Path} (h : p.parts ≠ []) : p.parent.below [p.name] = p := by
  rw [below, parent, name, List.getLastD_eq_getLast?, List.getLast?_eq_some_getLast h,
    Option.getD_some, List.dropLast_append_getLast h]

end Path

namespace GeneratedFile

variable {settings : Settings}

/-! ## Names -/

/-- What stands in front of the ending of a component, and that ending. -/
theorem exists_ending {name : Text} (h : isComponentName name = true) :
    ∃ stem ending, name = stem ++ ending ∧ ending.length = componentSuffix.length ∧
      ending.flatMap TextUnit.lower = componentSuffix ∧ Text.nextIsCased ending = true := by
  obtain ⟨ending, ⟨stem, rfl⟩, hlower⟩ :=
    (Text.suffix_lower_iff steady_componentSuffix).mp (List.isSuffixOf_iff_suffix.mp h)
  have hmap := Text.flatMap_lower_eq_map hlower steady_componentSuffix
  refine ⟨stem, ending, rfl, by rw [← hmap, List.length_map], hlower, ?_⟩
  obtain ⟨dot, letters, rfl, hdot, hletters⟩ := List.map_eq_cons_iff.mp hmap
  obtain ⟨v, rest, rfl, hv, -⟩ := List.map_eq_cons_iff.mp hletters
  have hcode : ∀ {u : TextUnit} {c : Char},
      TextUnit.ofCodePoint (lowerCodePoint u.codePoint) = .scalar c →
        lowerCodePoint u.codePoint = c.toNat := by
    intro u c hu
    rw [← codePoint_lower, hu, TextUnit.codePoint]
  rcases Text.lowerCodePoint_eq_cases (.inl rfl) (hcode hdot) with hdot | ⟨hletter, -⟩
  · rw [Text.nextIsCased_cons, hdot, if_pos (by decide +kernel), Text.nextIsCased_cons]
    rcases Text.lowerCodePoint_eq_cases (.inr rfl) (hcode hv) with hv | ⟨-, hv⟩
    · rw [hv, if_neg (by decide +kernel)]
      decide +kernel
    · rw [show v.codePoint = 0x56 from Nat.add_right_cancel hv, if_neg (by decide +kernel)]
      decide +kernel
  · exact absurd hletter (by decide)

/-- A component's name and that of its generated file differ in their endings alone, once both are
in lower case. -/
theorem exists_stem {name : Text} (h : isComponentName name = true) :
    ∃ stem, name.lower = stem ++ componentSuffix ∧ nameOf name = stem ++ generatedSuffix := by
  obtain ⟨front, ending, rfl, hlength, hlower, hcased⟩ := exists_ending h
  have hgenerated : Text.nextIsCased generatedSuffix = true := by
    decide +kernel
  obtain ⟨stem, hcomponent, hfile⟩ :=
    Text.lowerAfter_append_congr (hcased.trans hgenerated.symm) [] front
  have hplain : ∀ {before back suffix : Text}, back.flatMap TextUnit.lower = suffix →
      (∀ v ∈ suffix, v ∉ Text.unsteady) → Text.lowerAfter before back = suffix := by
    rintro before back _ rfl hsteady
    exact Text.lowerAfter_eq_flatMap fun u hu => Text.not_isSigma_of_lower fun v hv =>
      hsteady v (List.mem_flatMap.mpr ⟨u, hu, hv⟩)
  rw [hplain hlower steady_componentSuffix] at hcomponent
  rw [hplain flatMap_lower_generatedSuffix steady_generatedSuffix] at hfile
  refine ⟨stem, hcomponent, ?_⟩
  rw [nameOf, if_pos h, ← hlength, List.length_append, Nat.add_sub_cancel, List.take_left, ← hfile,
    Text.lower]

/-- The generated files of two components have the same name exactly if the names of the components
are the same but for case. -/
theorem nameOf_eq_iff {name name' : Text} (h : isComponentName name = true)
    (h' : isComponentName name' = true) :
    nameOf name = nameOf name' ↔ name.lower = name'.lower := by
  obtain ⟨stem, hlower, hname⟩ := exists_stem h
  obtain ⟨stem', hlower', hname'⟩ := exists_stem h'
  rw [hlower, hlower', hname, hname', List.append_left_inj, List.append_left_inj]

/-! ## Paths -/

/-- Where a component with a generated file lies, and where that file does. -/
theorem exists_below_of_ofComponent? {path generated : Path}
    (hname : isComponentName path.name = true)
    (h : ofComponent? settings path = some generated) : ∃ dirs,
      path.relativeTo? settings.sourcePath = some (dirs ++ [path.name]) ∧
        generated = settings.generatedPath.below (dirs.map Text.lower ++ [nameOf path.name]) := by
  have hparts : path.parts ≠ [] := by
    intro hnil
    rw [Path.name, hnil] at hname
    exact absurd hname (by decide)
  obtain ⟨dirs, hdirs, -, rfl⟩ := ofComponent?_eq_some h
  refine ⟨dirs, ?_, by rw [Path.below, List.append_assoc]⟩
  rw [Path.relativeTo?_eq_some_iff] at hdirs ⊢
  rw [← Path.below_below, ← hdirs, Path.below_parent_name hparts]

/-- **Components share a generated file only if they clash on case**: their paths below the source
directory are the same in lower case. -/
theorem generated_eq_iff {path path' generated generated' : Path}
    (hname : isComponentName path.name = true) (hname' : isComponentName path'.name = true)
    (h : ofComponent? settings path = some generated)
    (h' : ofComponent? settings path' = some generated') :
    ∃ names names', path.relativeTo? settings.sourcePath = some names ∧
      path'.relativeTo? settings.sourcePath = some names' ∧
        (generated = generated' ↔ names.map Text.lower = names'.map Text.lower) := by
  obtain ⟨dirs, hbelow, rfl⟩ := exists_below_of_ofComponent? hname h
  obtain ⟨dirs', hbelow', rfl⟩ := exists_below_of_ofComponent? hname' h'
  refine ⟨_, _, hbelow, hbelow', ?_⟩
  rw [Path.below_inj, List.map_append, List.map_append, List.map_singleton, List.map_singleton]
  simp only [← List.concat_eq_append, List.concat_inj, nameOf_eq_iff hname hname']

/-- Two spellings of a name whose last letter is a sigma. -/
theorem generated_eq_iff_sigma :
    let path : Path := ⟨.root, ["src", "Forms", "ΟΔΟΣ.vue"]⟩
    let path' : Path := ⟨.root, ["src", "forms", "οδοσ.VUE"]⟩
    let generated : Path := ⟨.root, ["src", "gen", "forms", "οδοσ.gleam"]⟩
    (isComponentName path.name = true ∧ isComponentName path'.name = true ∧
      ofComponent? atRoot path = some generated ∧ ofComponent? atRoot path' = some generated) ∧
      ∃ names names', path.relativeTo? atRoot.sourcePath = some names ∧
        path'.relativeTo? atRoot.sourcePath = some names' ∧
          (generated = generated ↔ names.map Text.lower = names'.map Text.lower) := by
  intro path path' generated
  have hall : isComponentName path.name = true ∧ isComponentName path'.name = true ∧
      ofComponent? atRoot path = some generated ∧ ofComponent? atRoot path' = some generated := by
    decide +kernel
  obtain ⟨hname, hname', h, h'⟩ := hall
  exact ⟨⟨hname, hname', h, h'⟩, generated_eq_iff hname hname' h h'⟩

end GeneratedFile

end SfcProxy
