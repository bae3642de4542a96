import SfcProxy.Proofs.Session.Passage

/-!
# Relocation as a list of lookups

A walk that puts component URIs in place of generated ones asks for one URI after the other. So it
is known by what is asked for: the texts of the value that are URIs, in order. Putting the answers
in their places gives the value with every entry of it still there. What a walk comes to differs
from that in one way. Entries whose names come to be the same become one, with the value of the
last of them in the place of the first.

## Main definitions

* `Json.withUris`: a value with other texts in the places of its URIs
* `Json.lastWins`, `Json.merged`: entries of one name as one entry
* `UriMap.componentOr`, `UriMap.componentsOr`: the component of a URI, or else the URI itself
* `Session.lookups`: the URIs that a message is asked for
* `Session.resolved`: what a message is about, with the component of each URI in its place

## Main results

* `Json.uris_withUris`: what is put in the places of URIs is found there
* `Json.merged_cases`, `Json.merged_eq_self_iff`: merging loses something exactly if two entries
  have one name
* `Session.relocate_eq`: a walk is a list of lookups
* `Session.outgoing_merged`: what a message of the server comes to
-/

namespace SfcProxy

/-! ## The places of URIs -/

namespace Json

open Session (isUriField isUriKeyed)

mutual

/-- A value with the texts of a list in the places of its URIs, in order. -/
def withUris (found : List Text) : Json → Json
  | .arr items => .arr (withUrisItems found items)
  | .obj members => .obj (withUrisMembers found members)
  | v => v

/-- The items of an array with other URIs. -/
def withUrisItems (found : List Text) : List Json → List Json
  | [] => []
  | v :: rest =>
    withUris (found.take v.uris.length) v :: withUrisItems (found.drop v.uris.length) rest

/-- The value of a member with other URIs. -/
def withUrisMember (found : List Text) (name : Text) : Json → Json
  | .str uri => if isUriField name then .str (found.headD uri) else .str uri
  | .obj members =>
    if isUriKeyed name then .obj (withUrisKeyed found members)
    else .obj (withUrisMembers found members)
  | .arr items => .arr (withUrisItems found items)
  | v => v

/-- The members of an object with other URIs. -/
def withUrisMembers (found : List Text) : List (Text × Json) → List (Text × Json)
  | [] => []
  | (name, v) :: rest =>
    (name, withUrisMember (found.take (v.urisMember name).length) name v)
      :: withUrisMembers (found.drop (v.urisMember name).length) rest

/-- Members that are named by URIs, with other names and with other URIs in them. -/
def withUrisKeyed (found : List Text) : List (Text × Json) → List (Text × Json)
  | [] => []
  | (uri, v) :: rest =>
    (found.headD uri, withUris (found.tail.take v.uris.length) v)
      :: withUrisKeyed (found.tail.drop v.uris.length) rest

end

/-- A list that fits two lists in a row fits each of them with its part. -/
theorem length_parts {α : Type} {found : List α} {m n : Nat} (h : found.length = m + n) :
    (found.take m).length = m ∧ (found.drop m).length = n := by
  rw [List.length_take, List.length_drop]
  omega

mutual

/-- What is put in the places of URIs is found there. -/
theorem uris_withUris : ∀ (v : Json) (found : List Text), found.length = v.uris.length →
    (v.withUris found).uris = found
  | .arr items, found, h => by
    rw [withUris, uris, urisItems_withUris items found h]
  | .obj members, found, h => by
    rw [withUris, uris, urisMembers_withUris members found h]
  | .null, _, h | .bool _, _, h | .int _, _, h | .real _, _, h | .str _, _, h => by
    rw [List.length_eq_zero_iff.mp h]
    simp [withUris, uris]

theorem urisItems_withUris : ∀ (items : List Json) (found : List Text),
    found.length = (urisItems items).length → urisItems (withUrisItems found items) = found
  | [], found, h => (List.length_eq_zero_iff.mp h).symm
  | v :: rest, found, h => by
    rw [urisItems, List.length_append] at h
    obtain ⟨hfirst, hrest⟩ := length_parts h
    rw [withUrisItems, urisItems, uris_withUris v _ hfirst, urisItems_withUris rest _ hrest,
      List.take_append_drop]

theorem urisMember_withUris (name : Text) : ∀ (v : Json) (found : List Text),
    found.length = (v.urisMember name).length →
    (withUrisMember found name v).urisMember name = found
  | .str uri, found, h => by
    rw [urisMember] at h
    rw [withUrisMember]
    split at h
    · rename_i hfield
      obtain ⟨other, rfl⟩ := List.length_eq_one_iff.mp h
      rw [if_pos hfield, urisMember, if_pos hfield, List.headD_cons]
    · rename_i hfield
      rw [if_neg hfield, urisMember, if_neg hfield, List.length_eq_zero_iff.mp h]
  | .obj members, found, h => by
    rw [urisMember] at h
    rw [withUrisMember]
    split at h
    · rename_i hname
      rw [if_pos hname, urisMember, if_pos hname, urisKeyed_withUris members found h]
    · rename_i hname
      rw [if_neg hname, urisMember, if_neg hname, urisMembers_withUris members found h]
  | .arr items, found, h => by
    rw [withUrisMember, urisMember, urisItems_withUris items found h]
  | .null, _, h | .bool _, _, h | .int _, _, h | .real _, _, h => by
    rw [List.length_eq_zero_iff.mp h]
    simp [withUrisMember, urisMember]

theorem urisMembers_withUris : ∀ (members : Members) (found : List Text),
    found.length = (urisMembers members).length →
    urisMembers (withUrisMembers found members) = found
  | [], found, h => (List.length_eq_zero_iff.mp h).symm
  | (name, v) :: rest, found, h => by
    rw [urisMembers, List.length_append] at h
    obtain ⟨hfirst, hrest⟩ := length_parts h
    rw [withUrisMembers, urisMembers, urisMember_withUris name v _ hfirst,
      urisMembers_withUris rest _ hrest, List.take_append_drop]

theorem urisKeyed_withUris : ∀ (members : Members) (found : List Text),
    found.length = (urisKeyed members).length → urisKeyed (withUrisKeyed found members) = found
  | [], found, h => (List.length_eq_zero_iff.mp h).symm
  | (uri, v) :: rest, [], h => by cases h
  | (uri, v) :: rest, other :: found, h => by
    rw [urisKeyed, List.length_cons, List.length_cons, Nat.add_right_cancel_iff,
      List.length_append] at h
    obtain ⟨hfirst, hrest⟩ := length_parts h
    rw [withUrisKeyed, urisKeyed, List.headD_cons, List.tail_cons, uris_withUris v _ hfirst,
      urisKeyed_withUris rest _ hrest, List.take_append_drop]

end

/-! ## Entries of one name -/

/-- Members set one after the other; `done` holds those before them. -/
def setAll (done : Members) : Members → Members
  | [] => done
  | (name, v) :: rest => setAll (set name v done) rest

/-- Members of one name as one member, with the value of the last of them in the place of the
first. -/
def lastWins (members : Members) : Members :=
  setAll [] members

mutual

/-- A value in which members that are named by URIs are one if they have one name. -/
def merged : Json → Json
  | .arr items => .arr (mergedItems items)
  | .obj members => .obj (mergedMembers members)
  | v => v

/-- The items of an array, merged each for itself. -/
def mergedItems : List Json → List Json
  | [] => []
  | v :: rest => merged v :: mergedItems rest

/-- The value of a member, merged. -/
def mergedMember (name : Text) : Json → Json
  | .obj members =>
    if isUriKeyed name then .obj (lastWins (mergedValues members))
    else .obj (mergedMembers members)
  | .arr items => .arr (mergedItems items)
  | v => v

/-- The members of an object, merged each for itself. -/
def mergedMembers : List (Text × Json) → List (Text × Json)
  | [] => []
  | (name, v) :: rest => (name, mergedMember name v) :: mergedMembers rest

/-- Members that are named by URIs, merged each for itself. -/
def mergedValues : List (Text × Json) → List (Text × Json)
  | [] => []
  | (uri, v) :: rest => (uri, merged v) :: mergedValues rest

end

theorem keys_mergedValues (members : Members) :
    (mergedValues members).map (·.1) = members.map (·.1) := by
  induction members with
  | nil => rfl
  | cons entry rest ih => rw [mergedValues, List.map_cons, List.map_cons, ih]

/-- Where a member takes the place of another, it brings its URIs but not its name. -/
theorem length_urisKeyed_set_of_mem {name : Text} {members : Members}
    (h : name ∈ members.map (·.1)) (v : Json) :
    (urisKeyed (set name v members)).length ≤ (urisKeyed members).length + v.uris.length := by
  induction members with
  | nil => cases h
  | cons entry rest ih =>
    obtain ⟨key, old⟩ := entry
    rw [set]
    by_cases hkey : key = name
    · rw [if_pos hkey, urisKeyed, urisKeyed, List.length_cons, List.length_cons,
        List.length_append, List.length_append]
      omega
    · have hrest : name ∈ rest.map (·.1) :=
        (List.mem_cons.mp h).resolve_left fun heq => hkey heq.symm
      have := ih hrest
      rw [if_neg hkey, urisKeyed, urisKeyed, List.length_cons, List.length_cons,
        List.length_append, List.length_append]
      omega

theorem urisKeyed_append (front back : Members) :
    urisKeyed (front ++ back) = urisKeyed front ++ urisKeyed back := by
  induction front with
  | nil => rfl
  | cons entry rest ih =>
    rw [List.cons_append, urisKeyed, ih, urisKeyed, List.cons_append, List.append_assoc]

/-- Members are set one after the other as they are if their names are new and distinct. Else URIs
get lost. -/
theorem setAll_cases (members done : Members) (hdone : (done.map (·.1)).Nodup) :
    ((done ++ members).map (·.1)).Nodup ∧ setAll done members = done ++ members ∨
      ¬ ((done ++ members).map (·.1)).Nodup ∧ (urisKeyed (setAll done members)).length
        < (urisKeyed done).length + (urisKeyed members).length := by
  induction members generalizing done with
  | nil => exact .inl ⟨by rwa [List.append_nil], (List.append_nil done).symm⟩
  | cons entry rest ih =>
    obtain ⟨name, v⟩ := entry
    have hset := nodup_keys_set hdone name v
    rw [setAll, urisKeyed, List.length_cons, List.length_append]
    by_cases hmem : name ∈ done.map (·.1)
    · right
      constructor
      · rw [List.map_append, List.nodup_append]
        rintro ⟨-, -, hdisjoint⟩
        exact hdisjoint name hmem name List.mem_cons_self rfl
      · have hfewer := length_urisKeyed_set_of_mem hmem v
        rcases ih _ hset with ⟨-, heq⟩ | ⟨-, hlt⟩
        · rw [heq, urisKeyed_append, List.length_append]
          omega
        · omega
    · have hnew := set_of_notMem hmem v
      have hlength : (urisKeyed (set name v done)).length
          = (urisKeyed done).length + (v.uris.length + 1) := by
        rw [hnew, urisKeyed_append, List.length_append]
        simp [urisKeyed]
      have happend : set name v done ++ rest = done ++ (name, v) :: rest := by
        rw [hnew, List.append_assoc, List.singleton_append]
      rcases ih _ hset with ⟨hnodup, heq⟩ | ⟨hdup, hlt⟩
      · left
        rw [happend] at hnodup heq
        exact ⟨hnodup, heq⟩
      · right
        rw [happend] at hdup
        exact ⟨hdup, by omega⟩

theorem lastWins_cases (members : Members) :
    (members.map (·.1)).Nodup ∧ lastWins members = members ∨
      ¬ (members.map (·.1)).Nodup ∧
        (urisKeyed (lastWins members)).length < (urisKeyed members).length := by
  have h := setAll_cases members [] List.nodup_nil
  rwa [List.nil_append, urisKeyed, List.length_nil, Nat.zero_add] at h

/-- What two parts come to, each of which stays the same or loses something. -/
theorem parts_cases {P Q : Prop} {α β : Type} {a a' : α} {b b' : β} {f : α → Nat} {g : β → Nat}
    (first : P ∧ a' = a ∨ ¬ P ∧ f a' < f a) (second : Q ∧ b' = b ∨ ¬ Q ∧ g b' < g b) :
    (P ∧ Q) ∧ a' = a ∧ b' = b ∨ ¬ (P ∧ Q) ∧ f a' + g b' < f a + g b := by
  rcases first with ⟨hP, rfl⟩ | ⟨hP, hlt⟩
  · rcases second with ⟨hQ, rfl⟩ | ⟨hQ, hlt⟩
    · exact .inl ⟨⟨hP, hQ⟩, rfl, rfl⟩
    · exact .inr ⟨fun h => hQ h.2, by omega⟩
  · refine .inr ⟨fun h => hP h.1, ?_⟩
    rcases second with ⟨-, rfl⟩ | ⟨-, hlt'⟩
    · omega
    · omega

mutual

/-- A merge leaves a value as it is if members that are named by URIs have distinct names. Else it
takes URIs away. -/
theorem merged_cases : ∀ v : Json,
    v.Keyed ∧ v.merged = v ∨ ¬ v.Keyed ∧ v.merged.uris.length < v.uris.length
  | .arr items => by
    rw [Keyed, merged, arr.injEq, uris, uris]
    exact mergedItems_cases items
  | .obj members => by
    rw [Keyed, merged, obj.injEq, uris, uris]
    exact mergedMembers_cases members
  | .null | .bool _ | .int _ | .real _ | .str _ => .inl ⟨trivial, by simp [merged]⟩

theorem mergedItems_cases : ∀ items : List Json,
    KeyedItems items ∧ mergedItems items = items ∨
      ¬ KeyedItems items ∧ (urisItems (mergedItems items)).length < (urisItems items).length
  | [] => .inl ⟨trivial, rfl⟩
  | v :: rest => by
    rw [KeyedItems, mergedItems, List.cons.injEq, urisItems, urisItems, List.length_append,
      List.length_append]
    exact parts_cases (f := fun v => (uris v).length) (g := fun items => (urisItems items).length)
      (merged_cases v) (mergedItems_cases rest)

theorem mergedMember_cases (name : Text) : ∀ v : Json,
    v.KeyedMember name ∧ v.mergedMember name = v ∨ ¬ v.KeyedMember name ∧
      ((v.mergedMember name).urisMember name).length < (v.urisMember name).length
  | .arr items => by
    rw [KeyedMember, mergedMember, arr.injEq, urisMember, urisMember]
    exact mergedItems_cases items
  | .obj members => by
    rw [KeyedMember, mergedMember]
    split
    · rename_i hname
      rw [obj.injEq, urisMember, if_pos hname, urisMember, if_pos hname]
      have hnames := lastWins_cases (mergedValues members)
      rw [keys_mergedValues] at hnames
      rcases mergedValues_cases members with ⟨hvalues, heq⟩ | ⟨hvalues, hlt⟩
      · rw [heq] at hnames ⊢
        rcases hnames with ⟨hnodup, hsame⟩ | ⟨hdup, hlt⟩
        · exact .inl ⟨⟨hnodup, hvalues⟩, hsame⟩
        · exact .inr ⟨fun h => hdup h.1, hlt⟩
      · refine .inr ⟨fun h => hvalues h.2, ?_⟩
        rcases hnames with ⟨-, hsame⟩ | ⟨-, hless⟩
        · rwa [hsame]
        · exact hless.trans hlt
    · rename_i hname
      rw [obj.injEq, urisMember, if_neg hname, urisMember, if_neg hname]
      exact mergedMembers_cases members
  | .null | .bool _ | .int _ | .real _ | .str _ => .inl ⟨trivial, by simp [mergedMember]⟩

theorem mergedMembers_cases : ∀ members : Members,
    KeyedMembers members ∧ mergedMembers members = members ∨ ¬ KeyedMembers members ∧
      (urisMembers (mergedMembers members)).length < (urisMembers members).length
  | [] => .inl ⟨trivial, rfl⟩
  | (name, v) :: rest => by
    rw [KeyedMembers, mergedMembers, List.cons.injEq, Prod.mk.injEq, eq_self, true_and, urisMembers,
      urisMembers, List.length_append, List.length_append]
    exact parts_cases (f := fun v => (urisMember name v).length)
      (g := fun members => (urisMembers members).length) (mergedMember_cases name v)
      (mergedMembers_cases rest)

theorem mergedValues_cases : ∀ members : Members,
    KeyedValues members ∧ mergedValues members = members ∨ ¬ KeyedValues members ∧
      (urisKeyed (mergedValues members)).length < (urisKeyed members).length
  | [] => .inl ⟨trivial, rfl⟩
  | (uri, v) :: rest => by
    rw [KeyedValues, mergedValues, List.cons.injEq, Prod.mk.injEq, eq_self, true_and, urisKeyed,
      urisKeyed, List.length_cons, List.length_cons, Nat.add_lt_add_iff_right, List.length_append,
      List.length_append]
    exact parts_cases (f := fun v => (uris v).length)
      (g := fun members => (urisKeyed members).length) (merged_cases v) (mergedValues_cases rest)

end

/-- A merge leaves a value as it is exactly if members that are named by URIs have distinct
names. -/
theorem merged_eq_self_iff (v : Json) : v.merged = v ↔ v.Keyed := by
  rcases merged_cases v with ⟨hkeyed, hsame⟩ | ⟨hlost, hless⟩
  · exact iff_of_true hsame hkeyed
  · refine iff_of_false (fun hsame => ?_) hlost
    rw [hsame] at hless
    exact Nat.lt_irrefl _ hless

end Json

namespace Session

/-! ## Walks -/

section Walks

open Json

variable {α β γ : Type} {settings : Settings} {files : FileTree}

/-- Two lists of lookups, one behind the other, are one list of lookups. -/
theorem mapM_map₂ {f : Text → Relocation Text} (us vs : List Text) (F : List Text → α)
    (G : List Text → β) (c : α → β → γ) :
    (do let a ← F <$> us.mapM f; let b ← G <$> vs.mapM f; return c a b)
      = (fun found => c (F (found.take us.length)) (G (found.drop us.length)))
        <$> (us ++ vs).mapM f := by
  induction us generalizing F with
  | nil => simp
  | cons u us ih =>
    have hrest := fun found => ih (F ∘ (found :: ·))
    simp only [map_eq_pure_bind, bind_assoc, pure_bind, Function.comp_apply] at hrest
    simp only [List.mapM_cons, List.cons_append, List.length_cons, map_eq_pure_bind, bind_assoc,
      pure_bind, hrest, List.take_succ_cons, List.drop_succ_cons]

/-- With enough calls a walk just goes on. -/
theorem deeper_eq {calls opened : Nat} (h : opened ≤ calls) (walk : Nat → Relocation α) :
    deeper calls opened walk = walk (calls - opened) :=
  if_pos h

mutual

/-- A walk with enough calls is a list of lookups: the answers are put in the places of the URIs, and
entries that have come to one name are merged. -/
theorem relocate_eq {calls : Nat} : ∀ v : Json, v.callDepth ≤ calls →
    relocate settings files calls v
      = (fun found => (v.withUris found).merged) <$> v.uris.mapM (relocateUri settings files)
  | .arr items, h => by
    rw [Json.callDepth] at h
    rw [relocate, deeper_eq (by omega), relocateItems_eq items (by omega)]
    simp only [withUris, merged, Json.uris, Functor.map_map]
  | .obj members, h => by
    rw [Json.callDepth] at h
    rw [relocate, deeper_eq (by omega), relocateMembers_eq members (by omega)]
    simp only [withUris, merged, Json.uris, Functor.map_map]
  | .null, h | .bool _, h | .int _, h | .real _, h | .str _, h => by
    have hcalls : 1 ≤ calls := h
    rw [relocate, deeper_eq hcalls]
    · simp [withUris, merged, Json.uris]
    all_goals nofun

theorem relocateItems_eq {calls : Nat} : ∀ items : List Json, Json.callDepthItems items ≤ calls →
    relocateItems settings files calls items
      = (fun found => mergedItems (withUrisItems found items))
        <$> (urisItems items).mapM (relocateUri settings files)
  | [], _ => by simp [relocateItems, urisItems, withUrisItems, mergedItems]
  | v :: rest, h => by
    rw [Json.callDepthItems, Nat.max_le] at h
    rw [relocateItems, relocate_eq v h.1, relocateItems_eq rest h.2]
    exact mapM_map₂ _ _ _ _ List.cons

theorem relocateMember_eq {calls : Nat} (name : Text) : ∀ v : Json,
    v.callDepthMember name ≤ calls → relocateMember settings files calls name v
      = (fun found => (v.withUrisMember found name).mergedMember name)
        <$> (v.urisMember name).mapM (relocateUri settings files)
  | .str uri, h => by
    rw [Json.callDepthMember] at h
    rw [relocateMember, urisMember]
    split
    · rename_i hfield
      simp [withUrisMember, mergedMember, hfield]
    · rename_i hfield
      rw [if_neg hfield] at h
      rw [deeper_eq h]
      simp [withUrisMember, mergedMember, hfield]
  | .obj members, h => by
    rw [Json.callDepthMember] at h
    rw [relocateMember, deeper_eq (by omega), urisMember]
    split
    · rename_i hname
      rw [if_pos hname] at h
      rw [relocateKeyed_eq [] members (by omega)]
      simp only [withUrisMember, mergedMember, if_pos hname, Functor.map_map, lastWins]
    · rename_i hname
      rw [if_neg hname] at h
      rw [relocateMembers_eq members (by omega)]
      simp only [withUrisMember, mergedMember, if_neg hname, Functor.map_map]
  | .arr items, h => by
    rw [Json.callDepthMember] at h
    rw [relocateMember, deeper_eq (by omega), relocateItems_eq items (by omega)]
    simp only [withUrisMember, mergedMember, urisMember, Functor.map_map]
  | .null, h | .bool _, h | .int _, h | .real _, h => by
    have hcalls : 1 ≤ calls := h
    rw [relocateMember, deeper_eq hcalls]
    · simp [withUrisMember, mergedMember, urisMember]
    all_goals nofun

theorem relocateMembers_eq {calls : Nat} : ∀ members : Members,
    Json.callDepthMembers members ≤ calls → relocateMembers settings files calls members
      = (fun found => mergedMembers (withUrisMembers found members))
        <$> (urisMembers members).mapM (relocateUri settings files)
  | [], _ => by simp [relocateMembers, urisMembers, withUrisMembers, mergedMembers]
  | (name, v) :: rest, h => by
    rw [Json.callDepthMembers, Nat.max_le] at h
    rw [relocateMembers, relocateMember_eq name v h.1, relocateMembers_eq rest h.2]
    exact mapM_map₂ _ _ _ _ fun v rest => (name, v) :: rest

-- An entry is set as soon as it is walked, while `merged` is set after all of them.
theorem relocateKeyed_eq {calls : Nat} : ∀ done members : Members,
    Json.callDepthKeyed members ≤ calls → relocateKeyed settings files calls done members
      = (fun found => setAll done (mergedValues (withUrisKeyed found members)))
        <$> (urisKeyed members).mapM (relocateUri settings files)
  | done, [], _ => by simp [relocateKeyed, urisKeyed, withUrisKeyed, mergedValues, setAll]
  | done, (uri, v) :: rest, h => by
    rw [Json.callDepthKeyed, Nat.max_le] at h
    rw [relocateKeyed, relocate_eq v h.1, urisKeyed, List.mapM_cons, map_bind]
    congr 1
    funext found
    have hrest := mapM_map₂ (f := relocateUri settings files) v.uris (urisKeyed rest)
      (fun others => (v.withUris others).merged)
      (fun others => mergedValues (withUrisKeyed others rest))
      fun v rest => setAll (set found v done) rest
    simp only [relocateKeyed_eq _ rest h.2, map_eq_pure_bind, bind_assoc, pure_bind] at hrest ⊢
    rw [hrest]
    rfl

end

end Walks

end Session

/-! ## Lookups in turn -/

namespace UriMap

variable (settings : Settings) (files : FileTree)

/-- The component of a URI, or the URI itself if no component is found for it. -/
def componentOr (map : UriMap) (uri : Text) : Text :=
  match (map.toComponent settings files uri).outcome with
  | .ok (some component) => component
  | _ => uri

theorem componentOr_of_ok {settings : Settings} {files : FileTree} {map : UriMap} {uri : Text}
    {component? : Option Text}
    (h : (map.toComponent settings files uri).outcome = .ok component?) :
    map.componentOr settings files uri = component?.getD uri := by
  rw [componentOr, h]
  cases component? <;> rfl

/-- The components of URIs that are looked up one after the other. -/
def componentsOr : UriMap → List Text → List Text
  | _, [] => []
  | map, uri :: rest =>
    map.componentOr settings files uri
      :: componentsOr (map.toComponent settings files uri).map rest

theorem length_componentsOr (map : UriMap) (uris : List Text) :
    (map.componentsOr settings files uris).length = uris.length := by
  induction uris generalizing map with
  | nil => rfl
  | cons uri rest ih => rw [componentsOr, List.length_cons, ih, List.length_cons]

end UriMap

namespace Session

section Lookups

variable {settings : Settings} {files : FileTree}

/-- A list of lookups that does not fail begins with one that does not fail. -/
theorem mapM_cons_ok {uri : Text} {rest found : List Text} {map map' : UriMap} {log log' : Log}
    (h : ((uri :: rest).mapM (relocateUri settings files)).run.run (map, log)
      = (.ok found, map', log')) :
    ∃ component? others,
      (map.toComponent settings files uri).outcome = .ok component? ∧
      found = map.componentOr settings files uri :: others ∧
      (rest.mapM (relocateUri settings files)).run.run ((map.toComponent settings files uri).map,
        log ++ (map.toComponent settings files uri).log) = (.ok others, map', log') := by
  rw [List.mapM_cons] at h
  obtain ⟨first, st, hfirst, h⟩ := Relocation.run_bind_ok h
  obtain ⟨others, st', hrest, ⟨⟩⟩ := Relocation.run_bind_ok h
  rw [relocateUri_run] at hfirst
  cases houtcome : (map.toComponent settings files uri).outcome with
  | error e =>
    rw [houtcome] at hfirst
    cases hfirst
  | ok component? =>
    rw [houtcome] at hfirst
    cases hfirst
    exact ⟨component?, others, rfl, by rw [UriMap.componentOr_of_ok houtcome], hrest⟩

/-- What a list of lookups comes to. -/
theorem mapM_relocateUri_ok {uris found : List Text} {map map' : UriMap} {log log' : Log}
    (h : (uris.mapM (relocateUri settings files)).run.run (map, log) = (.ok found, map', log')) :
    found = map.componentsOr settings files uris := by
  induction uris generalizing found map log with
  | nil =>
    cases h
    rfl
  | cons uri rest ih =>
    obtain ⟨-, others, -, rfl, hrest⟩ := mapM_cons_ok h
    rw [UriMap.componentsOr, ← ih hrest]

end Lookups

/-! ## Messages -/

variable {message : Members} {s : Session}

/-- The URIs that a message is asked for, in order: that of its document, and those in what it is
about. -/
def lookups (message : Members) : List Text :=
  (documentUri? message).toList ++ (subject message).uris

/-- What a message is about, with the component of each URI in its place and with all its
entries. -/
def resolved (message : Members) (s : Session) : Json :=
  (subject message).withUris ((s.uris.componentsOr s.settings s.files (lookups message)).drop
    (documentUri? message).toList.length)

/-- A message with something else in place of what it is about; a message about nothing stays. -/
def withSubject (message : Members) (about : Json) : Members :=
  if subject message = .null then message else Json.set (subjectName message) about message

theorem relocateKey_eq (settings : Settings) (files : FileTree) (message : Members) :
    relocateKey settings files (subject message)
      = List.head? <$> (documentUri? message).toList.mapM (relocateUri settings files) := by
  rw [relocateKey_subject]
  cases documentUri? message <;> simp

theorem relocateMessage_eq (settings : Settings) (files : FileTree) {calls : Nat}
    {message : Members} (hcalls : subject message ≠ .null → (subject message).callDepth ≤ calls) :
    relocateMessage settings files calls message
      = (fun found =>
          ((found.take (documentUri? message).toList.length).head?, withSubject message
            ((subject message).withUris (found.drop (documentUri? message).toList.length)).merged))
        <$> (lookups message).mapM (relocateUri settings files) := by
  have hsubject : relocateSubject settings files calls message
      = (fun found => withSubject message ((subject message).withUris found).merged)
        <$> (subject message).uris.mapM (relocateUri settings files) := by
    rw [relocateSubject_eq]
    unfold withSubject
    split
    · rename_i hnull
      rw [hnull]
      simp [Json.uris]
    · rename_i hnull
      rw [relocate_eq _ (hcalls hnull), Functor.map_map]
  rw [relocateMessage, relocateKey_eq, hsubject]
  exact mapM_map₂ _ _ _ _ Prod.mk

/-- A message that is translated has had enough calls for what it is about. -/
theorem callDepth_le_of_translate {key : Option Text} {relocated : Members}
    (h : (translate message s).2 = .ok (key, relocated)) (hnull : subject message ≠ .null) :
    (subject message).callDepth ≤ s.limits.relocating := by
  obtain ⟨st, st', -, hsubject⟩ := translate_run h
  rw [relocateSubject_eq, if_neg hnull] at hsubject
  obtain ⟨about, hrun, -⟩ := Relocation.run_map_ok hsubject
  exact callDepth_le_of_run hrun

/-- What a message comes to before its lines move: the message with the component of each URI in its
place, but for entries that have come to one name, which are merged. -/
theorem translate_merged {key : Option Text} {relocated : Members}
    (h : (translate message s).2 = .ok (key, relocated)) :
    relocated = withSubject message (resolved message s).merged := by
  obtain ⟨later, log, hrun, -⟩ := run_of_translate h
  rw [relocateMessage_eq _ _ (callDepth_le_of_translate h)] at hrun
  obtain ⟨found, hlookups, hfound⟩ := Relocation.run_map_ok hrun
  cases hfound
  rw [mapM_relocateUri_ok hlookups, resolved]

/-- A message of the server cannot be adapted, or it comes to the message with the component of each
URI in its place, merged and with its lines moved. -/
theorem outgoing_merged (message : Members) (s : Session) :
    Refused message s ∨ ∃ key adapted, (outgoing message s).2 = .ok adapted ∧
      Json.obj (adapted.getD message)
        = (Json.obj (withSubject message (resolved message s).merged)).shiftLines
          (messageOffset key message s) := by
  rcases outgoing_cases message s with herror | ⟨key, relocated, adapted, htranslate, hok, hmoved⟩
  · exact .inl herror
  · refine .inr ⟨key, adapted, hok, ?_⟩
    rw [(moveLines_eq_ok_iff.mp hmoved).2, translate_merged htranslate, Json.shiftLines_obj]

end Session

end SfcProxy
