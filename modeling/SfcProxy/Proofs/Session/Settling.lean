import SfcProxy.Proofs.Session.Relocation
import SfcProxy.Proofs.UriKinds

/-!
# Relocating twice

A walk that puts component URIs in place of generated ones looks at certain texts of a value, one
after the other. If nothing is found for any of them, the walk leaves both the value and the map as
they were. And the texts that a walk leaves are at rest: they are components, or nothing was found
for them. So a second walk is one of this kind.

## Main definitions

* `Json.uris`: the texts of a value that a walk looks up
* `Json.callDepth`: how many calls a walk has open at a time
* `Json.Keyed`: members that are named by URIs have distinct names
* `Relocation.Quiet`: a walk leaves value and map as they were, or fails
* `Relocation.Leads`: what a walk that comes to an end leads to

## Main results

* `Session.callDepth_le_of_run`: a walk that comes to an end has had enough calls
* `Session.relocate_quiet`: a walk that finds nothing is quiet
* `Session.relocate_leads`: what a walk leaves is at rest
* `Session.relocate_twice`: a second walk is quiet
-/

namespace SfcProxy

/-! ## What is looked up -/

namespace Json

open Session (isUriField isUriKeyed)

mutual

/-- The texts of a value that are looked up as URIs, in order. -/
def uris : Json → List Text
  | .arr items => urisItems items
  | .obj members => urisMembers members
  | _ => []

/-- The URIs in the items of an array. -/
def urisItems : List Json → List Text
  | [] => []
  | v :: rest => uris v ++ urisItems rest

/-- The URIs in a member. -/
def urisMember (name : Text) : Json → List Text
  | .str uri => if isUriField name then [uri] else []
  | .obj members => if isUriKeyed name then urisKeyed members else urisMembers members
  | .arr items => urisItems items
  | _ => []

/-- The URIs in the members of an object. -/
def urisMembers : List (Text × Json) → List Text
  | [] => []
  | (name, v) :: rest => urisMember name v ++ urisMembers rest

/-- The URIs in members that are named by URIs. -/
def urisKeyed : List (Text × Json) → List Text
  | [] => []
  | (uri, v) :: rest => uri :: (uris v ++ urisKeyed rest)

end

mutual

/-- How many calls are open at a time when the URIs of a value are replaced. -/
def callDepth : Json → Nat
  | .arr items => callDepthItems items + 2
  | .obj members => callDepthMembers members + 1
  | _ => 1

/-- The calls for the items of an array. -/
def callDepthItems : List Json → Nat
  | [] => 0
  | v :: rest => max (callDepth v) (callDepthItems rest)

/-- The calls for the value of a member; a URI that is looked up needs none. -/
def callDepthMember (name : Text) : Json → Nat
  | .str _ => if isUriField name then 0 else 1
  | .obj members =>
    (if isUriKeyed name then callDepthKeyed members else callDepthMembers members) + 1
  | .arr items => callDepthItems items + 2
  | _ => 1

/-- The calls for the members of an object. -/
def callDepthMembers : List (Text × Json) → Nat
  | [] => 0
  | (name, v) :: rest => max (callDepthMember name v) (callDepthMembers rest)

/-- The calls for members that are named by URIs. -/
def callDepthKeyed : List (Text × Json) → Nat
  | [] => 0
  | (_, v) :: rest => max (callDepth v) (callDepthKeyed rest)

end

theorem callDepthKeyed_set_le (name : Text) (v : Json) (members : Members) :
    callDepthKeyed (set name v members) ≤ max (callDepth v) (callDepthKeyed members) := by
  induction members with
  | nil => exact Nat.le_refl _
  | cons entry rest ih =>
    obtain ⟨key, old⟩ := entry
    rw [set]
    split
    · rw [callDepthKeyed, callDepthKeyed]
      omega
    · rw [callDepthKeyed, callDepthKeyed]
      omega

mutual

/-- Members that are named by URIs have distinct names, wherever they stand in a value. -/
def Keyed : Json → Prop
  | .arr items => KeyedItems items
  | .obj members => KeyedMembers members
  | _ => True

def KeyedItems : List Json → Prop
  | [] => True
  | v :: rest => Keyed v ∧ KeyedItems rest

def KeyedMember (name : Text) : Json → Prop
  | .obj members =>
    if isUriKeyed name then (members.map (·.1)).Nodup ∧ KeyedValues members
    else KeyedMembers members
  | .arr items => KeyedItems items
  | _ => True

def KeyedMembers : List (Text × Json) → Prop
  | [] => True
  | (name, v) :: rest => KeyedMember name v ∧ KeyedMembers rest

def KeyedValues : List (Text × Json) → Prop
  | [] => True
  | (_, v) :: rest => Keyed v ∧ KeyedValues rest

end

theorem set_of_notMem {name : Text} {members : Members} (h : name ∉ members.map (·.1)) (v : Json) :
    set name v members = members ++ [(name, v)] := by
  induction members with
  | nil => rfl
  | cons entry rest ih =>
    obtain ⟨key, old⟩ := entry
    rw [List.map_cons, List.mem_cons, not_or] at h
    rw [set, if_neg (Ne.symm h.1), ih h.2, List.cons_append]

theorem keys_set (name : Text) (v : Json) (members : Members) :
    (set name v members).map (·.1) = if name ∈ members.map (·.1) then members.map (·.1)
      else members.map (·.1) ++ [name] := by
  induction members with
  | nil => rfl
  | cons entry rest ih =>
    obtain ⟨key, old⟩ := entry
    rw [set]
    by_cases hkey : key = name
    · simp [hkey]
    · rw [if_neg hkey, List.map_cons, ih]
      by_cases hmem : name ∈ rest.map (·.1)
      · simp [hmem]
      · simp [hmem, Ne.symm hkey]

theorem nodup_keys_set {members : Members} (h : (members.map (·.1)).Nodup) (name : Text)
    (v : Json) : ((set name v members).map (·.1)).Nodup := by
  rw [keys_set]
  split
  · exact h
  · rename_i hmem
    refine List.nodup_append.mpr ⟨h, by simp, ?_⟩
    rintro other hother _ hname rfl
    exact hmem (List.mem_singleton.mp hname ▸ hother)

theorem keyedValues_set {members : Members} (h : KeyedValues members) (name : Text) {v : Json}
    (hv : v.Keyed) : KeyedValues (set name v members) := by
  induction members with
  | nil => exact ⟨hv, trivial⟩
  | cons entry rest ih =>
    obtain ⟨key, old⟩ := entry
    rw [set]
    split
    · exact ⟨hv, h.2⟩
    · exact ⟨h.1, ih h.2⟩

theorem mem_urisKeyed_set {name : Text} {v : Json} {members : Members} {uri : Text}
    (h : uri ∈ urisKeyed (set name v members)) :
    uri = name ∨ uri ∈ v.uris ∨ uri ∈ urisKeyed members := by
  induction members with
  | nil =>
    rw [set, urisKeyed, urisKeyed, List.append_nil, List.mem_cons] at h
    exact h.imp_right .inl
  | cons entry rest ih =>
    obtain ⟨key, old⟩ := entry
    rw [set] at h
    rw [urisKeyed, List.mem_cons, List.mem_append]
    split at h
    · rw [urisKeyed, List.mem_cons, List.mem_append] at h
      rcases h with h | h | h
      · exact .inr (.inr (.inl h))
      · exact .inr (.inl h)
      · exact .inr (.inr (.inr (.inr h)))
    · rw [urisKeyed, List.mem_cons, List.mem_append] at h
      rcases h with h | h | h
      · exact .inr (.inr (.inl h))
      · exact .inr (.inr (.inr (.inl h)))
      · rcases ih h with h | h | h
        · exact .inl h
        · exact .inr (.inl h)
        · exact .inr (.inr (.inr (.inr h)))

end Json

namespace Session

namespace Relocation

variable {α β γ : Type} {settings : Settings} {files : FileTree} {fails : Fault → Prop}
  {known : UriMap}

/-! ## Quiet walks -/

/-- Nothing is found for a URI, or looking it up fails. -/
def Still (settings : Settings) (files : FileTree) (fails : Fault → Prop) (known : UriMap)
    (uri : Text) : Prop :=
  (known.toComponent settings files uri).outcome = .ok none ∨
    ∃ e, fails (.ofMap e) ∧ (known.toComponent settings files uri).outcome = .error e

/-- A walk comes to a value and leaves the map as it was, or it fails. -/
def Quiet (fails : Fault → Prop) (known : UriMap) (x : Relocation α) (a : α) : Prop :=
  ∀ log, (∃ log', x.run.run (known, log) = (.ok a, known, log')) ∨
    ∃ e, fails e ∧ (x.run.run (known, log)).1 = .error e

theorem Quiet.pure (a : α) : Quiet fails known (pure a) a :=
  fun log => .inl ⟨log, rfl⟩

theorem Quiet.bind {x : Relocation α} {k : α → Relocation β} {a : α} {b : β}
    (hx : Quiet fails known x a) (hk : Quiet fails known (k a) b) :
    Quiet fails known (x >>= k) b := by
  intro log
  rw [run_bind]
  rcases hx log with ⟨log', hok⟩ | ⟨e, he, herror⟩
  · rw [hok]
    exact hk log'
  · right
    refine ⟨e, he, ?_⟩
    generalize x.run.run (known, log) = result at herror ⊢
    obtain ⟨outcome, st⟩ := result
    obtain rfl : outcome = .error e := herror
    rfl

theorem Quiet.map {x : Relocation α} {a : α} (hx : Quiet fails known x a) (f : α → β) :
    Quiet fails known (f <$> x) (f a) := by
  rw [map_eq_pure_bind]
  exact hx.bind (.pure (f a))

theorem Quiet.map₂ {x : Relocation α} {y : Relocation β} {a : α} {b : β}
    (hx : Quiet fails known x a) (hy : Quiet fails known y b) (f : α → β → γ) :
    Quiet fails known (do let a ← x; let b ← y; return f a b) (f a b) :=
  hx.bind (hy.bind (.pure (f a b)))

theorem quiet_relocateUri {uri : Text} (h : Still settings files fails known uri) :
    Quiet fails known (relocateUri settings files uri) uri := by
  have hlookedUp := UriMap.toComponent_cases settings files known uri
  intro log
  rw [relocateUri_run]
  rcases h with hnone | ⟨e, he, herror⟩
  · left
    rw [hnone] at hlookedUp ⊢
    generalize (known.toComponent settings files uri).map = map' at hlookedUp ⊢
    cases hlookedUp with
    | empty | missed => exact ⟨_, rfl⟩
  · right
    rw [herror]
    exact ⟨.ofMap e, he, rfl⟩

theorem Quiet.deeper {calls opened : Nat} {walk : Nat → Relocation α} {a : α}
    (h : opened ≤ calls) (hwalk : Quiet fails known (walk (calls - opened)) a) :
    Quiet fails known (deeper calls opened walk) a := by
  rwa [Session.deeper, if_pos h]

end Relocation

section Depth

open Relocation

variable {settings : Settings} {files : FileTree}

mutual

theorem relocate_callDepth (calls : Nat) : ∀ v : Json,
    Yields (relocate settings files calls v) fun _ => v.callDepth ≤ calls
  | .arr items => by
    rw [relocate, Json.callDepth]
    exact .deeper fun hcalls => (relocateItems_callDepth _ items).map fun _ hitems => by omega
  | .obj members => by
    rw [relocate, Json.callDepth]
    exact .deeper fun hcalls => (relocateMembers_callDepth _ members).map fun _ hmembers => by omega
  | .null | .bool _ | .int _ | .real _ | .str _ => by
    rw [relocate]
    · exact .deeper fun hcalls => .pure hcalls
    all_goals nofun

theorem relocateItems_callDepth (calls : Nat) : ∀ items : List Json,
    Yields (relocateItems settings files calls items) fun _ => Json.callDepthItems items ≤ calls
  | [] => .pure (Nat.zero_le calls)
  | v :: rest => by
    rw [relocateItems, Json.callDepthItems]
    refine (relocate_callDepth calls v).bind fun _ hv => ?_
    refine (relocateItems_callDepth calls rest).bind fun _ hrest => ?_
    exact .pure (Nat.max_le.mpr ⟨hv, hrest⟩)

theorem relocateMember_callDepth (calls : Nat) (name : Text) : ∀ v : Json,
    Yields (relocateMember settings files calls name v) fun _ => v.callDepthMember name ≤ calls
  | .str uri => by
    rw [relocateMember, Json.callDepthMember]
    split
    · exact (yields_anything _).map fun _ _ => Nat.zero_le calls
    · exact .deeper fun hcalls => .pure hcalls
  | .obj members => by
    rw [relocateMember, Json.callDepthMember]
    refine .deeper fun hcalls => ?_
    split
    · exact (relocateKeyed_callDepth _ [] members).map fun _ hmembers => by omega
    · exact (relocateMembers_callDepth _ members).map fun _ hmembers => by omega
  | .arr items => by
    rw [relocateMember, Json.callDepthMember]
    exact .deeper fun hcalls => (relocateItems_callDepth _ items).map fun _ hitems => by omega
  | .null | .bool _ | .int _ | .real _ => by
    rw [relocateMember]
    · exact .deeper fun hcalls => .pure hcalls
    all_goals nofun

theorem relocateMembers_callDepth (calls : Nat) : ∀ members : Members,
    Yields (relocateMembers settings files calls members) fun _ =>
      Json.callDepthMembers members ≤ calls
  | [] => .pure (Nat.zero_le calls)
  | (name, v) :: rest => by
    rw [relocateMembers, Json.callDepthMembers]
    refine (relocateMember_callDepth calls name v).bind fun _ hv => ?_
    refine (relocateMembers_callDepth calls rest).bind fun _ hrest => ?_
    exact .pure (Nat.max_le.mpr ⟨hv, hrest⟩)

theorem relocateKeyed_callDepth (calls : Nat) : ∀ done members : Members,
    Yields (relocateKeyed settings files calls done members) fun _ =>
      Json.callDepthKeyed members ≤ calls
  | _, [] => .pure (Nat.zero_le calls)
  | done, (uri, v) :: rest => by
    rw [relocateKeyed, Json.callDepthKeyed]
    refine (yields_anything _).bind fun _ _ => ?_
    refine (relocate_callDepth calls v).bind fun _ hv => ?_
    intro st moved st' hrun
    exact Nat.max_le.mpr ⟨hv, relocateKeyed_callDepth calls _ rest st moved st' hrun⟩

end

/-- A walk that comes to an end has had enough calls. -/
theorem callDepth_le_of_run {calls : Nat} {v w : Json} {st st' : UriMap × Log}
    (h : (relocate settings files calls v).run.run st = (.ok w, st')) : v.callDepth ≤ calls :=
  relocate_callDepth calls v st w st' h

end Depth

section Quiet

open Relocation

variable {settings : Settings} {files : FileTree} {fails : Fault → Prop} {known : UriMap}

mutual

/-- A walk that finds nothing is quiet, if it has enough calls. -/
theorem relocate_quiet {calls : Nat} : ∀ v : Json, v.callDepth ≤ calls → v.Keyed →
    (∀ uri ∈ v.uris, Still settings files fails known uri) →
    Quiet fails known (relocate settings files calls v) v
  | .arr items, hcalls, hkeyed, hstill => by
    rw [Json.callDepth] at hcalls
    rw [relocate]
    refine .deeper (by omega) ((relocateItems_quiet items ?_ hkeyed hstill).map Json.arr)
    omega
  | .obj members, hcalls, hkeyed, hstill => by
    rw [Json.callDepth] at hcalls
    rw [relocate]
    refine .deeper (by omega) ((relocateMembers_quiet members ?_ hkeyed hstill).map Json.obj)
    omega
  | .null, hcalls, _, _ | .bool _, hcalls, _, _ | .int _, hcalls, _, _ | .real _, hcalls, _, _
  | .str _, hcalls, _, _ => by
    rw [relocate]
    · exact .deeper hcalls (.pure _)
    all_goals nofun

theorem relocateItems_quiet {calls : Nat} : ∀ items : List Json,
    Json.callDepthItems items ≤ calls → Json.KeyedItems items →
    (∀ uri ∈ Json.urisItems items, Still settings files fails known uri) →
    Quiet fails known (relocateItems settings files calls items) items
  | [], _, _, _ => .pure []
  | v :: rest, hcalls, hkeyed, hstill => by
    rw [Json.callDepthItems, Nat.max_le] at hcalls
    rw [Json.urisItems, List.forall_mem_append] at hstill
    exact (relocate_quiet v hcalls.1 hkeyed.1 hstill.1).map₂
      (relocateItems_quiet rest hcalls.2 hkeyed.2 hstill.2) List.cons

theorem relocateMember_quiet {calls : Nat} (name : Text) : ∀ v : Json,
    v.callDepthMember name ≤ calls → v.KeyedMember name →
    (∀ uri ∈ v.urisMember name, Still settings files fails known uri) →
    Quiet fails known (relocateMember settings files calls name v) v
  | .str uri, hcalls, _, hstill => by
    rw [Json.callDepthMember] at hcalls
    rw [Json.urisMember] at hstill
    rw [relocateMember]
    split
    · rename_i hfield
      rw [if_pos hfield] at hstill
      exact (quiet_relocateUri (hstill uri (List.mem_singleton_self uri))).map Json.str
    · rename_i hfield
      rw [if_neg hfield] at hcalls
      exact .deeper hcalls (.pure _)
  | .obj members, hcalls, hkeyed, hstill => by
    rw [Json.callDepthMember] at hcalls
    rw [Json.KeyedMember] at hkeyed
    rw [Json.urisMember] at hstill
    rw [relocateMember]
    refine .deeper (by omega) (.map ?_ Json.obj)
    split
    · rename_i hname
      rw [if_pos hname] at hcalls hkeyed hstill
      exact relocateKeyed_quiet [] members (by omega) hkeyed.1 hkeyed.2 hstill
    · rename_i hname
      rw [if_neg hname] at hcalls hkeyed hstill
      exact relocateMembers_quiet members (by omega) hkeyed hstill
  | .arr items, hcalls, hkeyed, hstill => by
    rw [Json.callDepthMember] at hcalls
    rw [relocateMember]
    refine .deeper (by omega) ((relocateItems_quiet items ?_ hkeyed hstill).map Json.arr)
    omega
  | .null, hcalls, _, _ | .bool _, hcalls, _, _ | .int _, hcalls, _, _
  | .real _, hcalls, _, _ => by
    rw [relocateMember]
    · exact .deeper hcalls (.pure _)
    all_goals nofun

theorem relocateMembers_quiet {calls : Nat} : ∀ members : Members,
    Json.callDepthMembers members ≤ calls → Json.KeyedMembers members →
    (∀ uri ∈ Json.urisMembers members, Still settings files fails known uri) →
    Quiet fails known (relocateMembers settings files calls members) members
  | [], _, _, _ => .pure []
  | (name, v) :: rest, hcalls, hkeyed, hstill => by
    rw [Json.callDepthMembers, Nat.max_le] at hcalls
    rw [Json.urisMembers, List.forall_mem_append] at hstill
    exact (relocateMember_quiet name v hcalls.1 hkeyed.1 hstill.1).map₂
      (relocateMembers_quiet rest hcalls.2 hkeyed.2 hstill.2) fun v rest => (name, v) :: rest

theorem relocateKeyed_quiet {calls : Nat} : ∀ done members : Members,
    Json.callDepthKeyed members ≤ calls → ((done ++ members).map (·.1)).Nodup →
    Json.KeyedValues members →
    (∀ uri ∈ Json.urisKeyed members, Still settings files fails known uri) →
    Quiet fails known (relocateKeyed settings files calls done members) (done ++ members)
  | done, [], _, _, _, _ => by
    rw [relocateKeyed, List.append_nil]
    exact .pure done
  | done, (uri, v) :: rest, hcalls, hnodup, hkeyed, hstill => by
    rw [Json.callDepthKeyed, Nat.max_le] at hcalls
    rw [Json.urisKeyed, List.forall_mem_cons, List.forall_mem_append] at hstill
    have hset : Json.set uri v done = done ++ [(uri, v)] := by
      refine Json.set_of_notMem (fun hmem => ?_) v
      rw [List.map_append, List.nodup_append] at hnodup
      exact hnodup.2.2 uri hmem uri (by simp) rfl
    rw [relocateKeyed]
    refine (quiet_relocateUri hstill.1).bind
      ((relocate_quiet v hcalls.1 hkeyed.1 hstill.2.1).bind ?_)
    have hrest := relocateKeyed_quiet (done ++ [(uri, v)]) rest hcalls.2 (by simpa using hnodup)
      hkeyed.2 hstill.2.2
    rw [hset]
    rwa [List.append_assoc, List.singleton_append] at hrest

end

end Quiet

/-! ## What a walk leaves -/

namespace Relocation

variable {α β γ : Type} (settings : Settings) (files : FileTree)

/-- A map comes from another by looking URIs up: it keeps the kinds apart if the other does, and
what rests stays at rest. -/
structure Later (known later : UriMap) : Prop where
  byKind : known.ByKind → later.ByKind
  resting : ∀ uri, known.Resting settings files uri → later.Resting settings files uri

theorem Later.refl (known : UriMap) : Later settings files known known :=
  ⟨id, fun _ h => h⟩

variable {settings files}

theorem Later.trans {known later last : UriMap} (h : Later settings files known later)
    (h' : Later settings files later last) : Later settings files known last :=
  ⟨fun hknown => h'.byKind (h.byKind hknown), fun uri huri => h'.resting uri (h.resting uri huri)⟩

/-- What still holds when further URIs were looked up. -/
def Stable (settings : Settings) (files : FileTree) (P : UriMap → Prop) : Prop :=
  ∀ known later, Later settings files known later → P known → P later

/-- What a walk that comes to an end leads to, from maps that keep the kinds apart. -/
def Leads (settings : Settings) (files : FileTree) (P : UriMap → Prop) (x : Relocation α)
    (Q : α → UriMap → Prop) : Prop :=
  ∀ known log, known.ByKind → P known →
    Later settings files known (x.run.run (known, log)).2.1 ∧
      ∀ a, (x.run.run (known, log)).1 = .ok a → Q a (x.run.run (known, log)).2.1

variable {P : UriMap → Prop} {Q : α → UriMap → Prop} {R : β → UriMap → Prop}

theorem Leads.pure {a : α} (h : ∀ known, P known → Q a known) :
    Leads settings files P (pure a) Q := by
  intro known log _ hP
  refine ⟨.refl settings files known, fun a' ha' => ?_⟩
  cases ha'
  exact h known hP

theorem Leads.bind {x : Relocation α} {k : α → Relocation β} (hx : Leads settings files P x Q)
    (hk : ∀ a, Leads settings files (Q a) (k a) R) : Leads settings files P (x >>= k) R := by
  intro known log hkind hP
  obtain ⟨hlater, hQ⟩ := hx known log hkind hP
  rw [run_bind]
  generalize x.run.run (known, log) = result at hlater hQ ⊢
  obtain ⟨e | a, later, log'⟩ := result
  · exact ⟨hlater, nofun⟩
  · obtain ⟨hlast, hR⟩ := hk a later log' (hlater.byKind hkind) (hQ a rfl)
    exact ⟨hlater.trans hlast, hR⟩

/-- What is stable holds after a walk if it held before. -/
theorem Leads.frame {F : UriMap → Prop} {x : Relocation α} (hx : Leads settings files P x Q)
    (hF : Stable settings files F) :
    Leads settings files (fun known => P known ∧ F known) x fun a known => Q a known ∧ F known := by
  intro known log hkind hPF
  obtain ⟨hlater, hQ⟩ := hx known log hkind hPF.1
  exact ⟨hlater, fun a ha => ⟨hQ a ha, hF _ _ hlater hPF.2⟩⟩

theorem Leads.imp {P' : UriMap → Prop} {Q' : α → UriMap → Prop} {x : Relocation α}
    (hx : Leads settings files P x Q) (hP : ∀ known, P' known → P known)
    (hQ : ∀ a known, Q a known → Q' a known) : Leads settings files P' x Q' := by
  intro known log hkind hknown
  obtain ⟨hlater, hend⟩ := hx known log hkind (hP known hknown)
  exact ⟨hlater, fun a ha => hQ a _ (hend a ha)⟩

theorem Leads.deeper {calls opened : Nat} {walk : Nat → Relocation α}
    (hwalk : opened ≤ calls → Leads settings files P (walk (calls - opened)) Q) :
    Leads settings files P (deeper calls opened walk) Q := by
  unfold Session.deeper
  split
  · exact hwalk ‹_›
  · exact fun known _ _ _ => ⟨.refl settings files known, nofun⟩

theorem Leads.map {f : α → β} {x : Relocation α} (hx : Leads settings files P x Q)
    (hf : ∀ a known, Q a known → R (f a) known) : Leads settings files P (f <$> x) R := by
  rw [map_eq_pure_bind]
  exact hx.bind fun a => .pure (hf a)

/-- Two walks whose results are put together. -/
theorem Leads.map₂ {S : γ → UriMap → Prop} {x : Relocation α} {y : Relocation β} {f : α → β → γ}
    (hx : Leads settings files (fun _ => True) x Q)
    (hy : Leads settings files (fun _ => True) y R) (hQ : ∀ a, Stable settings files (Q a))
    (hf : ∀ a b known, Q a known → R b known → S (f a b) known) :
    Leads settings files (fun _ => True) (do let a ← x; let b ← y; return f a b) S := by
  refine hx.bind fun a => ?_
  refine ((hy.frame (hQ a)).imp (fun known hknown => ⟨trivial, hknown⟩) fun _ _ h => h).bind
    fun b => ?_
  exact .pure fun known hboth => hf a b known hboth.2 hboth.1

/-- All URIs of a list rest. -/
def AllRest (settings : Settings) (files : FileTree) (uris : List Text) (known : UriMap) : Prop :=
  ∀ uri ∈ uris, known.Resting settings files uri

theorem AllRest.stable (uris : List Text) : Stable settings files (AllRest settings files uris) :=
  fun _ _ hlater h uri huri => hlater.resting uri (h uri huri)

/-- What is found for a URI rests, and so does a URI for which nothing is found. -/
theorem leads_relocateUri (uri : Text) : Leads settings files (fun _ => True)
    (relocateUri settings files uri) fun relocated known =>
      known.Resting settings files relocated := by
  intro known log hkind _
  have hlookedUp := UriMap.toComponent_cases settings files known uri
  rw [relocateUri_run]
  refine ⟨⟨fun h => (h.lookedUp hlookedUp).1, fun other hother => hother.lookedUp hlookedUp⟩, ?_⟩
  intro relocated hrelocated
  cases houtcome : (known.toComponent settings files uri).outcome with
  | error e =>
    rw [houtcome] at hrelocated
    cases hrelocated
  | ok component? =>
    rw [houtcome] at hrelocated hlookedUp
    obtain rfl := Except.ok.inj hrelocated
    exact hlookedUp.resting hkind

end Relocation

section Leads

open Relocation

variable {settings : Settings} {files : FileTree}

/-- The texts that a value leaves to be looked up rest, and it has a form in which a second walk can
keep its names and does not run out of calls. -/
def Settled (settings : Settings) (files : FileTree) (form : Prop) (uris : List Text)
    (known : UriMap) : Prop :=
  form ∧ AllRest settings files uris known

theorem Settled.stable (form : Prop) (uris : List Text) :
    Stable settings files (Settled settings files form uris) :=
  fun _ _ hlater h => ⟨h.1, AllRest.stable uris _ _ hlater h.2⟩

mutual

/-- What a walk leaves is at rest, and goes no deeper than the walk. -/
theorem relocate_leads (calls : Nat) : ∀ v : Json, Leads settings files (fun _ => True)
    (relocate settings files calls v) fun w =>
      Settled settings files (w.Keyed ∧ w.callDepth ≤ calls) w.uris
  | .arr items => by
    rw [relocate]
    refine .deeper fun hcalls => (relocateItems_leads _ items).map fun moved known hmoved => ?_
    rw [Json.callDepth]
    exact ⟨⟨hmoved.1.1, by have := hmoved.1.2; omega⟩, hmoved.2⟩
  | .obj members => by
    rw [relocate]
    refine .deeper fun hcalls => (relocateMembers_leads _ members).map fun moved known hmoved => ?_
    rw [Json.callDepth]
    exact ⟨⟨hmoved.1.1, by have := hmoved.1.2; omega⟩, hmoved.2⟩
  | .null | .bool _ | .int _ | .real _ | .str _ => by
    rw [relocate]
    · exact .deeper fun hcalls => .pure fun _ _ => ⟨⟨trivial, hcalls⟩, nofun⟩
    all_goals nofun

theorem relocateItems_leads (calls : Nat) : ∀ items : List Json,
    Leads settings files (fun _ => True) (relocateItems settings files calls items) fun items =>
      Settled settings files (Json.KeyedItems items ∧ Json.callDepthItems items ≤ calls)
        (Json.urisItems items)
  | [] => .pure fun _ _ => ⟨⟨trivial, Nat.zero_le _⟩, nofun⟩
  | v :: rest => by
    rw [relocateItems]
    refine (relocate_leads calls v).map₂ (relocateItems_leads calls rest)
      (fun _ => Settled.stable _ _) ?_
    intro v rest known hv hrest
    exact ⟨⟨⟨hv.1.1, hrest.1.1⟩, Nat.max_le.mpr ⟨hv.1.2, hrest.1.2⟩⟩,
      List.forall_mem_append.mpr ⟨hv.2, hrest.2⟩⟩

theorem relocateMember_leads (calls : Nat) (name : Text) : ∀ v : Json,
    Leads settings files (fun _ => True) (relocateMember settings files calls name v) fun w =>
      Settled settings files (w.KeyedMember name ∧ w.callDepthMember name ≤ calls)
        (w.urisMember name)
  | .str uri => by
    rw [relocateMember]
    split
    · refine (leads_relocateUri uri).map fun relocated known hrests => ?_
      rw [Json.callDepthMember, Json.urisMember, if_pos ‹_›, if_pos ‹_›]
      exact ⟨⟨trivial, Nat.zero_le _⟩, List.forall_mem_singleton.mpr hrests⟩
    · refine .deeper fun hcalls => .pure fun known _ => ?_
      rw [Json.callDepthMember, Json.urisMember, if_neg ‹_›, if_neg ‹_›]
      exact ⟨⟨trivial, hcalls⟩, nofun⟩
  | .obj members => by
    rw [relocateMember]
    refine .deeper fun hcalls => ?_
    split
    · refine ((relocateKeyed_leads _ [] members).imp
        (fun known _ => ⟨⟨⟨List.nodup_nil, trivial⟩, Nat.zero_le _⟩, nofun⟩) fun _ _ h => h).map ?_
      intro moved known hmoved
      rw [Json.KeyedMember, Json.callDepthMember, Json.urisMember, if_pos ‹_›, if_pos ‹_›,
        if_pos ‹_›]
      exact ⟨⟨hmoved.1.1, by have := hmoved.1.2; omega⟩, hmoved.2⟩
    · refine (relocateMembers_leads _ members).map fun moved known hmoved => ?_
      rw [Json.KeyedMember, Json.callDepthMember, Json.urisMember, if_neg ‹_›, if_neg ‹_›,
        if_neg ‹_›]
      exact ⟨⟨hmoved.1.1, by have := hmoved.1.2; omega⟩, hmoved.2⟩
  | .arr items => by
    rw [relocateMember]
    refine .deeper fun hcalls => (relocateItems_leads _ items).map fun moved known hmoved => ?_
    rw [Json.callDepthMember]
    exact ⟨⟨hmoved.1.1, by have := hmoved.1.2; omega⟩, hmoved.2⟩
  | .null | .bool _ | .int _ | .real _ => by
    rw [relocateMember]
    · exact .deeper fun hcalls => .pure fun _ _ => ⟨⟨trivial, hcalls⟩, nofun⟩
    all_goals nofun

theorem relocateMembers_leads (calls : Nat) : ∀ members : Members,
    Leads settings files (fun _ => True) (relocateMembers settings files calls members)
      fun members => Settled settings files
        (Json.KeyedMembers members ∧ Json.callDepthMembers members ≤ calls)
        (Json.urisMembers members)
  | [] => .pure fun _ _ => ⟨⟨trivial, Nat.zero_le _⟩, nofun⟩
  | (name, v) :: rest => by
    rw [relocateMembers]
    refine (relocateMember_leads calls name v).map₂ (relocateMembers_leads calls rest)
      (fun _ => Settled.stable _ _) ?_
    intro v rest known hv hrest
    exact ⟨⟨⟨hv.1.1, hrest.1.1⟩, Nat.max_le.mpr ⟨hv.1.2, hrest.1.2⟩⟩,
      List.forall_mem_append.mpr ⟨hv.2, hrest.2⟩⟩

theorem relocateKeyed_leads (calls : Nat) : ∀ done members : Members,
    Leads settings files
      (Settled settings files (((done.map (·.1)).Nodup ∧ Json.KeyedValues done) ∧
        Json.callDepthKeyed done ≤ calls) (Json.urisKeyed done))
      (relocateKeyed settings files calls done members) fun members =>
        Settled settings files (((members.map (·.1)).Nodup ∧ Json.KeyedValues members) ∧
          Json.callDepthKeyed members ≤ calls) (Json.urisKeyed members)
  | done, [] => .pure fun _ h => h
  | done, (uri, v) :: rest => by
    rw [relocateKeyed]
    -- What was done before the member still rests when its name and its value are relocated.
    have hdone : Stable settings files
        (Settled settings files (((done.map (·.1)).Nodup ∧ Json.KeyedValues done) ∧
          Json.callDepthKeyed done ≤ calls) (Json.urisKeyed done)) := Settled.stable _ _
    refine (((leads_relocateUri uri).frame hdone).imp (fun _ h => ⟨trivial, h⟩) fun _ _ h => h).bind
      fun relocated => ?_
    have hname : Stable settings files fun known => known.Resting settings files relocated ∧
        Settled settings files (((done.map (·.1)).Nodup ∧ Json.KeyedValues done) ∧
          Json.callDepthKeyed done ≤ calls) (Json.urisKeyed done) known :=
      fun known later hlater h => ⟨hlater.resting relocated h.1, hdone known later hlater h.2⟩
    refine (((relocate_leads calls v).frame hname).imp (fun _ h => ⟨trivial, h⟩)
      fun _ _ h => h).bind fun v' => ?_
    refine (relocateKeyed_leads calls (Json.set relocated v' done) rest).imp ?_ fun _ _ h => h
    rintro known ⟨hv, hrests, hdone⟩
    have hnames := Json.nodup_keys_set hdone.1.1.1 relocated v'
    have hvalues := Json.keyedValues_set hdone.1.1.2 relocated hv.1.1
    have hcalls := (Json.callDepthKeyed_set_le relocated v' done).trans
      (Nat.max_le.mpr ⟨hv.1.2, hdone.1.2⟩)
    refine ⟨⟨⟨hnames, hvalues⟩, hcalls⟩, fun other hother => ?_⟩
    rcases Json.mem_urisKeyed_set hother with rfl | hother | hother
    · exact hrests
    · exact hv.2 other hother
    · exact hdone.2 other hother

end

/-! ## Walking twice -/

/-- A search that fails for another reason than a refusal of the system. -/
def Unsearchable (settings : Settings) (files : FileTree) (e : Fault) : Prop :=
  ∃ uri fault, fault.isSystem = false ∧ e = .file fault ∧
    UriMap.discovery settings files uri = .error (.file fault)

theorem still_of_resting {known : UriMap} {uri : Text}
    (h : known.Resting settings files uri) :
    Still settings files (Unsearchable settings files) known uri := by
  rcases (UriMap.toComponent_of_resting h).2 with hnone | ⟨e, he, hdiscovery, herror⟩
  · exact .inl hnone
  · exact .inr ⟨.file e, ⟨uri, e, he, rfl, hdiscovery⟩, herror⟩

/-- **A second walk is quiet.** It comes to the same value and leaves the map as it is, unless a
search fails. It does not run out of calls if the first one did not. -/
theorem relocate_twice {calls : Nat} {known later : UriMap} {log log' : Log} {v w : Json}
    (h : known.ByKind)
    (hrun : (relocate settings files calls v).run.run (known, log) = (.ok w, later, log')) :
    Quiet (Unsearchable settings files) later (relocate settings files calls w) w := by
  have hend := (@relocate_leads settings files calls v known log h trivial).2
  rw [hrun] at hend
  obtain ⟨⟨hkeyed, hcalls⟩, hrests⟩ := hend w rfl
  exact relocate_quiet w hcalls hkeyed fun uri huri => still_of_resting (hrests uri huri)

end Leads

end Session

end SfcProxy
