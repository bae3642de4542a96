import SfcProxy.Proofs.Session.Settling

/-!
# Walks that change nothing

A walk that finds nothing is quiet. Here is the converse: a walk that comes to the value that it
started from has found nothing. The map can be trusted in this, for it keeps generated files and
components apart, so that no URI is replaced by itself.

Two things have to be taken care of. Lines move when the URIs have been replaced, so the value at
the end is compared with its lines moved. And members that are named by URIs may come to the same
name; then there are fewer of them at the end than at the start.

## Main definitions

* `Relocation.Idle`: a walk that comes to certain values has found nothing

## Main results

* `UriMap.ByKind.ne_of_found`: no URI is replaced by itself
* `relocate_idle`: a walk that changes nothing but lines has found nothing
-/

namespace SfcProxy

namespace Json

theorem set_eq_or_length (name : Text) (v : Json) (members : Members) :
    set name v members = members ++ [(name, v)] ∨ (set name v members).length = members.length := by
  by_cases hmem : name ∈ members.map (·.1)
  · have hkeys := congrArg List.length (keys_set name v members)
    rw [if_pos hmem, List.length_map, List.length_map] at hkeys
    exact .inr hkeys
  · exact .inl (set_of_notMem hmem v)

theorem length_shiftMembers (offset : Int) (members : Members) :
    (shiftMembers offset members).length = members.length := by
  induction members with
  | nil => rfl
  | cons entry rest ih => rw [shiftMembers_cons, List.length_cons, ih, List.length_cons]

theorem shiftMembers_append (offset : Int) (front back : Members) :
    shiftMembers offset (front ++ back)
      = shiftMembers offset front ++ shiftMembers offset back := by
  induction front with
  | nil => rfl
  | cons entry rest ih =>
    rw [List.cons_append, shiftMembers_cons, ih, shiftMembers_cons, List.cons_append]

end Json

/-! ## Lookups -/

namespace UriMap

variable {settings : Settings} {tree : FileTree} {map : UriMap} {uri component : Text}

/-- No URI is replaced by itself. -/
theorem ByKind.ne_of_found (h : ByKind map)
    (hfound : (map.toComponent settings tree uri).outcome = .ok (some component)) :
    component ≠ uri := by
  obtain ⟨huri, hcomponent⟩ :=
    (h.lookedUp (toComponent_cases settings tree map uri)).2 component hfound
  rintro rfl
  exact FileUri.not_endsIn_both huri hcomponent

/-- A lookup that finds nothing changes nothing. -/
theorem map_of_missed (h : (map.toComponent settings tree uri).outcome = .ok none) :
    (map.toComponent settings tree uri).map = map := by
  have hlookedUp := toComponent_cases settings tree map uri
  rw [h] at hlookedUp
  generalize (map.toComponent settings tree uri).map = map' at hlookedUp ⊢
  cases hlookedUp with
  | empty | missed => rfl

/-- For what was found once, a second lookup does not find nothing. -/
theorem not_missed_again (h : (map.toComponent settings tree uri).outcome = .ok (some component)) :
    ((map.toComponent settings tree uri).map.toComponent settings tree uri).outcome ≠ .ok none := by
  have huri : uri ≠ [] := by
    rintro rfl
    cases h
  have hlookedUp := toComponent_cases settings tree map uri
  rw [h] at hlookedUp
  generalize (map.toComponent settings tree uri).map = map' at hlookedUp ⊢
  intro hmissed
  have hagain := toComponent_cases settings tree map' uri
  rw [hmissed] at hagain
  generalize (map'.toComponent settings tree uri).map = map'' at hagain
  cases hagain with
  | empty blank => exact huri blank
  | missed absent nothing =>
    cases hlookedUp with
    | remembered entry =>
      obtain ⟨value, -, hused⟩ := Option.map_eq_some_iff.mp entry
      obtain ⟨-, rfl⟩ := Prod.mk.inj hused
      exact absent _ (Lru.mem_insert.mpr (.inr rfl)) rfl
    | found _ component_eq =>
      rw [nothing] at component_eq
      cases component_eq

end UriMap

namespace Session

namespace Relocation

variable {α β γ : Type} {settings : Settings} {files : FileTree} {known : UriMap}

/-! ## Idle walks -/

/-- Nothing is found for certain URIs. -/
def Missed (settings : Settings) (files : FileTree) (known : UriMap) (uris : List Text) : Prop :=
  ∀ uri ∈ uris, (known.toComponent settings files uri).outcome = .ok none

/-- A walk that comes to certain values has found nothing for certain URIs, and has left the map as
it was. -/
def Idle (settings : Settings) (files : FileTree) (known : UriMap) (x : Relocation α)
    (P : α → Prop) (uris : List Text) : Prop :=
  ∀ log a later log', x.run.run (known, log) = (.ok a, later, log') → P a →
    later = known ∧ Missed settings files known uris

variable {P : α → Prop} {Q : β → Prop} {R : γ → Prop} {uris uris' : List Text}

theorem Idle.pure (a : α) (P : α → Prop) : Idle settings files known (pure a) P [] := by
  rintro log a later log' ⟨⟩ -
  exact ⟨rfl, fun uri huri => absurd huri List.not_mem_nil⟩

theorem Idle.map {x : Relocation α} {f : α → β} (hx : Idle settings files known x P uris)
    (hf : ∀ a, Q (f a) → P a) : Idle settings files known (f <$> x) Q uris := by
  intro log b later log' hrun hQ
  obtain ⟨a, hwalk, rfl⟩ := run_map_ok hrun
  exact hx log a _ _ hwalk (hf a hQ)

theorem Idle.deeper {calls opened : Nat} {walk : Nat → Relocation α}
    (hwalk : ∀ calls, Idle settings files known (walk calls) P uris) :
    Idle settings files known (deeper calls opened walk) P uris :=
  fun log a later log' hrun => hwalk _ log a later log' (run_deeper_ok hrun).2

/-- Two walks whose results are put together: the second one starts from the map that the first one
has left, which is the same. -/
theorem Idle.map₂ {x : Relocation α} {y : Relocation β} {f : α → β → γ}
    (hx : Idle settings files known x P uris) (hy : Idle settings files known y Q uris')
    (hf : ∀ a b, R (f a b) → P a ∧ Q b) :
    Idle settings files known (do let a ← x; let b ← y; return f a b) R (uris ++ uris') := by
  intro log c later log' hrun hR
  obtain ⟨a, ⟨later₁, log₁⟩, hfirst, hrun⟩ := run_bind_ok hrun
  obtain ⟨b, ⟨later₂, log₂⟩, hsecond, ⟨⟩⟩ := run_bind_ok hrun
  obtain ⟨hP, hQ⟩ := hf a b hR
  obtain ⟨rfl, hmissed⟩ := hx log a later₁ log₁ hfirst hP
  obtain ⟨rfl, hmissed'⟩ := hy log₁ b _ _ hsecond hQ
  exact ⟨rfl, List.forall_mem_append.mpr ⟨hmissed, hmissed'⟩⟩

theorem idle_relocateUri (h : known.ByKind) (uri : Text) :
    Idle settings files known (relocateUri settings files uri) (· = uri) [uri] := by
  rintro log relocated later log' hrun rfl
  rw [relocateUri_run] at hrun
  obtain ⟨houtcome, hstate⟩ := Prod.mk.inj hrun
  obtain ⟨rfl, -⟩ := Prod.mk.inj hstate
  have hmissed : (known.toComponent settings files relocated).outcome = .ok none := by
    rcases hfound : (known.toComponent settings files relocated).outcome with e | _ | component
    · rw [hfound] at houtcome
      cases houtcome
    · rfl
    · rw [hfound] at houtcome
      exact absurd (Except.ok.inj houtcome) (h.ne_of_found hfound)
  exact ⟨UriMap.map_of_missed hmissed, List.forall_mem_singleton.mpr hmissed⟩

end Relocation

section Idle

open Relocation

variable {settings : Settings} {files : FileTree} {known : UriMap}

/-- Members that are named by URIs do not get more, and if they do not get fewer, those that were
done before stay in front. -/
theorem relocateKeyed_length {calls : Nat} :
    ∀ {done members result : Members} {st st' : UriMap × Log},
    (relocateKeyed settings files calls done members).run.run st = (.ok result, st') →
      result.length ≤ done.length + members.length ∧
        (result.length = done.length + members.length → done <+: result)
  | done, [], result, st, st', hrun => by
    rw [relocateKeyed] at hrun
    cases hrun
    exact ⟨Nat.le_refl _, fun _ => List.prefix_refl _⟩
  | done, (uri, v) :: rest, result, st, st', hrun => by
    rw [relocateKeyed] at hrun
    obtain ⟨relocated, st₁, -, hrun⟩ := run_bind_ok hrun
    obtain ⟨w, st₂, -, hrun⟩ := run_bind_ok hrun
    obtain ⟨hlength, hfront'⟩ := relocateKeyed_length hrun
    rw [List.length_cons]
    rcases Json.set_eq_or_length relocated w done with hset | hset
    · rw [hset, List.length_append, List.length_singleton] at hlength hfront'
      exact ⟨by omega, fun h => (List.prefix_append _ _).trans (hfront' (by omega))⟩
    · exact ⟨by omega, fun h => by omega⟩

mutual

/-- A walk that changes nothing but lines has found nothing. The value may be a line number
itself. -/
theorem relocate_idle (h : known.ByKind) (calls : Nat) (offset : Int) (name : Text) : ∀ v : Json,
    Idle settings files known (relocate settings files calls v)
      (fun w => Json.shiftMember offset name w = v) v.uris
  | .arr items => by
    rw [relocate]
    refine .deeper fun calls => (relocateItems_idle h calls offset items).map fun moved hmoved => ?_
    rw [Json.shiftMember_arr] at hmoved
    exact Json.arr.inj hmoved
  | .obj members => by
    rw [relocate]
    refine .deeper fun calls => (relocateMembers_idle h calls offset members).map fun moved hmoved => ?_
    rw [Json.shiftMember_obj] at hmoved
    exact Json.obj.inj hmoved
  | .null | .bool _ | .int _ | .real _ | .str _ => by
    rw [relocate]
    · exact .deeper fun _ => .pure _ _
    all_goals nofun

theorem relocateItems_idle (h : known.ByKind) (calls : Nat) (offset : Int) : ∀ items : List Json,
    Idle settings files known (relocateItems settings files calls items)
      (fun moved => Json.mapMembersItems (Json.movedLine? offset) moved = items)
      (Json.urisItems items)
  | [] => .pure [] _
  | v :: rest => by
    rw [relocateItems, Json.urisItems]
    refine (relocate_idle h calls offset [] v).map₂ (relocateItems_idle h calls offset rest) ?_
    intro moved moved' hmoved
    rw [Json.mapMembersItems] at hmoved
    rw [Json.shiftMember_of_ne (by decide)]
    exact List.cons.inj hmoved

theorem relocateMember_idle (h : known.ByKind) (calls : Nat) (offset : Int) (name : Text) :
    ∀ v : Json, Idle settings files known (relocateMember settings files calls name v)
      (fun w => Json.shiftMember offset name w = v) (v.urisMember name)
  | .str uri => by
    rw [relocateMember, Json.urisMember]
    split
    · refine (idle_relocateUri h uri).map fun moved hmoved => ?_
      rw [Json.shiftMember_str] at hmoved
      exact Json.str.inj hmoved
    · exact .deeper fun _ => .pure _ _
  | .obj members => by
    rw [relocateMember, Json.urisMember]
    refine .deeper fun calls => ?_
    split
    · refine (relocateKeyed_idle h calls offset [] members).map fun moved hmoved => ?_
      rw [Json.shiftMember_obj] at hmoved
      exact ⟨[], rfl, Json.obj.inj hmoved⟩
    · refine (relocateMembers_idle h calls offset members).map fun moved hmoved => ?_
      rw [Json.shiftMember_obj] at hmoved
      exact Json.obj.inj hmoved
  | .arr items => by
    rw [relocateMember]
    refine .deeper fun calls => (relocateItems_idle h calls offset items).map fun moved hmoved => ?_
    rw [Json.shiftMember_arr] at hmoved
    exact Json.arr.inj hmoved
  | .null | .bool _ | .int _ | .real _ => by
    rw [relocateMember]
    · exact .deeper fun _ => .pure _ _
    all_goals nofun

theorem relocateMembers_idle (h : known.ByKind) (calls : Nat) (offset : Int) :
    ∀ members : Members, Idle settings files known (relocateMembers settings files calls members)
      (fun moved => Json.shiftMembers offset moved = members) (Json.urisMembers members)
  | [] => .pure [] _
  | (name, v) :: rest => by
    rw [relocateMembers, Json.urisMembers]
    refine (relocateMember_idle h calls offset name v).map₂ (relocateMembers_idle h calls offset rest)
      ?_
    intro moved moved' hmoved
    rw [Json.shiftMembers_cons] at hmoved
    obtain ⟨hentry, hrest⟩ := List.cons.inj hmoved
    exact ⟨(Prod.mk.inj hentry).2, hrest⟩

theorem relocateKeyed_idle (h : known.ByKind) (calls : Nat) (offset : Int) :
    ∀ done members : Members,
    Idle settings files known (relocateKeyed settings files calls done members)
      (fun moved => ∃ front : Members, front.length = done.length ∧
        Json.shiftMembers offset moved = front ++ members) (Json.urisKeyed members)
  | done, [] => by
    rw [relocateKeyed]
    exact .pure done _
  | done, (uri, v) :: rest => by
    rw [relocateKeyed, Json.urisKeyed]
    rintro log moved later log' hrun ⟨front, hfront, hmoved⟩
    obtain ⟨relocated, ⟨later₁, log₁⟩, huri, hvalue⟩ := run_bind_ok hrun
    obtain ⟨w, ⟨later₂, log₂⟩, hv, hothers⟩ := run_bind_ok hvalue
    obtain ⟨hlength, hfront'⟩ := relocateKeyed_length hothers
    have hcount := congrArg List.length hmoved
    rw [Json.length_shiftMembers, List.length_append, List.length_cons, hfront] at hcount
    -- There are as many members as before, so this one has been put behind the others.
    have hset : Json.set relocated w done = done ++ [(relocated, w)] :=
      (Json.set_eq_or_length relocated w done).resolve_right fun hset => by omega
    rw [hset] at hothers hfront'
    obtain ⟨tail, rfl⟩ := hfront' (by rw [List.length_append, List.length_singleton]; omega)
    rw [List.append_assoc, List.singleton_append, Json.shiftMembers_append,
      Json.shiftMembers_cons] at hmoved
    obtain ⟨-, hmoved⟩ := List.append_inj hmoved (by rw [Json.length_shiftMembers, hfront])
    obtain ⟨hentry, hrest⟩ := List.cons.inj hmoved
    obtain ⟨rfl, hw⟩ := Prod.mk.inj hentry
    obtain ⟨hknown, hmissed⟩ := idle_relocateUri h relocated log relocated _ _ huri rfl
    rw [hknown] at hv
    obtain ⟨hknown, hmissed'⟩ := relocate_idle h calls offset relocated v log₁ w _ _ hv hw
    rw [hknown] at hothers
    have hkept : Json.shiftMembers offset (done ++ [(relocated, w)] ++ tail)
        = (Json.shiftMembers offset done ++ [(relocated, v)]) ++ rest := by
      rw [Json.shiftMembers_append, Json.shiftMembers_append, Json.shiftMembers_cons, hw, hrest]
      rfl
    obtain ⟨hlater, hmissed''⟩ := relocateKeyed_idle h calls offset (done ++ [(relocated, w)]) rest
      log₂ _ _ _ hothers ⟨_, by simp [Json.length_shiftMembers], hkept⟩
    exact ⟨hlater, List.forall_mem_cons.mpr ⟨hmissed relocated (List.mem_singleton_self _),
      List.forall_mem_append.mpr ⟨hmissed', hmissed''⟩⟩⟩

end

end Idle

end Session

end SfcProxy
