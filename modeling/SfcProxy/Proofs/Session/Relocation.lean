import SfcProxy.Proofs.Json.Lines
import SfcProxy.Proofs.UriMap
import SfcProxy.Session.Outgoing

/-!
# Relocation does not touch lines

A walk that puts component URIs in place of generated ones looks at texts and at the names of
members, and leaves all numbers alone. So it makes no difference whether the lines of a message
move before its URIs are replaced or afterwards: the walk asks for the same URIs, finds and forgets
the same ones, and comes to the same message.

The one thing to be careful about is a member whose own members are named by URIs: a name there
must neither become `line` nor cease to be it. That holds because all URIs in the map are those of
files.

## Main definitions

* `Relocation.Yields`: what a walk comes to if it does not fail
* `Relocation.Mirrors`: one walk does what another does, but for a change of its result
* `Json.shiftMember`: the value of a member with its lines moved

## Main results

* `Relocation.Mirrors.bind`: mirroring walks may be put one behind the other
* `Session.relocateUri_line_iff`: no name becomes `line` or ceases to be it
* `Session.relocate_mirrors`: relocation does not touch lines
* `Session.translate_shiftMembers`: nor does the translation of a message
* `Session.run_of_translate`, `Session.translate_run`: the walk through a message that was
  translated
-/

namespace SfcProxy

/-! ## Members -/

namespace Json

/-- The value of a member with its lines moved; the member may be a line number itself. -/
def shiftMember (offset : Int) (name : Text) (v : Json) : Json :=
  (movedLine? offset name v).getD (v.mapMembers (movedLine? offset))

theorem shiftMembers_cons (offset : Int) (name : Text) (v : Json) (rest : Members) :
    shiftMembers offset ((name, v) :: rest)
      = (name, shiftMember offset name v) :: shiftMembers offset rest := by
  rw [shiftMembers, mapMembersList, shiftMember, shiftMembers]

theorem shiftMembers_set (offset : Int) (name : Text) (v : Json) (members : Members) :
    shiftMembers offset (set name v members)
      = set name (shiftMember offset name v) (shiftMembers offset members) := by
  induction members with
  | nil => rw [set, shiftMembers_cons, shiftMembers, mapMembersList, set]
  | cons entry rest ih =>
    obtain ⟨key, old⟩ := entry
    rw [set, shiftMembers_cons, set]
    split
    · rename_i hkey
      rw [shiftMembers_cons, hkey]
    · rw [shiftMembers_cons, ih]

theorem shiftMember_of_ne {offset : Int} {name : Text} (hname : name ≠ "line") (v : Json) :
    shiftMember offset name v = v.mapMembers (movedLine? offset) := by
  rw [shiftMember, (onlyLines_movedLine? offset).name hname, Option.getD_none]

theorem shiftMember_arr (offset : Int) (name : Text) (items : List Json) :
    shiftMember offset name (.arr items) = .arr (mapMembersItems (movedLine? offset) items) := by
  rw [shiftMember, (onlyLines_movedLine? offset).arr, Option.getD_none, mapMembers]

theorem shiftMember_obj (offset : Int) (name : Text) (members : Members) :
    shiftMember offset name (.obj members) = .obj (shiftMembers offset members) := by
  rw [shiftMember, (onlyLines_movedLine? offset).obj, Option.getD_none, mapMembers, shiftMembers]

/-- A scalar stays what it is, or it is a number and becomes another one. -/
theorem shiftMember_cases (offset : Int) (name : Text) (v : Json) :
    shiftMember offset name v = v.mapMembers (movedLine? offset) ∨
      (∃ n m, v = .int n ∧ shiftMember offset name v = .int m) ∨
      ∃ x y, v = .real x ∧ shiftMember offset name v = .real y := by
  unfold shiftMember
  rcases movedLine?_cases offset name v with h | ⟨n, m, hv, h⟩ | ⟨x, y, hv, h⟩
  · exact .inl (by rw [h, Option.getD_none])
  · exact .inr (.inl ⟨n, m, hv, by rw [h, Option.getD_some]⟩)
  · exact .inr (.inr ⟨x, y, hv, by rw [h, Option.getD_some]⟩)

theorem shiftMember_str (offset : Int) (name uri : Text) :
    shiftMember offset name (.str uri) = .str uri := by
  rcases shiftMember_cases offset name (.str uri) with h | ⟨n, m, hv, -⟩ | ⟨x, y, hv, -⟩
  · rw [h, mapMembers]
    all_goals nofun
  · cases hv
  · cases hv

end Json

namespace Session

/-! ## Walks -/

namespace Relocation

variable {α β γ : Type}

theorem run_bind (x : Relocation α) (k : α → Relocation β) (st : UriMap × Log) :
    (x >>= k).run.run st = match x.run.run st with
      | (.ok a, st) => (k a).run.run st
      | (.error e, st) => (.error e, st) := by
  rw [ExceptT.run_bind, StateT.run_bind]
  rcases x.run.run st with ⟨e | a, st⟩ <;> rfl

theorem run_bind_ok {x : Relocation α} {k : α → Relocation β} {st st' : UriMap × Log} {b : β}
    (h : (x >>= k).run.run st = (.ok b, st')) :
    ∃ a st₁, x.run.run st = (.ok a, st₁) ∧ (k a).run.run st₁ = (.ok b, st') := by
  rw [run_bind] at h
  rcases hx : x.run.run st with ⟨e | a, st₁⟩
  · rw [hx] at h
    cases h
  · rw [hx] at h
    exact ⟨a, st₁, rfl, h⟩

theorem run_map_ok {x : Relocation α} {f : α → β} {st st' : UriMap × Log} {b : β}
    (h : (f <$> x).run.run st = (.ok b, st')) : ∃ a, x.run.run st = (.ok a, st') ∧ f a = b := by
  rw [map_eq_pure_bind] at h
  obtain ⟨a, st₁, ha, h⟩ := run_bind_ok h
  cases h
  exact ⟨a, ha, rfl⟩

/-- A walk that came to an end had enough calls. -/
theorem run_deeper_ok {calls opened : Nat} {walk : Nat → Relocation α} {st st' : UriMap × Log}
    {a : α} (h : (deeper calls opened walk).run.run st = (.ok a, st')) :
    opened ≤ calls ∧ (walk (calls - opened)).run.run st = (.ok a, st') := by
  unfold deeper at h
  split at h
  · exact ⟨‹_›, h⟩
  · cases h

theorem run_get (st : UriMap × Log) :
    (get : Relocation (UriMap × Log)).run.run st = (.ok st, st) := rfl

theorem run_set (st st' : UriMap × Log) :
    (set st' : Relocation PUnit).run.run st = (.ok ⟨⟩, st') := rfl

/-! ### What walks come to -/

section Yields

variable {P : α → Prop} {Q : β → Prop}

/-- What a walk comes to if it does not fail. -/
def Yields (x : Relocation α) (P : α → Prop) : Prop :=
  ∀ st a st', x.run.run st = (.ok a, st') → P a

theorem Yields.pure {a : α} (h : P a) : Yields (pure a) P := by
  rintro st _ st' ⟨⟩
  exact h

theorem Yields.bind {x : Relocation α} {k : α → Relocation β} (hx : Yields x P)
    (hk : ∀ a, P a → Yields (k a) Q) : Yields (x >>= k) Q := by
  intro st b st' hrun
  obtain ⟨a, st₁, hfirst, hrun⟩ := run_bind_ok hrun
  exact hk a (hx st a st₁ hfirst) st₁ b st' hrun

theorem Yields.map {x : Relocation α} {f : α → β} (hx : Yields x P) (hf : ∀ a, P a → Q (f a)) :
    Yields (f <$> x) Q := by
  intro st b st' hrun
  obtain ⟨a, ha, rfl⟩ := run_map_ok hrun
  exact hf a (hx st a st' ha)

theorem Yields.deeper {calls opened : Nat} {walk : Nat → Relocation α}
    (h : opened ≤ calls → Yields (walk (calls - opened)) P) :
    Yields (deeper calls opened walk) P := by
  intro st a st' hrun
  obtain ⟨hcalls, hrun⟩ := run_deeper_ok hrun
  exact h hcalls st a st' hrun

theorem yields_anything (x : Relocation α) : Yields x fun _ => True :=
  fun _ _ _ _ => trivial

end Yields

/-! ### Walks in step -/

/-- The second walk does what the first does, but for a change of its result, and both keep to file
URIs. -/
def Mirrors (f : α → α) (x y : Relocation α) : Prop :=
  ∀ map log, UriMap.OfFiles map →
    y.run.run (map, log) = ((x.run.run (map, log)).1.map f, (x.run.run (map, log)).2) ∧
      UriMap.OfFiles (x.run.run (map, log)).2.1

theorem Mirrors.pure {f : α → α} (a : α) : Mirrors f (pure a) (pure (f a)) :=
  fun _ _ h => ⟨rfl, h⟩

/-- Walks that mirror each other, one behind the other; `Q` is what the first ones are known to
come to. -/
theorem Mirrors.bind {f : α → α} {g : β → β} {x y : Relocation α} {k l : α → Relocation β}
    {Q : α → Prop} (hxy : Mirrors f x y)
    (hQ : ∀ map log a, UriMap.OfFiles map → (x.run.run (map, log)).1 = .ok a → Q a)
    (hkl : ∀ a, Q a → Mirrors g (k a) (l (f a))) : Mirrors g (x >>= k) (y >>= l) := by
  intro map log hmap
  obtain ⟨hy, hkept⟩ := hxy map log hmap
  have hQ := hQ map log
  rw [run_bind, run_bind, hy]
  rcases hx : x.run.run (map, log) with ⟨e | a, map', log'⟩
  · rw [hx] at hkept
    exact ⟨rfl, hkept⟩
  · rw [hx] at hkept hQ
    exact hkl a (hQ a hmap rfl) map' log' hkept

theorem Mirrors.throw {f : α → α} (e : Fault) : Mirrors f (throw e) (throw e) :=
  fun _ _ h => ⟨rfl, h⟩

/-- Walks that mirror each other go equally deep. -/
theorem Mirrors.deeper {f : α → α} {x y : Nat → Relocation α} (calls opened : Nat)
    (hxy : ∀ calls, Mirrors f (x calls) (y calls)) :
    Mirrors f (deeper calls opened x) (deeper calls opened y) := by
  unfold Session.deeper
  split
  · exact hxy _
  · exact .throw .nesting

theorem Mirrors.map {f : α → α} {g : β → β} {x y : Relocation α} {c d : α → β}
    (hxy : Mirrors f x y) (hcd : ∀ a, g (c a) = d (f a)) : Mirrors g (c <$> x) (d <$> y) := by
  rw [map_eq_pure_bind, map_eq_pure_bind]
  refine hxy.bind (Q := fun _ => True) (fun _ _ _ _ _ => trivial) fun a _ => ?_
  rw [← hcd]
  exact .pure (c a)

/-- Walks whose results are put together. -/
theorem Mirrors.map₂ {f : α → α} {g : β → β} {h : γ → γ} {x y : Relocation α}
    {x' y' : Relocation β} (c : α → β → γ) (hxy : Mirrors f x y) (hxy' : Mirrors g x' y')
    (hc : ∀ a b, h (c a b) = c (f a) (g b)) :
    Mirrors h (do let a ← x; let b ← x'; return c a b) (do let a ← y; let b ← y'; return c a b) := by
  refine hxy.bind (Q := fun _ => True) (fun _ _ _ _ _ => trivial) fun a _ => ?_
  refine hxy'.bind (Q := fun _ => True) (fun _ _ _ _ _ => trivial) fun b _ => ?_
  rw [← hc]
  exact .pure (c a b)

end Relocation

/-! ## Relocation -/

section Relocate

variable (settings : Settings) (files : FileTree)

theorem relocateUri_run (uri : Text) (map : UriMap) (log : Log) :
    (relocateUri settings files uri).run.run (map, log)
      = (((map.toComponent settings files uri).outcome.mapError Fault.ofMap).map (·.getD uri),
        (map.toComponent settings files uri).map,
        log ++ (map.toComponent settings files uri).log) := by
  rw [relocateUri, Relocation.run_bind, Relocation.run_get]
  dsimp only
  rw [Relocation.run_bind, Relocation.run_set]
  dsimp only
  cases (map.toComponent settings files uri).outcome <;> rfl

/-- No URI becomes `line` or ceases to be it. -/
theorem relocateUri_line_iff {uri relocated : Text} {map : UriMap} {log : Log}
    (hmap : UriMap.OfFiles map)
    (h : ((relocateUri settings files uri).run.run (map, log)).1 = .ok relocated) :
    relocated = "line" ↔ uri = "line" := by
  have hline : ¬ FileUri.HasScheme "line" := by
    rw [FileUri.HasScheme, ← List.isPrefixOf_iff_prefix]
    decide
  rw [relocateUri_run] at h
  cases houtcome : (map.toComponent settings files uri).outcome with
  | error e =>
    rw [houtcome] at h
    cases h
  | ok component =>
    rw [houtcome] at h
    obtain rfl := Except.ok.inj h
    cases component with
    | none => rfl
    | some component =>
      obtain ⟨huri, hcomponent⟩ := (hmap.toComponent settings files uri).2 component houtcome
      constructor
      · rintro rfl
        exact absurd hcomponent hline
      · rintro rfl
        exact absurd huri hline

theorem relocateUri_mirrors (uri : Text) :
    Relocation.Mirrors id (relocateUri settings files uri) (relocateUri settings files uri) := by
  intro map log hmap
  rw [relocateUri_run]
  exact ⟨by rw [Except.map_id]; rfl, (hmap.toComponent settings files uri).1⟩

/-- A walk that leaves numbers alone, at a value that it leaves alone and that holds no lines. -/
theorem mirrors_of_scalar (calls : Nat) {walk : Json → Relocation Json} {v : Json}
    (hint : ∀ n, walk (.int n) = deeper calls 1 fun _ => pure (.int n))
    (hreal : ∀ x, walk (.real x) = deeper calls 1 fun _ => pure (.real x))
    (hwalk : walk v = deeper calls 1 fun _ => pure v) {offset : Int}
    (hv : v.mapMembers (Json.movedLine? offset) = v) (name : Text) :
    Relocation.Mirrors (Json.shiftMember offset name) (walk v)
      (walk (Json.shiftMember offset name v)) := by
  have hmoved : walk (Json.shiftMember offset name v)
      = deeper calls 1 fun _ => pure (Json.shiftMember offset name v) := by
    rcases Json.shiftMember_cases offset name v with h | ⟨n, m, -, h⟩ | ⟨x, y, -, h⟩
    · rw [h, hv, hwalk]
    · rw [h, hint]
    · rw [h, hreal]
  rw [hmoved, hwalk]
  exact .deeper calls 1 fun _ => .pure v

mutual

/-- Relocation does not touch lines, also where the value itself may be a line number. -/
theorem relocate_mirrors (calls : Nat) (offset : Int) (name : Text) : ∀ v : Json,
    Relocation.Mirrors (Json.shiftMember offset name) (relocate settings files calls v)
      (relocate settings files calls (Json.shiftMember offset name v))
  | .arr items => by
    rw [Json.shiftMember_arr, relocate, relocate]
    refine .deeper calls 2 fun calls => ?_
    exact (relocateItems_mirrors calls offset items).map (Json.shiftMember_arr offset name)
  | .obj members => by
    rw [Json.shiftMember_obj, relocate, relocate]
    refine .deeper calls 1 fun calls => ?_
    exact (relocateMembers_mirrors calls offset members).map (Json.shiftMember_obj offset name)
  | .null | .bool _ | .int _ | .real _ | .str _ => by
    refine mirrors_of_scalar calls ?_ ?_ ?_ ?_ name
    all_goals simp [relocate, Json.mapMembers]

theorem relocateItems_mirrors (calls : Nat) (offset : Int) : ∀ items : List Json,
    Relocation.Mirrors (Json.mapMembersItems (Json.movedLine? offset))
      (relocateItems settings files calls items)
      (relocateItems settings files calls (Json.mapMembersItems (Json.movedLine? offset) items))
  | [] => .pure []
  | v :: rest => by
    have hv := relocate_mirrors calls offset [] v
    rw [Json.shiftMember_of_ne (by decide)] at hv
    rw [Json.mapMembersItems, relocateItems, relocateItems]
    refine hv.map₂ List.cons (relocateItems_mirrors calls offset rest) fun v rest => ?_
    rw [Json.mapMembersItems, Json.shiftMember_of_ne (by decide)]

theorem relocateMember_mirrors (calls : Nat) (offset : Int) (name : Text) : ∀ v : Json,
    Relocation.Mirrors (Json.shiftMember offset name) (relocateMember settings files calls name v)
      (relocateMember settings files calls name (Json.shiftMember offset name v))
  | .str uri => by
    have hscalar := Relocation.Mirrors.pure (f := Json.shiftMember offset name) (.str uri)
    rw [Json.shiftMember_str] at hscalar ⊢
    rw [relocateMember]
    split
    · exact (relocateUri_mirrors settings files uri).map (Json.shiftMember_str offset name)
    · exact .deeper calls 1 fun _ => hscalar
  | .obj members => by
    rw [Json.shiftMember_obj, relocateMember, relocateMember]
    refine .deeper calls 1 fun calls => ?_
    split
    · exact (relocateKeyed_mirrors calls offset [] members).map (Json.shiftMember_obj offset name)
    · exact (relocateMembers_mirrors calls offset members).map (Json.shiftMember_obj offset name)
  | .arr items => by
    rw [Json.shiftMember_arr, relocateMember, relocateMember]
    refine .deeper calls 2 fun calls => ?_
    exact (relocateItems_mirrors calls offset items).map (Json.shiftMember_arr offset name)
  | .null | .bool _ | .int _ | .real _ => by
    refine mirrors_of_scalar calls ?_ ?_ ?_ ?_ name
    all_goals simp [relocateMember, Json.mapMembers]

theorem relocateMembers_mirrors (calls : Nat) (offset : Int) : ∀ members : Members,
    Relocation.Mirrors (Json.shiftMembers offset) (relocateMembers settings files calls members)
      (relocateMembers settings files calls (Json.shiftMembers offset members))
  | [] => .pure []
  | (name, v) :: rest => by
    rw [Json.shiftMembers_cons, relocateMembers, relocateMembers]
    exact (relocateMember_mirrors calls offset name v).map₂ (fun v rest => (name, v) :: rest)
      (relocateMembers_mirrors calls offset rest)
      fun v rest => Json.shiftMembers_cons offset name v rest

theorem relocateKeyed_mirrors (calls : Nat) (offset : Int) : ∀ done members : Members,
    Relocation.Mirrors (Json.shiftMembers offset) (relocateKeyed settings files calls done members)
      (relocateKeyed settings files calls (Json.shiftMembers offset done)
        (Json.shiftMembers offset members))
  | done, [] => .pure done
  | done, (uri, v) :: rest => by
    rw [Json.shiftMembers_cons, relocateKeyed, relocateKeyed]
    refine (relocateUri_mirrors settings files uri).bind
      (fun map log relocated hmap => relocateUri_line_iff settings files hmap)
      fun relocated hrelocated => ?_
    -- Lines are told apart from other members by name, so the new name must do as the old one.
    have hname : ∀ v, Json.shiftMember offset relocated v = Json.shiftMember offset uri v := by
      intro v
      by_cases huri : uri = "line"
      · rw [hrelocated.mpr huri, huri]
      · rw [Json.shiftMember_of_ne huri, Json.shiftMember_of_ne (mt hrelocated.mp huri)]
    refine (relocate_mirrors calls offset uri v).bind (Q := fun _ => True) (fun _ _ _ _ _ => trivial)
      fun v' _ => ?_
    rw [id, ← hname, ← Json.shiftMembers_set]
    exact relocateKeyed_mirrors calls offset _ rest

end

/-! ## Messages -/

theorem isResponse_shiftMembers (offset : Int) (message : Members) :
    isResponse (Json.shiftMembers offset message) = isResponse message := by
  rw [isResponse, Json.has, Json.get?_shiftMembers offset (by decide), Option.isSome_map,
    isResponse, Json.has]

theorem subjectName_shiftMembers (offset : Int) (message : Members) :
    subjectName (Json.shiftMembers offset message) = subjectName message := by
  rw [subjectName, isResponse_shiftMembers, subjectName]

theorem subjectName_ne_line (message : Members) : subjectName message ≠ "line" := by
  unfold subjectName
  split <;> decide

theorem subject_shiftMembers (offset : Int) (message : Members) :
    subject (Json.shiftMembers offset message) = (subject message).shiftLines offset := by
  rw [subject, subjectName_shiftMembers,
    Json.get?_shiftMembers offset (subjectName_ne_line message), subject]
  cases Json.get? (subjectName message) message with
  | none =>
    rw [Option.map_none, Option.getD_none, Json.shiftLines_eq_mapMembers, Json.mapMembers]
    all_goals nofun
  | some about => rfl

theorem relocateKey_mirrors (offset : Int) (about : Json) :
    Relocation.Mirrors id (relocateKey settings files about)
      (relocateKey settings files (about.shiftLines offset)) := by
  have hkey : relocateKey settings files (about.shiftLines offset)
      = relocateKey settings files about := by
    rw [relocateKey, Json.member?_shiftLines offset (by decide), relocateKey]
    cases about.member? "uri" with
    | none => rfl
    | some v => cases v <;> simp [Json.shiftLines_eq_mapMembers, Json.mapMembers]
  rw [hkey, relocateKey]
  split
  · rename_i uri _
    exact (relocateUri_mirrors settings files uri).map fun _ => rfl
  · exact .pure none

theorem relocateSubject_eq (calls : Nat) (message : Members) :
    relocateSubject settings files calls message = if subject message = .null then pure message
      else (Json.set (subjectName message) · message)
        <$> relocate settings files calls (subject message) := by
  rw [relocateSubject]
  split
  · rename_i hnull
    rw [if_pos hnull]
  · rename_i hnull
    rw [if_neg hnull, map_eq_pure_bind]

theorem relocateSubject_mirrors (calls : Nat) (offset : Int) (message : Members) :
    Relocation.Mirrors (Json.shiftMembers offset) (relocateSubject settings files calls message)
      (relocateSubject settings files calls (Json.shiftMembers offset message)) := by
  have hnull : (subject message).shiftLines offset = .null ↔ subject message = .null := by
    cases subject message <;> simp [Json.shiftLines_eq_mapMembers, Json.mapMembers]
  rw [relocateSubject_eq, relocateSubject_eq, subject_shiftMembers, subjectName_shiftMembers]
  simp only [hnull]
  split
  · exact .pure message
  · have hname := subjectName_ne_line message
    have habout :=
      relocate_mirrors settings files calls offset (subjectName message) (subject message)
    rw [Json.shiftMember_of_ne hname, ← Json.shiftLines_eq_mapMembers] at habout
    refine habout.map fun about => ?_
    rw [Json.shiftMembers_set]

theorem relocateMessage_mirrors (calls : Nat) (offset : Int) (message : Members) :
    Relocation.Mirrors (fun (key, relocated) => (key, Json.shiftMembers offset relocated))
      (relocateMessage settings files calls message)
      (relocateMessage settings files calls (Json.shiftMembers offset message)) := by
  rw [relocateMessage, relocateMessage, subject_shiftMembers]
  exact (relocateKey_mirrors settings files offset (subject message)).map₂ Prod.mk
    (relocateSubject_mirrors settings files calls offset message) fun _ _ => rfl

end Relocate

theorem translate_shiftMembers {s : Session} (hs : UriMap.OfFiles s.uris) (offset : Int)
    (message : Members) :
    translate (Json.shiftMembers offset message) s
      = ((translate message s).1, (translate message s).2.map fun (key, relocated) =>
          (key, Json.shiftMembers offset relocated)) ∧
      UriMap.OfFiles (translate message s).1.uris := by
  obtain ⟨hwalk, hkept⟩ :=
    relocateMessage_mirrors s.settings s.files s.limits.relocating offset message s.uris [] hs
  refine ⟨?_, hkept⟩
  simp only [translate]
  rw [hwalk]
  rcases (relocateMessage s.settings s.files s.limits.relocating message).run.run (s.uris, []) with
    ⟨e | a, st⟩ <;> rfl

/-- A message that was translated was walked through. The walk leaves a map, and further records. -/
theorem run_of_translate {message relocated : Members} {s : Session} {key : Option Text}
    (h : (translate message s).2 = .ok (key, relocated)) :
    ∃ later log, (relocateMessage s.settings s.files s.limits.relocating message).run.run
        (s.uris, []) = (.ok (key, relocated), later, log) ∧
      (translate message s).1 = { s with uris := later, log := s.log ++ log } := by
  rcases hrun : (relocateMessage s.settings s.files s.limits.relocating message).run.run
    (s.uris, []) with ⟨e | found, later, log⟩
  · simp only [translate, hrun] at h
    cases h
  · simp only [translate, hrun] at h
    obtain rfl := Except.ok.inj h
    refine ⟨later, log, rfl, ?_⟩
    simp only [translate, hrun]
    rfl

/-- The walk looks at the document that the message is about, and then at all of its subject. -/
theorem translate_run {message relocated : Members} {s : Session} {key : Option Text}
    (h : (translate message s).2 = .ok (key, relocated)) :
    ∃ st st', (relocateKey s.settings s.files (subject message)).run.run (s.uris, [])
        = (.ok key, st) ∧
      (relocateSubject s.settings s.files s.limits.relocating message).run.run st
        = (.ok relocated, st') := by
  obtain ⟨later, log, hrun, -⟩ := run_of_translate h
  rw [relocateMessage] at hrun
  obtain ⟨key', st, hkey, hrun⟩ := Relocation.run_bind_ok hrun
  obtain ⟨relocated', st', hsubject, ⟨⟩⟩ := Relocation.run_bind_ok hrun
  exact ⟨st, _, hkey, hsubject⟩

end Session

end SfcProxy
