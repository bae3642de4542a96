import SfcProxy.Proofs.Recency
import SfcProxy.Proofs.Rediscovery
import SfcProxy.Proofs.UriKinds

/-!
# What the URI map remembers

The map holds the generated URIs that were used last, as many as its bound allows: those that were
registered, recalled, or looked up with success. A search is made only for a URI that is not held,
in the files as they are then. What it finds is remembered, and that it finds nothing is not, so
the next lookup searches again. The empty URI is never looked up, even if it is held.

## Main definitions

* `UriMap.Call`, `UriMap.after`: calls, and the map after some of them
* `UriMap.Touch`, `UriMap.trace`: the keys that calls use, with the components that they learn
* `UriMap.lastComponent?`: the component that a trace leaves under a key
* `UriMap.HoldsRecent`: the map is the one that the trace determines, and so are its answers

## Main results

* `UriMap.follows_after`: the map after any calls
* `UriMap.holds_recent`: what it holds and what it answers
-/

namespace SfcProxy

namespace Lru

variable {α β : Type} [DecidableEq α]

/-- Writing an entry makes the trace longer by its key, whatever was dropped before. -/
theorem trim_insert_ofTrace (bound : Nat) (value : α → β) (trace : List α) (key : α) (v : β) :
    (((ofTrace value trace).trim bound).insert key v).trim bound
      = (ofTrace (Function.update value key v) (trace ++ [key])).trim bound := by
  have hnewest := (newest_trim bound (ofTrace value trace)).insert (nodup_keys_ofTrace value trace)
    key v
  rw [hnewest.trim_eq, insert_ofTrace]

end Lru

namespace UriMap

/-! ## Calls -/

/-- A use of the map from outside, with the files as they are then. -/
inductive Call where
  | register (generated component : Text)
  | cached (generated : Text)
  | toComponent (tree : FileTree) (generated : Text)

/-- The map after a call. -/
def afterCall (settings : Settings) (map : UriMap) : Call → UriMap
  | .register generated component => (map.register settings generated component).map
  | .cached generated => (map.cached generated).2
  | .toComponent tree generated => (map.toComponent settings tree generated).map

/-- The map after calls, from an empty one on. -/
def after (settings : Settings) (calls : List Call) : UriMap :=
  calls.foldl (afterCall settings) []

/-! ## What calls determine -/

/-- A key that is used, with the component that is learnt for it; one that is recalled is known
already. -/
structure Touch where
  key : Text
  learnt : Option Text
  deriving DecidableEq

/-- The last distinct keys of a trace, as many as a bound allows, oldest first. -/
def recent (bound : Nat) (trace : List Touch) : List Text :=
  Lru.recent bound (trace.map Touch.key)

/-- The component that a trace leaves under a key. -/
def lastComponent? (trace : List Touch) (key : Text) : Option Text :=
  trace.reverse.findSome? fun touch => if touch.key = key then touch.learnt else none

/-- What a call uses behind a trace: the key that is registered, a key that is recalled, or one for
which a search finds something. -/
def touch? (settings : Settings) (bound : Nat) (trace : List Touch) : Call → Option Touch
  | .register generated component => some ⟨generated, some component⟩
  | .cached generated => if generated ∈ recent bound trace then some ⟨generated, none⟩ else none
  | .toComponent tree generated =>
    if generated = [] then none
    else if generated ∈ recent bound trace then some ⟨generated, none⟩
    else match discovery settings tree generated with
      | .ok (some component) => some ⟨generated, some component⟩
      | _ => none

/-- What calls use, one after the other. -/
def trace (settings : Settings) (bound : Nat) (calls : List Call) : List Touch :=
  calls.foldl (fun trace call => trace ++ (touch? settings bound trace call).toList) []

variable {settings : Settings} {bound : Nat} {calls : List Call}

theorem after_concat (settings : Settings) (calls : List Call) (call : Call) :
    after settings (calls ++ [call]) = afterCall settings (after settings calls) call := by
  rw [after, List.foldl_concat, after]

theorem trace_concat (settings : Settings) (bound : Nat) (calls : List Call) (call : Call) :
    trace settings bound (calls ++ [call]) = trace settings bound calls ++
      (touch? settings bound (trace settings bound calls) call).toList := by
  rw [trace, List.foldl_concat, trace]

theorem lastComponent?_concat (trace : List Touch) (touch : Touch) (key : Text) :
    lastComponent? (trace ++ [touch]) key
      = (if touch.key = key then touch.learnt else none).or (lastComponent? trace key) := by
  rw [lastComponent?, List.reverse_concat, List.findSome?_cons, lastComponent?]
  split <;> simp_all

/-! ## The entries of a trace -/

/-- The entries that a trace determines: its last distinct keys with the components it leaves. -/
def entriesOf (bound : Nat) (trace : List Touch) : UriMap :=
  (Lru.ofTrace (fun key => (lastComponent? trace key).getD []) (trace.map Touch.key)).trim bound

/-- Every key of a trace was learnt at some time. -/
def Learnt (trace : List Touch) : Prop :=
  ∀ key ∈ trace.map Touch.key, (lastComponent? trace key).isSome

theorem get?_entriesOf {trace : List Touch} (h : Learnt trace) (bound : Nat) (key : Text) :
    (entriesOf bound trace).get? key
      = if key ∈ recent bound trace then lastComponent? trace key else none := by
  rw [entriesOf, Lru.get?_trim_ofTrace, recent]
  split
  · rename_i hrecent
    obtain ⟨component, hcomponent⟩ :=
      Option.isSome_iff_exists.mp (h key (Lru.mem_of_mem_recent hrecent))
    rw [hcomponent, Option.getD_some]
  · rfl

theorem keys_entriesOf (bound : Nat) (trace : List Touch) :
    (entriesOf bound trace).map (·.1) = recent bound trace := by
  rw [entriesOf, Lru.trim_ofTrace, List.map_map]
  exact List.map_id _

/-- An entry is that of a recent key, with the component that the trace leaves. -/
theorem mem_entriesOf {trace : List Touch} (h : Learnt trace) {entry : Text × Text}
    (hentry : entry ∈ entriesOf bound trace) :
    entry.1 ∈ recent bound trace ∧ lastComponent? trace entry.1 = some entry.2 := by
  have hrecent : entry.1 ∈ recent bound trace := keys_entriesOf bound trace ▸
    List.mem_map_of_mem hentry
  refine ⟨hrecent, ?_⟩
  rw [entriesOf, Lru.trim_ofTrace] at hentry
  obtain ⟨key, -, rfl⟩ := List.mem_map.mp hentry
  obtain ⟨component, hcomponent⟩ :=
    Option.isSome_iff_exists.mp (h key (Lru.mem_of_mem_recent hrecent))
  rw [hcomponent, Option.getD_some]

theorem Learnt.concat {trace : List Touch} (h : Learnt trace) {touch : Touch}
    (htouch : touch.learnt = none → touch.key ∈ trace.map Touch.key) :
    Learnt (trace ++ [touch]) := by
  intro key hkey
  rw [lastComponent?_concat, Option.isSome_or]
  rw [List.map_append, List.map_singleton, List.mem_append, List.mem_singleton] at hkey
  rcases hkey with hkey | rfl
  · rw [h key hkey, Bool.or_true]
  · rw [if_pos rfl]
    cases hlearnt : touch.learnt with
    | none => rw [h _ (htouch hlearnt), Bool.or_true]
    | some component => rfl

/-- Learning a component. -/
theorem entriesOf_learn (bound : Nat) (trace : List Touch) (key component : Text) :
    ((entriesOf bound trace).insert key component).trim bound
      = entriesOf bound (trace ++ [⟨key, some component⟩]) := by
  rw [entriesOf, Lru.trim_insert_ofTrace, entriesOf, List.map_append, List.map_singleton]
  congr 2
  funext other
  rw [lastComponent?_concat]
  by_cases hother : other = key
  · subst hother
    rw [Function.update_self, if_pos rfl]
    rfl
  · rw [Function.update_of_ne hother, if_neg (Ne.symm hother), Option.none_or]

/-- Recalling a component. -/
theorem entriesOf_recall {trace : List Touch} {key : Text} (h : key ∈ recent bound trace) :
    (entriesOf bound trace).insert key ((lastComponent? trace key).getD [])
      = entriesOf bound (trace ++ [⟨key, none⟩]) := by
  have hsame : lastComponent? (trace ++ [⟨key, none⟩]) = lastComponent? trace := by
    funext other
    rw [lastComponent?_concat, ite_self, Option.none_or]
  rw [entriesOf, entriesOf, hsame, List.map_append, List.map_singleton]
  exact Lru.insert_trim_ofTrace h

theorem use?_of_mem_recent {trace : List Touch} (h : Learnt trace) {key : Text}
    (hrecent : key ∈ recent bound trace) : ∃ component, lastComponent? trace key = some component ∧
      (entriesOf bound trace).use? key
        = some (component, entriesOf bound (trace ++ [⟨key, none⟩])) := by
  obtain ⟨component, hcomponent⟩ :=
    Option.isSome_iff_exists.mp (h key (Lru.mem_of_mem_recent hrecent))
  refine ⟨component, hcomponent, ?_⟩
  rw [Lru.use?, get?_entriesOf h, if_pos hrecent, ← entriesOf_recall hrecent, hcomponent]
  rfl

theorem use?_of_notMem_recent {trace : List Touch} (h : Learnt trace) {key : Text}
    (hrecent : key ∉ recent bound trace) : (entriesOf bound trace).use? key = none := by
  rw [Lru.use?, get?_entriesOf h, if_neg hrecent]
  rfl

/-! ## One call -/

theorem register_entriesOf (hbound : settings.maxTracked = bound) (trace : List Touch)
    (generated component : Text) :
    ((entriesOf bound trace).register settings generated component).outcome = .ok () ∧
      ((entriesOf bound trace).register settings generated component).map
        = entriesOf bound (trace ++ [⟨generated, some component⟩]) := by
  have hkept : Lru.boundError? settings.maxTracked = none := by
    rw [hbound, Lru.boundError?, if_neg (Int.not_lt.mpr (Int.natCast_nonneg bound))]
  rw [register, hkept, hbound, entriesOf_learn]
  exact ⟨rfl, rfl⟩

/-- Recalling: a key that is held is answered with its component. -/
theorem cached_entriesOf {trace : List Touch} (h : Learnt trace) (generated : Text) :
    ((entriesOf bound trace).cached generated).1
        = (if generated ∈ recent bound trace then lastComponent? trace generated else none) ∧
      ((entriesOf bound trace).cached generated).2
        = entriesOf bound
          (trace ++ (touch? settings bound trace (.cached generated)).toList) := by
  rw [cached, touch?]
  by_cases hrecent : generated ∈ recent bound trace
  · obtain ⟨component, hcomponent, huse⟩ := use?_of_mem_recent h hrecent
    rw [huse, if_pos hrecent, if_pos hrecent, hcomponent]
    exact ⟨rfl, rfl⟩
  · rw [use?_of_notMem_recent h hrecent, if_neg hrecent, if_neg hrecent, Option.toList_none,
      List.append_nil]
    exact ⟨rfl, rfl⟩

/-- Looking up: a key that is held is answered with its component, whatever the files are, and any
other URI by a search. The empty URI has no component. -/
theorem toComponent_entriesOf (hbound : settings.maxTracked = bound) {trace : List Touch}
    (h : Learnt trace) (tree : FileTree) (generated : Text) :
    ((entriesOf bound trace).toComponent settings tree generated).outcome
        = (if generated = [] then .ok none
          else if generated ∈ recent bound trace then .ok (lastComponent? trace generated)
          else discovery settings tree generated) ∧
      ((entriesOf bound trace).toComponent settings tree generated).map
        = entriesOf bound
          (trace ++ (touch? settings bound trace (.toComponent tree generated)).toList) := by
  rw [UriMap.toComponent, touch?]
  by_cases hempty : generated = []
  · rw [if_pos (List.isEmpty_iff.mpr hempty), if_pos hempty, if_pos hempty, Option.toList_none,
      List.append_nil]
    exact ⟨rfl, rfl⟩
  · rw [if_neg (mt List.isEmpty_iff.mp hempty), if_neg hempty, if_neg hempty]
    by_cases hrecent : generated ∈ recent bound trace
    · obtain ⟨component, hcomponent, huse⟩ := use?_of_mem_recent h hrecent
      rw [huse, if_pos hrecent, if_pos hrecent, hcomponent]
      exact ⟨rfl, rfl⟩
    · -- What a search finds is learnt and becomes the newest entry.
      rw [use?_of_notMem_recent h hrecent, if_neg hrecent, if_neg hrecent]
      obtain ⟨houtcome, hmap⟩ := discover_eq settings tree generated (entriesOf bound trace)
      dsimp only
      rw [houtcome, hmap]
      rcases discovery settings tree generated with e | _ | component
      · exact ⟨rfl, by simp⟩
      · exact ⟨rfl, by simp⟩
      · obtain ⟨hregister, hentries⟩ := register_entriesOf hbound trace generated component
        dsimp only
        rw [hregister, hentries]
        exact ⟨rfl, rfl⟩

/-- A lookup without a component leaves the entries as they are. -/
theorem toComponent_entriesOf_of_missed (hbound : settings.maxTracked = bound)
    {trace : List Touch} (h : Learnt trace) {tree : FileTree} {generated : Text}
    (hnone : ∀ component, ((entriesOf bound trace).toComponent settings tree generated).outcome
      ≠ .ok (some component)) :
    ((entriesOf bound trace).toComponent settings tree generated).map = entriesOf bound trace := by
  obtain ⟨houtcome, hmap⟩ := toComponent_entriesOf hbound h tree generated
  rw [houtcome] at hnone
  rw [hmap, touch?]
  split
  · exact congrArg _ (List.append_nil _)
  · rename_i hempty
    rw [if_neg hempty] at hnone
    split
    · rename_i hrecent
      obtain ⟨component, hcomponent, -⟩ := use?_of_mem_recent h hrecent
      rw [if_pos hrecent, hcomponent] at hnone
      exact absurd rfl (hnone component)
    · rename_i hrecent
      rw [if_neg hrecent] at hnone
      split
      · rename_i component hfound
        exact absurd hfound (hnone component)
      · exact congrArg _ (List.append_nil _)

theorem Learnt.touch {trace : List Touch} (h : Learnt trace) (settings : Settings) (bound : Nat)
    (call : Call) : Learnt (trace ++ (touch? settings bound trace call).toList) := by
  cases htouch : touch? settings bound trace call with
  | none => rwa [Option.toList_none, List.append_nil]
  | some touch =>
    refine h.concat fun hlearnt => ?_
    have hrecent : touch.key ∈ recent bound trace := by
      cases call with
      | register generated component =>
        obtain rfl := Option.some.inj htouch
        cases hlearnt
      | cached generated =>
        rw [touch?] at htouch
        split at htouch
        · obtain rfl := Option.some.inj htouch
          assumption
        · cases htouch
      | toComponent tree generated =>
        rw [touch?] at htouch
        split at htouch
        · cases htouch
        · split at htouch
          · obtain rfl := Option.some.inj htouch
            assumption
          · split at htouch
            · obtain rfl := Option.some.inj htouch
              cases hlearnt
            · cases htouch
    exact Lru.mem_of_mem_recent hrecent

/-! ## Many calls -/

/-- The map after any calls holds the entries that their trace determines. -/
theorem follows_after (hbound : settings.maxTracked = bound) (calls : List Call) :
    after settings calls = entriesOf bound (trace settings bound calls) ∧
      Learnt (trace settings bound calls) := by
  induction calls using List.reverseRecOn with
  | nil => exact ⟨List.drop_nil.symm, nofun⟩
  | append_singleton calls call ih =>
    obtain ⟨hafter, hlearnt⟩ := ih
    rw [after_concat, trace_concat, hafter]
    refine ⟨?_, hlearnt.touch settings bound call⟩
    cases call with
    | register generated component => exact (register_entriesOf hbound _ generated component).2
    | cached generated => exact (cached_entriesOf hlearnt generated).2
    | toComponent tree generated => exact (toComponent_entriesOf hbound hlearnt tree generated).2

/-- The map after calls is the one that their trace determines, and so are its answers. -/
structure HoldsRecent (settings : Settings) (bound : Nat) (calls : List Call) : Prop where
  /-- It holds the last distinct keys of the trace, oldest first. -/
  keys : (after settings calls).map (·.1) = recent bound (trace settings bound calls)
  /-- Each is there with the component that was last registered or discovered. -/
  components : ∀ entry ∈ after settings calls,
    lastComponent? (trace settings bound calls) entry.1 = some entry.2
  cached_held : ∀ entry ∈ after settings calls,
    ((after settings calls).cached entry.1).1 = some entry.2
  cached_missed : ∀ generated, generated ∉ recent bound (trace settings bound calls) →
    (after settings calls).cached generated = (none, after settings calls)
  /-- A key that is held is answered with its component, whatever the files are. -/
  looked_up_held : ∀ entry ∈ after settings calls, entry.1 ≠ [] → ∀ tree,
    ((after settings calls).toComponent settings tree entry.1).outcome = .ok (some entry.2)
  /-- Any other URI is answered by a search in the files as they are. -/
  looked_up_searched : ∀ generated, generated ∉ recent bound (trace settings bound calls) →
    ∀ tree, ((after settings calls).toComponent settings tree generated).outcome
      = discovery settings tree generated
  /-- A lookup without a component is not remembered. -/
  looked_up_missed : ∀ tree generated, (∀ component,
    ((after settings calls).toComponent settings tree generated).outcome ≠ .ok (some component)) →
      ((after settings calls).toComponent settings tree generated).map = after settings calls
  /-- The empty URI has no component, even if it is held. -/
  looked_up_empty : ∀ tree,
    ((after settings calls).toComponent settings tree []).outcome = .ok none

/-- **The map holds what was used last**, and searches for nothing else than what it does not
hold. -/
theorem holds_recent (hbound : settings.maxTracked = bound) (calls : List Call) :
    HoldsRecent settings bound calls := by
  obtain ⟨hafter, hlearnt⟩ := follows_after hbound calls
  have hcached := @cached_entriesOf settings bound _ hlearnt
  have hlookup := toComponent_entriesOf hbound hlearnt
  rw [← hafter] at hcached hlookup
  have hentries : ∀ entry ∈ after settings calls,
      entry.1 ∈ recent bound (trace settings bound calls) ∧
        lastComponent? (trace settings bound calls) entry.1 = some entry.2 := by
    rw [hafter]
    exact fun entry => mem_entriesOf hlearnt
  constructor
  case keys => rw [hafter, keys_entriesOf]
  case components => exact fun entry hentry => (hentries entry hentry).2
  case cached_held =>
    intro entry hentry
    obtain ⟨hrecent, hcomponent⟩ := hentries entry hentry
    rw [(hcached entry.1).1, if_pos hrecent, hcomponent]
  case cached_missed =>
    intro generated hmissed
    rw [hafter, cached, use?_of_notMem_recent hlearnt hmissed]
  case looked_up_held =>
    intro entry hentry hempty tree
    obtain ⟨hrecent, hcomponent⟩ := hentries entry hentry
    rw [(hlookup tree entry.1).1, if_neg hempty, if_pos hrecent, hcomponent]
  case looked_up_searched =>
    intro generated hmissed tree
    rw [(hlookup tree generated).1, if_neg hmissed]
    split
    · rename_i hempty
      rw [hempty]
      rfl
    · rfl
  case looked_up_missed =>
    intro tree generated hnone
    rw [hafter] at hnone ⊢
    exact toComponent_entriesOf_of_missed hbound hlearnt hnone
  case looked_up_empty =>
    intro tree
    rw [(hlookup tree []).1, if_pos rfl]

/-- A component that was not there at first, was found later, and outlives an older entry. -/
theorem holds_recent_found :
    let settings := { GeneratedFile.atRoot with maxTracked := 2 }
    let generated : Text := "file:///src/gen/forms/input.gleam"
    let calls : List Call := [.toComponent ⟨[], []⟩ generated, .register "b" "B",
      .toComponent GeneratedFile.capitals generated, .cached "b", .cached generated,
      .register "c" "C"]
    HoldsRecent settings 2 calls ∧
      after settings calls
        = [(generated, ("file:///src/Forms/Input.vue" : Text)), ("c", ("C" : Text))] :=
  ⟨holds_recent rfl _, by decide +kernel⟩

/-- The empty URI is not looked up, though it is held. -/
theorem empty_uri_without_answer :
    after GeneratedFile.atRoot [.register [] "file:///src/A.vue"]
        = [([], ("file:///src/A.vue" : Text))] ∧
      ∀ tree, (toComponent GeneratedFile.atRoot tree []
        (after GeneratedFile.atRoot [.register [] "file:///src/A.vue"])).outcome = .ok none :=
  ⟨by decide +kernel, fun _ => rfl⟩

end UriMap

end SfcProxy
