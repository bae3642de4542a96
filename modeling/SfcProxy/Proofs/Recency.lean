import Mathlib.Data.List.Dedup
import Mathlib.Data.List.DropRight
import SfcProxy.Proofs.Ledger

/-!
# The order of last use

A map with recent entries is determined by the keys that were used, one after the other: it holds
the last distinct ones, as many as its bound allows, in the order of their last use. It makes no
difference that entries are dropped at some times and not at others, since an entry that is dropped
once would be dropped later as well.

For the ledger, recording an offset uses the key of the document and then that of the request, and
looking one up uses the first of the two keys that is there, if any. So what a ledger holds, and
what it answers, can be read off from the calls that were made.

## Main definitions

* `Lru.recent`: the last distinct keys of a trace
* `Lru.ofTrace`: all keys of a trace with their values
* `Lru.Newest`: the newest entries of a map
* `Ledger.Call`, `Ledger.after`: calls, and the ledger after some of them
* `Ledger.trace`, `Ledger.lastOffset?`: the keys that calls use, and the offset that they leave
* `Ledger.OfTrace`: the ledger is the one that the trace determines

## Main results

* `Lru.Newest.insert`, `Lru.Newest.trim_eq`: what is dropped early would be dropped later
* `Lru.insert_ofTrace`: using a key makes the trace longer by it
* `Ledger.lookup_eq_findSome?`: a lookup finds the first key that is there
* `Ledger.ofTrace_after`: the ledger after any calls
-/

namespace SfcProxy

namespace Lru

variable {α β : Type} [DecidableEq α]

/-! ## The newest entries -/

omit [DecidableEq α] in
theorem trim_of_length_le {bound : Nat} {entries : Lru α β} (h : entries.length ≤ bound) :
    entries.trim bound = entries := by
  rw [trim, Int.toNat_natCast, Nat.sub_eq_zero_of_le h, List.drop_zero]

/-- The newest entries of a map: all of them, or at least as many as a bound leaves. -/
structure Newest (bound : Nat) (kept all : Lru α β) : Prop where
  suffix : kept <:+ all
  enough : kept = all ∨ bound ≤ kept.length

omit [DecidableEq α] in
theorem newest_trim (bound : Nat) (all : Lru α β) : Newest bound (all.trim bound) all := by
  refine ⟨List.drop_suffix _ _, ?_⟩
  rcases Nat.le_total all.length bound with hle | hle
  · exact .inl (trim_of_length_le hle)
  · right
    rw [trim, Int.toNat_natCast, List.length_drop]
    omega

omit [DecidableEq α] in
/-- A bound leaves the same of the newest entries as of all. -/
theorem Newest.trim_eq {bound : Nat} {kept all : Lru α β} (h : Newest bound kept all) :
    kept.trim bound = all.trim bound := by
  rcases h.enough with rfl | hlong
  · rfl
  · obtain ⟨front, rfl⟩ := h.suffix
    have hdrop : (front ++ kept).length - bound = front.length + (kept.length - bound) := by
      rw [List.length_append]
      omega
    rw [trim, trim, Int.toNat_natCast, hdrop, List.drop_length_add_append]

theorem keys_insert (key : α) (value : β) (entries : Lru α β) :
    (entries.insert key value).map (·.1) = (entries.map (·.1)).filter (· ≠ key) ++ [key] := by
  rw [insert, List.map_append, List.filter_map]
  rfl

theorem nodup_keys_insert {entries : Lru α β} (h : (entries.map (·.1)).Nodup) (key : α)
    (value : β) : ((entries.insert key value).map (·.1)).Nodup := by
  rw [keys_insert]
  refine (h.filter _).append (List.nodup_singleton key) ?_
  simp

/-- At most one entry gives way to the one that is written. -/
theorem length_le_length_insert {entries : Lru α β} (h : (entries.map (·.1)).Nodup) (key : α)
    (value : β) : entries.length ≤ (entries.insert key value).length := by
  have herase : (entries.map (·.1)).filter (· ≠ key) = (entries.map (·.1)).erase key := by
    rw [h.erase_eq_filter]
    congr 1
    funext other
    rw [bne, beq_eq_decide, decide_not]
  have hone := List.le_length_erase (l := entries.map (·.1)) (a := key)
  rw [List.length_map] at hone
  have hlength := congrArg List.length (keys_insert key value entries)
  rw [List.length_map, List.length_append, herase, List.length_singleton] at hlength
  omega

/-- What is dropped early would be dropped later: the newest entries are still the newest when an
entry is written. -/
theorem Newest.insert {bound : Nat} {kept all : Lru α β} (h : Newest bound kept all)
    (hall : (all.map (·.1)).Nodup) (key : α) (value : β) :
    Newest bound (kept.insert key value) (all.insert key value) := by
  obtain ⟨front, rfl⟩ := h.suffix
  refine ⟨⟨front.filter (·.1 ≠ key), ?_⟩, ?_⟩
  · rw [Lru.insert, Lru.insert, List.filter_append, List.append_assoc]
  · rcases h.enough with heq | hlong
    · exact .inl (congrArg (Lru.insert key value) heq)
    · rw [List.map_append] at hall
      exact .inr (Nat.le_trans hlong (length_le_length_insert hall.of_append_right key value))

/-- The map with one value written under keys, one after the other. -/
def insertAll (keys : List α) (value : β) (entries : Lru α β) : Lru α β :=
  keys.foldl (fun entries key => entries.insert key value) entries

theorem Newest.insertAll {bound : Nat} {kept all : Lru α β} (h : Newest bound kept all)
    (hall : (all.map (·.1)).Nodup) (keys : List α) (value : β) :
    Newest bound (kept.insertAll keys value) (all.insertAll keys value) := by
  induction keys generalizing kept all with
  | nil => exact h
  | cons key keys ih =>
    exact ih (h.insert hall key value) (nodup_keys_insert hall key value)

/-! ## Traces -/

/-- The last distinct keys of a trace, as many as a bound allows, in the order of their last use. -/
def recent (bound : Nat) (trace : List α) : List α :=
  trace.dedup.rtake bound

/-- All keys of a trace with their values, in the order of their last use. -/
def ofTrace (value : α → β) (trace : List α) : Lru α β :=
  trace.dedup.map fun key => (key, value key)

theorem dedup_concat (trace : List α) (key : α) :
    (trace ++ [key]).dedup = trace.dedup.filter (· ≠ key) ++ [key] := by
  induction trace with
  | nil => rfl
  | cons other trace ih =>
    rw [List.cons_append, List.dedup_cons, List.dedup_cons, ih]
    by_cases hmem : other ∈ trace
    · rw [if_pos hmem, if_pos (List.mem_append_left _ hmem)]
    · by_cases hkey : other = key
      · subst hkey
        simp [hmem]
      · simp [hmem, hkey]

/-- Using a key makes the trace longer by it. -/
theorem insert_ofTrace (value : α → β) (trace : List α) (key : α) (v : β) :
    (ofTrace value trace).insert key v
      = ofTrace (Function.update value key v) (trace ++ [key]) := by
  rw [ofTrace, ofTrace, dedup_concat, insert, List.map_append, List.filter_map]
  congr 1
  · refine List.map_congr_left fun other hother => ?_
    have hne : other ≠ key := by simpa using (List.mem_filter.mp hother).2
    rw [Function.update_of_ne hne]
  · rw [List.map_singleton, Function.update_self]

theorem insertAll_ofTrace (value : α → β) (trace keys : List α) (v : β) :
    (ofTrace value trace).insertAll keys v
      = ofTrace (fun key => if key ∈ keys then v else value key) (trace ++ keys) := by
  induction keys generalizing value trace with
  | nil => simp [insertAll]
  | cons key keys ih =>
    have hstep := ih (Function.update value key v) (trace ++ [key])
    rw [← insert_ofTrace, List.append_assoc, List.singleton_append] at hstep
    refine hstep.trans (congrArg (ofTrace · _) (funext fun other => ?_))
    by_cases hmem : other ∈ keys
    · simp [hmem]
    · by_cases hkey : other = key
      · simp [hkey]
      · simp [hmem, hkey]

theorem keys_ofTrace (value : α → β) (trace : List α) :
    (ofTrace value trace).map (·.1) = trace.dedup := by
  rw [ofTrace, List.map_map]
  exact List.map_id _

theorem nodup_keys_ofTrace (value : α → β) (trace : List α) :
    ((ofTrace value trace).map (·.1)).Nodup := by
  rw [keys_ofTrace]
  exact trace.nodup_dedup

theorem trim_ofTrace (bound : Nat) (value : α → β) (trace : List α) :
    (ofTrace value trace).trim bound = (recent bound trace).map fun key => (key, value key) := by
  rw [ofTrace, trim, recent, List.rtake, List.length_map, Int.toNat_natCast, List.map_drop]

theorem get?_trim_ofTrace (bound : Nat) (value : α → β) (trace : List α) (key : α) :
    ((ofTrace value trace).trim bound).get? key
      = if key ∈ recent bound trace then some (value key) else none := by
  rw [trim_ofTrace]
  induction recent bound trace with
  | nil => rfl
  | cons other keys ih =>
    rw [get?] at ih ⊢
    by_cases hkey : other = key
    · subst hkey
      simp
    · rw [List.map_cons, List.find?_cons_of_neg (by simpa using hkey), ih]
      simp [Ne.symm hkey]

theorem length_recent_le (bound : Nat) (trace : List α) : (recent bound trace).length ≤ bound := by
  rw [recent, List.rtake, List.length_drop]
  omega

theorem mem_of_mem_recent {bound : Nat} {trace : List α} {key : α} (h : key ∈ recent bound trace) :
    key ∈ trace :=
  List.mem_dedup.mp (List.mem_of_mem_drop h)

/-- Finding an entry makes it the newest and drops none. -/
theorem insert_trim_ofTrace {bound : Nat} {value : α → β} {trace : List α} {key : α}
    (h : key ∈ recent bound trace) :
    ((ofTrace value trace).trim bound).insert key (value key)
      = (ofTrace value (trace ++ [key])).trim bound := by
  have hnewest := (newest_trim bound (ofTrace value trace)).insert (nodup_keys_ofTrace value trace)
    key (value key)
  rw [insert_ofTrace, Function.update_eq_self] at hnewest
  rw [← hnewest.trim_eq]
  refine (trim_of_length_le ?_).symm
  have hkeys : ((ofTrace value trace).trim bound).map (·.1) = recent bound trace := by
    rw [trim_ofTrace, List.map_map]
    exact List.map_id _
  have hshorter : ((recent bound trace).filter (· ≠ key)).length < (recent bound trace).length :=
    List.length_filter_lt_length_iff_exists.mpr ⟨key, h, by simp⟩
  have hbound := length_recent_le bound trace
  rw [← List.length_map (·.1), keys_insert, hkeys, List.length_append, List.length_singleton]
  omega

end Lru

namespace Ledger

/-! ## Calls -/

/-- A use of the ledger from outside. -/
inductive Call where
  | record (offset : Int) (uri : Option Text) (origin : Origin) (id : Json)
  | lookup (uri : Option Text) (origin : Origin) (id : Json)

/-- The keys of a document and a request, in this order; an empty URI and a null id have none. -/
def keysOf (uri : Option Text) (origin : Origin) (id : Json) : List LedgerKey :=
  (documentKey? uri).toList ++
    ((RequestId.ofJson id).toOption.join.map (LedgerKey.request origin)).toList

/-- The id of a call can be one. -/
def Call.HasId : Call → Prop
  | .record _ _ _ id | .lookup _ _ id => IsId id

/-- The ledger after a call. -/
def afterCall (bound : Nat) (ledger : Ledger) : Call → Ledger
  | .record offset uri origin id => (ledger.record bound offset uri origin id).1
  | .lookup uri origin id =>
    match ledger.lookup uri origin id with
    | .ok (_, used) => used
    | .error _ => ledger

/-- The ledger after calls, from an empty one on. -/
def after (bound : Nat) (calls : List Call) : Ledger :=
  calls.foldl (afterCall bound) []

/-! ## What calls determine -/

/-- The keys that a call uses behind a trace: all keys of an offset that is recorded, and the first
key of a lookup that is among the recent ones. -/
def touched (bound : Nat) (trace : List LedgerKey) : Call → List LedgerKey
  | .record offset uri origin id => if offset < 0 then [] else keysOf uri origin id
  | .lookup uri origin id => ((keysOf uri origin id).find? (· ∈ Lru.recent bound trace)).toList

/-- The keys that calls use, one after the other. -/
def trace (bound : Nat) (calls : List Call) : List LedgerKey :=
  calls.foldl (fun trace call => trace ++ touched bound trace call) []

/-- The offset that a call writes under a key. -/
def Call.writes? (key : LedgerKey) : Call → Option Int
  | .record offset uri origin id =>
    if 0 ≤ offset ∧ key ∈ keysOf uri origin id then some offset else none
  | .lookup _ _ _ => none

/-- The offset of the latest call that wrote a key. -/
def lastOffset? (calls : List Call) (key : LedgerKey) : Option Int :=
  calls.reverse.findSome? (Call.writes? key)

theorem after_concat (bound : Nat) (calls : List Call) (call : Call) :
    after bound (calls ++ [call]) = afterCall bound (after bound calls) call := by
  rw [after, List.foldl_concat, after]

theorem trace_concat (bound : Nat) (calls : List Call) (call : Call) :
    trace bound (calls ++ [call])
      = trace bound calls ++ touched bound (trace bound calls) call := by
  rw [trace, List.foldl_concat, trace]

theorem lastOffset?_concat (calls : List Call) (call : Call) (key : LedgerKey) :
    lastOffset? (calls ++ [call]) key = (call.writes? key).or (lastOffset? calls key) := by
  rw [lastOffset?, List.reverse_concat, List.findSome?_cons, lastOffset?]
  cases call.writes? key <;> rfl

theorem lastOffset?_nonneg {calls : List Call} {key : LedgerKey} {offset : Int}
    (h : lastOffset? calls key = some offset) : 0 ≤ offset := by
  obtain ⟨call, -, hwrites⟩ := List.exists_of_findSome?_eq_some h
  cases call with
  | record other uri origin id =>
    rw [Call.writes?] at hwrites
    split at hwrites
    · rename_i hrecorded
      obtain rfl := Option.some.inj hwrites
      exact hrecorded.1
    · cases hwrites
  | lookup uri origin id => cases hwrites

/-! ## One call -/

variable {uri : Option Text} {origin : Origin} {id : Json}

/-- An offset is written under all of its keys before the bound is kept. -/
theorem record_eq_insertAll {offset : Int} (hoffset : 0 ≤ offset) (hid : IsId id) (bound : Nat)
    (ledger : Ledger) : (ledger.record bound offset uri origin id).1
      = (ledger.insertAll (keysOf uri origin id) offset).trim bound := by
  obtain ⟨id?, hid⟩ := hid
  rw [record, if_neg (Int.not_lt.mpr hoffset), keysOf, hid]
  cases documentKey? uri <;> cases id? <;> rfl

theorem record_of_neg {offset : Int} (hoffset : offset < 0) (bound : Int) (uri : Option Text)
    (origin : Origin) (id : Json) (ledger : Ledger) :
    ledger.record bound offset uri origin id = (ledger, some (.negativeOffset offset)) := by
  rw [record, if_pos hoffset]

/-- A lookup finds the first key that is there. -/
theorem lookup_eq_findSome? (hid : IsId id) (ledger : Ledger) :
    ledger.lookup uri origin id
      = .ok (match (keysOf uri origin id).findSome? fun key => ledger.use? key with
        | some (offset, used) => (some offset, used)
        | none => (none, ledger)) := by
  obtain ⟨id?, hid⟩ := hid
  have hrequest : ledger.lookupRequest origin id
      = .ok (match (id?.map (LedgerKey.request origin)).toList.findSome?
          fun key => ledger.use? key with
        | some (offset, used) => (some offset, used)
        | none => (none, ledger)) := by
    rw [lookupRequest, hid]
    cases id? with
    | none => rfl
    | some request =>
      dsimp only [Option.map_some, Option.toList_some]
      rw [List.findSome?_singleton]
      cases ledger.use? (LedgerKey.request origin request) <;> rfl
  rw [lookup, hrequest, keysOf, hid, List.findSome?_append]
  cases documentKey? uri with
  | none => rfl
  | some document =>
    rw [Option.bind_some, Option.toList_some, List.findSome?_singleton]
    rcases ledger.use? document with _ | ⟨offset, used⟩ <;> rfl

theorem findSome?_use?_trim_ofTrace (bound : Nat) (value : LedgerKey → Int)
    (trace keys : List LedgerKey) :
    (keys.findSome? fun key => ((Lru.ofTrace value trace).trim bound).use? key)
      = (keys.find? (· ∈ Lru.recent bound trace)).map fun key =>
        (value key, ((Lru.ofTrace value trace).trim bound).insert key (value key)) := by
  induction keys with
  | nil => rfl
  | cons key keys ih =>
    rw [List.findSome?_cons, Lru.use?, Lru.get?_trim_ofTrace]
    by_cases hrecent : key ∈ Lru.recent bound trace
    · rw [if_pos hrecent, List.find?_cons_of_pos (by simpa using hrecent)]
      rfl
    · rw [if_neg hrecent, List.find?_cons_of_neg (by simpa using hrecent)]
      exact ih

/-! ## Many calls -/

/-- The offset that calls leave under a key; zero if they wrote none. -/
def lastOffset (calls : List Call) (key : LedgerKey) : Int :=
  (lastOffset? calls key).getD 0

/-- The ledger holds what the trace of its calls determines, and every key of the trace was
written. -/
structure Follows (bound : Nat) (calls : List Call) : Prop where
  entries : after bound calls
    = (Lru.ofTrace (lastOffset calls) (trace bound calls)).trim bound
  written : ∀ key ∈ trace bound calls, (lastOffset? calls key).isSome

theorem Follows.record {bound : Nat} {calls : List Call} (h : Follows bound calls)
    (hid : IsId id) (offset : Int) (uri : Option Text) (origin : Origin) :
    Follows bound (calls ++ [.record offset uri origin id]) := by
  have hwrites : ∀ key, (Call.record offset uri origin id).writes? key
      = if 0 ≤ offset ∧ key ∈ keysOf uri origin id then some offset else none := fun _ => rfl
  by_cases hoffset : 0 ≤ offset
  · have htouched : touched bound (trace bound calls) (.record offset uri origin id)
        = keysOf uri origin id := if_neg (Int.not_lt.mpr hoffset)
    have hlast : lastOffset (calls ++ [.record offset uri origin id]) = fun key =>
        if key ∈ keysOf uri origin id then offset else lastOffset calls key := by
      funext key
      rw [lastOffset, lastOffset?_concat, hwrites]
      by_cases hkey : key ∈ keysOf uri origin id
      · simp [hoffset, hkey]
      · simp [hkey, lastOffset]
    constructor
    · have hnewest := (Lru.newest_trim bound (Lru.ofTrace (lastOffset calls)
        (trace bound calls))).insertAll (Lru.nodup_keys_ofTrace _ _) (keysOf uri origin id) offset
      rw [after_concat, afterCall, record_eq_insertAll hoffset hid, trace_concat, htouched, hlast,
        h.entries, hnewest.trim_eq, Lru.insertAll_ofTrace]
    · intro key hkey
      rw [trace_concat, htouched, List.mem_append] at hkey
      rw [lastOffset?_concat, hwrites]
      rcases hkey with hkey | hkey
      · rw [Option.isSome_or, h.written key hkey, Bool.or_true]
      · rw [if_pos ⟨hoffset, hkey⟩, Option.some_or]
        rfl
  · have htouched : touched bound (trace bound calls) (.record offset uri origin id) = [] :=
      if_pos (Int.not_le.mp hoffset)
    have hlast : lastOffset? (calls ++ [.record offset uri origin id]) = lastOffset? calls := by
      funext key
      rw [lastOffset?_concat, hwrites, if_neg (fun hboth => hoffset hboth.1), Option.none_or]
    constructor
    · have hsame : lastOffset (calls ++ [.record offset uri origin id]) = lastOffset calls := by
        funext key
        rw [lastOffset, hlast, lastOffset]
      rw [after_concat, afterCall, record_of_neg (Int.not_le.mp hoffset), trace_concat, htouched,
        List.append_nil, hsame]
      exact h.entries
    · rw [trace_concat, htouched, List.append_nil, hlast]
      exact h.written

/-- A lookup writes nothing: the key that it finds becomes the last one that was used. -/
theorem Follows.lookup {bound : Nat} {calls : List Call} (h : Follows bound calls)
    (hid : IsId id) (uri : Option Text) (origin : Origin) :
    Follows bound (calls ++ [.lookup uri origin id]) := by
  have hlast : lastOffset? (calls ++ [.lookup uri origin id]) = lastOffset? calls := by
    funext key
    rw [lastOffset?_concat, Call.writes?, Option.none_or]
  have hsame : lastOffset (calls ++ [.lookup uri origin id]) = lastOffset calls := by
    funext key
    rw [lastOffset, hlast, lastOffset]
  have hafter : after bound (calls ++ [.lookup uri origin id])
      = match (keysOf uri origin id).find? (· ∈ Lru.recent bound (trace bound calls)) with
        | some key => (after bound calls).insert key (lastOffset calls key)
        | none => after bound calls := by
    rw [after_concat, afterCall, lookup_eq_findSome? hid, h.entries, findSome?_use?_trim_ofTrace]
    cases (keysOf uri origin id).find? (· ∈ Lru.recent bound (trace bound calls)) <;> rfl
  have htouched : touched bound (trace bound calls) (.lookup uri origin id)
      = ((keysOf uri origin id).find? (· ∈ Lru.recent bound (trace bound calls))).toList := rfl
  cases hfind : (keysOf uri origin id).find? (· ∈ Lru.recent bound (trace bound calls)) with
  | none =>
    rw [hfind] at hafter htouched
    constructor
    · rw [hafter, trace_concat, htouched, Option.toList_none, List.append_nil, hsame]
      exact h.entries
    · rw [trace_concat, htouched, Option.toList_none, List.append_nil, hlast]
      exact h.written
  | some key =>
    have hrecent : key ∈ Lru.recent bound (trace bound calls) := by
      simpa using List.find?_some hfind
    rw [hfind] at hafter htouched
    constructor
    · rw [hafter, trace_concat, htouched, Option.toList_some, hsame, h.entries]
      exact Lru.insert_trim_ofTrace hrecent
    · intro other hother
      rw [trace_concat, htouched, Option.toList_some, List.mem_append, List.mem_singleton] at hother
      rw [hlast]
      rcases hother with hother | rfl
      · exact h.written other hother
      · exact h.written other (Lru.mem_of_mem_recent hrecent)

theorem follows_after (bound : Nat) {calls : List Call} (h : ∀ call ∈ calls, call.HasId) :
    Follows bound calls := by
  induction calls using List.reverseRecOn with
  | nil => exact ⟨by simp [after, trace, Lru.ofTrace, Lru.trim], nofun⟩
  | append_singleton calls call ih =>
    have hcalls := ih fun call hcall => h call (List.mem_append_left _ hcall)
    have hid := h call (List.mem_append_right _ (List.mem_singleton_self call))
    cases call with
    | record offset uri origin id => exact hcalls.record hid offset uri origin
    | lookup uri origin id => exact hcalls.lookup hid uri origin

theorem record_error {bound : Nat} {offset : Int} (hoffset : 0 ≤ offset) (hid : IsId id)
    (ledger : Ledger) : (ledger.record bound offset uri origin id).2 = none := by
  obtain ⟨id?, hid⟩ := hid
  have hbound : Lru.boundError? bound = none := if_neg (Int.not_lt.mpr (Int.natCast_nonneg bound))
  rw [record, if_neg (Int.not_lt.mpr hoffset), hid]
  exact congrArg (Option.map Error.bound) hbound

/-- The ledger after calls is the one that their trace determines, and so is what it answers. -/
structure OfTrace (bound : Nat) (calls : List Call) : Prop where
  /-- It holds the last distinct keys of the trace, oldest first. -/
  keys : (after bound calls).map (·.1) = Lru.recent bound (trace bound calls)
  /-- Each is there with the offset that was last written. -/
  offsets : ∀ entry ∈ after bound calls, lastOffset? calls entry.1 = some entry.2
  nonneg : ∀ entry ∈ after bound calls, 0 ≤ entry.2
  size : (after bound calls).length ≤ bound
  /-- An offset of a document that is there is found, or else that of a request. -/
  lookup : ∀ uri origin id, IsId id → ∃ used,
    (after bound calls).lookup uri origin id = .ok (((keysOf uri origin id).find?
      (· ∈ Lru.recent bound (trace bound calls))).bind (lastOffset? calls), used)
  accepted : ∀ offset uri origin id, 0 ≤ offset → IsId id →
    ((after bound calls).record bound offset uri origin id).2 = none
  refused : ∀ offset uri origin id, offset < 0 →
    (after bound calls).record bound offset uri origin id
      = (after bound calls, some (.negativeOffset offset))

/-- A ledger with a bound is the map of the keys that were last used. -/
theorem ofTrace_after (bound : Nat) {calls : List Call} (h : ∀ call ∈ calls, call.HasId) :
    OfTrace bound calls := by
  have hfollows := follows_after bound h
  have hafter := hfollows.entries
  have hlast : ∀ key ∈ Lru.recent bound (trace bound calls),
      lastOffset? calls key = some (lastOffset calls key) := by
    intro key hkey
    obtain ⟨offset, hoffset⟩ :=
      Option.isSome_iff_exists.mp (hfollows.written key (Lru.mem_of_mem_recent hkey))
    rw [lastOffset, hoffset, Option.getD_some]
  rw [Lru.trim_ofTrace] at hafter
  have hoffsets : ∀ entry ∈ after bound calls, lastOffset? calls entry.1 = some entry.2 := by
    intro entry hentry
    rw [hafter] at hentry
    obtain ⟨key, hkey, rfl⟩ := List.mem_map.mp hentry
    exact hlast key hkey
  constructor
  case keys =>
    rw [hafter, List.map_map]
    exact List.map_id _
  case offsets => exact hoffsets
  case nonneg => exact fun entry hentry => lastOffset?_nonneg (hoffsets entry hentry)
  case size =>
    rw [hafter, List.length_map]
    exact Lru.length_recent_le bound _
  case lookup =>
    intro uri origin id hid
    rw [lookup_eq_findSome? hid, hfollows.entries, findSome?_use?_trim_ofTrace]
    cases hfind : (keysOf uri origin id).find? (· ∈ Lru.recent bound (trace bound calls)) with
    | none => exact ⟨_, rfl⟩
    | some key =>
      have hrecent : key ∈ Lru.recent bound (trace bound calls) := by
        simpa using List.find?_some hfind
      rw [Option.bind_some, hlast key hrecent]
      exact ⟨_, rfl⟩
  case accepted => exact fun _ _ _ _ hoffset hid => record_error hoffset hid _
  case refused => exact fun offset uri origin id hoffset => record_of_neg hoffset _ uri origin id _

/-- A document that was found outlives one that was recorded after it. -/
theorem ofTrace_after_found :
    let calls : List Call := [.record 1 (some "a") .editor .null,
      .record 2 (some "b") .editor .null, .lookup (some "a") .server .null,
      .record 3 (some "c") .editor .null]
    OfTrace 2 calls ∧ after 2 calls = [(.document "a", 1), (.document "c", 3)] :=
  ⟨ofTrace_after 2 (by simp [Call.HasId, IsId, RequestId.ofJson]), by decide⟩

end Ledger

end SfcProxy
