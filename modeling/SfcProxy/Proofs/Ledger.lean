import SfcProxy.Ledger
import SfcProxy.Proofs.Lru

/-!
# What the ledger finds

Recording an offset changes the values of its own keys alone, and looking one up changes no value. So
the offset of a request is the one that was last recorded under its id, whatever else was recorded
or looked up since.

## Main definitions

* `IsId`: what can be an id
* `Ledger.entered`: the ledger with an offset under both keys, before its bound is kept
* `Ledger.Refusing`: why an offset is refused, and what the ledger is left with
* `Ledger.held?`: the offset that the ledger holds for a document, or else for a request
* `Ledger.LookedUp`: how a lookup ends

## Main results

* `Ledger.record_eq`, `Ledger.get?_entered_request`: what recording an offset changes
* `Ledger.record_succeeds_iff`, `Ledger.refusing_record`: when that fails, and what is left then
* `Ledger.mem_record`, `Ledger.get?_record_document`: the entries after it
* `Ledger.get?_of_lookup`, `Ledger.lookup_request`: what looking one up finds and leaves
* `Ledger.lookup_spec`: what it finds, by document before request
-/

namespace SfcProxy

/-- A value that can be an id: a text, a number, a truth value or null. -/
def IsId (id : Json) : Prop :=
  ∃ id?, RequestId.ofJson id = .ok id?

/-- Only null stands for no id. -/
theorem RequestId.ofJson_eq_none {id : Json} : RequestId.ofJson id = .ok none ↔ id = .null := by
  cases id <;> simp [RequestId.ofJson]

namespace Ledger

/-- The ledger with an offset under a document and a request, before its bound is kept. -/
def entered (offset : Int) (uri : Option Text) (origin : Origin) (id : Option RequestId)
    (ledger : Ledger) : Ledger :=
  (ledger.enter (documentKey? uri) offset).enter (id.map (.request origin)) offset

theorem record_eq {bound offset : Int} {uri : Option Text} {origin : Origin} {id : Json}
    {ledger ledger' : Ledger} (h : ledger.record bound offset uri origin id = (ledger', none)) :
    0 ≤ offset ∧ ∃ id?, RequestId.ofJson id = .ok id? ∧
      ledger' = (ledger.entered offset uri origin id?).trim bound := by
  unfold record at h
  split at h
  · cases h
  · rename_i hoffset
    dsimp only at h
    split at h
    · cases h
    · rename_i id? hid
      exact ⟨Int.not_lt.mp hoffset, id?, hid, (Prod.mk.inj h).1.symm⟩

/-- An offset that is no less than zero is recorded exactly if the id is one and the bound can be
kept. -/
theorem record_succeeds_iff {bound offset : Int} (hoffset : 0 ≤ offset) (uri : Option Text)
    (origin : Origin) (id : Json) (ledger : Ledger) :
    (ledger.record bound offset uri origin id).2 = none ↔
      IsId id ∧ 0 ≤ bound := by
  rw [record, if_neg (Int.not_lt.mpr hoffset), IsId]
  cases RequestId.ofJson id with
  | error e => simp
  | ok id? => simp [Lru.boundError?]

theorem nonneg_of_record {bound offset : Int} {uri : Option Text} {origin : Origin} {id : Json}
    {ledger : Ledger} (h : (ledger.record bound offset uri origin id).2 = none) :
    0 ≤ offset ∧ IsId id ∧ 0 ≤ bound := by
  have hoffset := (record_eq (Prod.ext rfl h)).1
  exact ⟨hoffset, (record_succeeds_iff hoffset uri origin id ledger).mp h⟩

/-- Why an offset is refused, and what the ledger is left with: what it held, if the offset is below
zero; the offset under the document alone, if the id is none; nothing, if the bound is below zero. -/
inductive Refusing (bound offset : Int) (uri : Option Text) (id : Json) (ledger : Ledger) :
    Ledger → Error → Prop
  | negative (below : offset < 0) :
      Refusing bound offset uri id ledger ledger (.negativeOffset offset)
  | noId {e : IdError} (nonneg : 0 ≤ offset) (id_eq : RequestId.ofJson id = .error e) :
      Refusing bound offset uri id ledger (ledger.enter (documentKey? uri) offset) (.id e)
  | unbounded {e : Lru.BoundError} (nonneg : 0 ≤ offset) (isId : IsId id) (below : bound < 0) :
      Refusing bound offset uri id ledger [] (.bound e)

theorem refusing_record {bound offset : Int} {uri : Option Text} {origin : Origin} {id : Json}
    {ledger left : Ledger} {e : Error}
    (h : ledger.record bound offset uri origin id = (left, some e)) :
    Refusing bound offset uri id ledger left e := by
  unfold record at h
  split at h
  · rename_i hoffset
    cases h
    exact .negative hoffset
  rename_i hoffset
  have hnonneg := Int.not_lt.mp hoffset
  dsimp only at h
  split at h
  · rename_i hid
    cases h
    exact .noId hnonneg hid
  · rename_i id? hid
    obtain ⟨rfl, hbound⟩ := Prod.mk.inj h
    unfold Lru.boundError? at hbound
    split at hbound
    · rename_i hbelow
      cases hbound
      rw [Lru.trim_of_neg hbelow]
      exact .unbounded hnonneg ⟨id?, hid⟩ hbelow
    · cases hbound

theorem get?_enter (key? : Option LedgerKey) (other : LedgerKey) (offset : Int)
    (ledger : Ledger) : (ledger.enter key? offset).get? other
      = if key? = some other then some offset else ledger.get? other := by
  cases key? with
  | none => simp [enter]
  | some key => simp [enter, Lru.get?_insert, eq_comm]

theorem documentKey?_of_ne_nil {uri : Text} (h : uri ≠ []) :
    documentKey? (some uri) = some (.document uri) := by
  cases uri with
  | nil => exact absurd rfl h
  | cons u rest => rfl

/-- Recording an offset changes that of no other request. -/
theorem get?_entered_request (offset : Int) (uri : Option Text) (origin : Origin)
    (id? : Option RequestId) (id : RequestId) (ledger : Ledger) :
    (ledger.entered offset uri origin id?).get? (.request origin id)
      = if id? = some id then some offset else ledger.get? (.request origin id) := by
  -- The entry of the document cannot stand in the way: its key is of another kind.
  have hdocument : documentKey? uri ≠ some (.request origin id) := by
    unfold documentKey?
    split <;> simp
  rw [entered, get?_enter, get?_enter, if_neg hdocument]
  cases id? with
  | none => simp
  | some id' => simp

/-! ## Entries -/

theorem mem_enter {key? : Option LedgerKey} {offset : Int} {ledger : Ledger}
    {entry : LedgerKey × Int} (h : entry ∈ ledger.enter key? offset) :
    entry ∈ ledger ∧ key? ≠ some entry.1 ∨ key? = some entry.1 ∧ entry.2 = offset := by
  cases key? with
  | none => exact .inl ⟨h, nofun⟩
  | some key =>
    rcases Lru.mem_insert.mp h with ⟨hmem, hne⟩ | rfl
    · exact .inl ⟨hmem, fun heq => hne (Option.some.inj heq).symm⟩
    · exact .inr ⟨rfl, rfl⟩

/-- An entry after an offset was recorded is an old one of another document, or it holds the new
offset, which is no less than zero. -/
theorem mem_record {bound offset : Int} {uri : Option Text} {origin : Origin} {id : Json}
    {ledger : Ledger} {entry : LedgerKey × Int}
    (h : entry ∈ (ledger.record bound offset uri origin id).1) :
    entry ∈ ledger ∧ (0 ≤ offset → documentKey? uri ≠ some entry.1) ∨
      0 ≤ offset ∧ entry.2 = offset ∧
        (documentKey? uri = some entry.1 ∨ ∃ id, entry.1 = .request origin id) := by
  unfold record at h
  split at h
  · rename_i hoffset
    exact .inl ⟨h, fun hnonneg => absurd hoffset (Int.not_lt.mpr hnonneg)⟩
  rename_i hoffset
  have hnonneg := Int.not_lt.mp hoffset
  -- The document is entered before the request, and stays entered if the id is refused.
  have hdocument : entry ∈ ledger.enter (documentKey? uri) offset →
      entry ∈ ledger ∧ (0 ≤ offset → documentKey? uri ≠ some entry.1) ∨
        0 ≤ offset ∧ entry.2 = offset ∧
          (documentKey? uri = some entry.1 ∨ ∃ id, entry.1 = .request origin id) := by
    intro hmem
    rcases mem_enter hmem with ⟨hmem, hne⟩ | ⟨heq, hvalue⟩
    · exact .inl ⟨hmem, fun _ => hne⟩
    · exact .inr ⟨hnonneg, hvalue, .inl heq⟩
  dsimp only at h
  split at h
  · exact hdocument h
  · rename_i id? _
    rcases mem_enter (Lru.mem_of_mem_trim h) with ⟨hmem, -⟩ | ⟨heq, hvalue⟩
    · exact hdocument hmem
    · obtain ⟨id, -, heq⟩ := Option.map_eq_some_iff.mp heq
      exact .inr ⟨hnonneg, hvalue, .inr ⟨id, heq.symm⟩⟩

/-- A bound of two leaves room for the document and the request, whatever was there before. -/
theorem get?_record_document {bound offset : Int} (hbound : 2 ≤ bound) (hoffset : 0 ≤ offset)
    {uri : Text} (huri : uri ≠ []) (origin : Origin) (id : Json) (ledger : Ledger) :
    (ledger.record bound offset (some uri) origin id).1.get? (.document uri) = some offset := by
  have hkey := documentKey?_of_ne_nil huri
  unfold record
  rw [if_neg (Int.not_lt.mpr hoffset), hkey]
  dsimp only
  split
  · rw [get?_enter, if_pos rfl]
  · rename_i id? _
    cases id? with
    | none => exact Lru.get?_trim_insert (by omega) _ offset ledger
    | some id =>
      have hlast : ((enter (some (.document uri)) offset ledger).enter
          ((some id).map (LedgerKey.request origin)) offset)
            = (ledger.filter (·.1 ≠ .document uri)).filter (·.1 ≠ .request origin id)
              ++ [(.document uri, offset), (.request origin id, offset)] := by
        simp [enter, Lru.insert]
      rw [hlast]
      refine (Lru.get?_trim_append hbound fun entry hentry => ?_).trans (by simp [Lru.get?])
      simpa using (List.mem_filter.mp (List.mem_filter.mp hentry).1).2

/-- The request is the newest entry. -/
theorem get?_record_request {bound offset : Int} (hbound : 1 ≤ bound) (hoffset : 0 ≤ offset)
    (uri : Option Text) (origin : Origin) {id : Json} {request : RequestId}
    (hid : RequestId.ofJson id = .ok (some request)) (ledger : Ledger) :
    (ledger.record bound offset uri origin id).1.get? (.request origin request)
      = some offset := by
  rw [record, if_neg (Int.not_lt.mpr hoffset), hid]
  exact Lru.get?_trim_insert hbound _ offset _

/-! ## What a lookup finds -/

theorem lookup_of_document {uri : Text} {ledger : Ledger} {offset : Int} (huri : uri ≠ [])
    (h : ledger.get? (.document uri) = some offset) (origin : Origin) (id : Json) :
    ∃ used, ledger.lookup (some uri) origin id = .ok (some offset, used) := by
  rw [lookup, documentKey?_of_ne_nil huri, Option.bind_some, Lru.use?, h]
  exact ⟨_, rfl⟩

theorem lookup_of_request {origin : Origin} {id : Json} {request : RequestId} {ledger : Ledger}
    {offset : Int} (hid : RequestId.ofJson id = .ok (some request))
    (h : ledger.get? (.request origin request) = some offset) :
    ∃ used, ledger.lookup none origin id = .ok (some offset, used) := by
  rw [lookup, documentKey?, Option.bind_none, lookupRequest, hid]
  dsimp only
  rw [Lru.use?, h]
  exact ⟨_, rfl⟩

/-- The offset that the ledger holds for a document, or else for a request. -/
def held? (uri : Option Text) (origin : Origin) (id : Json) (ledger : Ledger) : Option Int :=
  ((documentKey? uri).bind ledger.get?).or
    (((RequestId.ofJson id).toOption.join.map (LedgerKey.request origin)).bind ledger.get?)

/-- How a lookup ends: the entry of the document is used, or else that of the request, if there is
one. The id of the request is looked at only then, and may be none. -/
inductive LookedUp (uri : Option Text) (origin : Origin) (id : Json) (ledger : Ledger) :
    Except Error (Option Int × Ledger) → Prop
  | document {key : LedgerKey} {offset : Int} {used : Ledger} (key_eq : documentKey? uri = some key)
      (use_eq : ledger.use? key = some (offset, used)) :
      LookedUp uri origin id ledger (.ok (some offset, used))
  | request {request : RequestId} {offset : Int} {used : Ledger}
      (absent : (documentKey? uri).bind ledger.get? = none)
      (id_eq : RequestId.ofJson id = .ok (some request))
      (use_eq : ledger.use? (.request origin request) = some (offset, used)) :
      LookedUp uri origin id ledger (.ok (some offset, used))
  | missed {id? : Option RequestId} (absent : (documentKey? uri).bind ledger.get? = none)
      (id_eq : RequestId.ofJson id = .ok id?)
      (missing : (id?.map (LedgerKey.request origin)).bind ledger.get? = none) :
      LookedUp uri origin id ledger (.ok (none, ledger))
  | refused {e : IdError} (id_eq : RequestId.ofJson id = .error e) :
      LookedUp uri origin id ledger (.error (.id e))

theorem lookedUp_lookup (uri : Option Text) (origin : Origin) (id : Json) (ledger : Ledger) :
    LookedUp uri origin id ledger (ledger.lookup uri origin id) := by
  unfold lookup
  split
  · rename_i offset used huse
    obtain ⟨key, hkey, huse⟩ := Option.bind_eq_some_iff.mp huse
    exact .document hkey huse
  · rename_i huse
    have habsent : (documentKey? uri).bind ledger.get? = none := by
      rw [Option.bind_eq_none_iff] at huse ⊢
      exact fun key hkey => Option.map_eq_none_iff.mp (huse key hkey)
    unfold lookupRequest
    split
    · rename_i e hid
      exact .refused hid
    · rename_i hid
      exact .missed habsent hid rfl
    · rename_i request hid
      split
      · rename_i offset used huse
        exact .request habsent hid huse
      · rename_i huse
        exact .missed habsent hid (Option.map_eq_none_iff.mp huse)

theorem lookup_spec {uri : Option Text} {origin : Origin} {id : Json} {ledger ledger' : Ledger}
    {offset : Option Int} (h : ledger.lookup uri origin id = .ok (offset, ledger')) :
    offset = ledger.held? uri origin id ∧ ∀ entry ∈ ledger', entry ∈ ledger := by
  have hlookedUp := lookedUp_lookup uri origin id ledger
  rw [h] at hlookedUp
  unfold held?
  cases hlookedUp with
  | document key_eq use_eq =>
    rw [key_eq, Option.bind_some, (Lru.get?_of_use? use_eq).1, Option.some_or]
    exact ⟨rfl, (Lru.forall_mem_of_use? use_eq fun _ hmem => hmem).2⟩
  | request absent id_eq use_eq =>
    rw [absent, Option.none_or, id_eq]
    exact ⟨(Lru.get?_of_use? use_eq).1.symm,
      (Lru.forall_mem_of_use? use_eq fun _ hmem => hmem).2⟩
  | missed absent id_eq missing =>
    rw [absent, Option.none_or, id_eq]
    exact ⟨missing.symm, fun _ hmem => hmem⟩

theorem get?_of_lookup {uri : Option Text} {origin : Origin} {id : Json} {ledger ledger' : Ledger}
    {offset : Option Int} (h : ledger.lookup uri origin id = .ok (offset, ledger'))
    (key : LedgerKey) : ledger'.get? key = ledger.get? key := by
  have hlookedUp := lookedUp_lookup uri origin id ledger
  rw [h] at hlookedUp
  cases hlookedUp with
  | document _ use_eq | request _ _ use_eq => exact (Lru.get?_of_use? use_eq).2 key
  | missed => rfl

/-- Without a document the offset that is found is that of the request. -/
theorem lookup_request {origin : Origin} {id : Json} {ledger ledger' : Ledger}
    {offset : Option Int} (h : ledger.lookup none origin id = .ok (offset, ledger'))
    {request : RequestId} (hid : RequestId.ofJson id = .ok (some request)) :
    offset = ledger.get? (.request origin request) := by
  rw [(lookup_spec h).1, held?, hid, documentKey?, Option.bind_none, Option.none_or]
  rfl

theorem mem_of_held? {uri : Option Text} {origin : Origin} {id : Json} {ledger : Ledger}
    {offset : Int} (h : ledger.held? uri origin id = some offset) :
    ∃ key, (key, offset) ∈ ledger := by
  have hmem : ∀ key? : Option LedgerKey, key?.bind ledger.get? = some offset →
      ∃ key, (key, offset) ∈ ledger := by
    intro key? hget
    obtain ⟨key, -, hget⟩ := Option.bind_eq_some_iff.mp hget
    exact ⟨key, Lru.mem_of_get? hget⟩
  rcases Option.or_eq_some_iff.mp h with hget | ⟨-, hget⟩
  · exact hmem _ hget
  · exact hmem _ hget

/-- Only an id that is none is refused. -/
theorem lookup_error {uri : Option Text} {origin : Origin} {id : Json} {ledger : Ledger}
    {e : Error} (h : ledger.lookup uri origin id = .error e) :
    ∃ idError, RequestId.ofJson id = .error idError ∧ e = .id idError := by
  have hlookedUp := lookedUp_lookup uri origin id ledger
  rw [h] at hlookedUp
  cases hlookedUp with
  | refused id_eq => exact ⟨_, id_eq, rfl⟩

end Ledger

end SfcProxy
