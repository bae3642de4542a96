import SfcProxy.Proofs.Json.RoundTrip

/-!
# Messages as bytes

A message is restored from its bytes exactly if it has the form of what is read and can be written.
Messages without numbers that have a fraction are of that form as soon as their names are distinct,
their texts are made of characters, their integers are not too long, and they nest no deeper than
the reader goes, whatever its limit is.

## Main definitions

* `Json.Portable`: these conditions on a value

## Main results

* `Message.decode_encode_iff`: the messages that are restored
* `Message.portable_restored`: portable messages are among them
-/

namespace SfcProxy

namespace Json

/-- A value that can be sent: texts and names are made of characters, the names of the members of
each object are distinct, integers have at most `digitLimit` digits, and arrays and objects nest at
most `depth` deep. -/
inductive Portable : Nat → Json → Prop
  | null {depth : Nat} : Portable depth .null
  | bool {depth : Nat} (b : Bool) : Portable depth (.bool b)
  | int {depth : Nat} {n : Int} (short : n.natAbs < 10 ^ digitLimit) : Portable depth (.int n)
  | str {depth : Nat} (cs : List Char) : Portable depth (.str (Text.ofChars cs))
  | arr {depth : Nat} {items : List Json} (parts : ∀ v ∈ items, Portable depth v) :
      Portable (depth + 1) (.arr items)
  | obj {depth : Nat} {members : Members} (names : (members.map (·.1)).Nodup)
      (spelled : ∀ entry ∈ members, ∃ cs, entry.1 = Text.ofChars cs)
      (parts : ∀ entry ∈ members, Portable depth entry.2) : Portable (depth + 1) (.obj members)

theorem Portable.readable {depth : Nat} {v : Json} (h : Portable depth v) : Readable depth v := by
  induction h with
  | null => exact .null
  | bool b => exact .bool b
  | int short => exact .int _
  | str cs => exact .str _
  | arr _ ih => exact .arr ih
  | obj names _ _ ih => exact .obj names ih

theorem not_unwritable_int {n : Int} {limit : Nat} (h : n.natAbs < 10 ^ limit)
    (hlimit : limit = digitLimit) : ¬ Unwritable (.int n) := by
  -- The limit stays a variable, so that the power is never computed.
  have hshort : ∀ k, k = limit → ¬ Nat.pow 10 k ≤ n.natAbs := by
    rintro _ rfl
    exact Nat.not_le.mpr h
  rw [unwritable_int_iff, oversized, decide_eq_true_iff]
  apply hshort
  exact hlimit.symm

theorem Portable.not_unwritable {depth : Nat} {v : Json} (h : Portable depth v) :
    ¬ Unwritable v := by
  induction h with
  | null | bool =>
    intro hunwritable
    cases hunwritable
  | int short => exact not_unwritable_int short rfl
  | str cs =>
    rw [unwritable_str_iff]
    rintro ⟨i, hi⟩
    exact Text.surrogate_not_mem_ofChars i cs hi
  | arr _ ih =>
    rw [unwritable_arr_iff]
    rintro ⟨v, hv, hpart⟩
    exact ih v hv hpart
  | obj _ spelled _ ih =>
    rw [unwritable_obj_iff]
    rintro ⟨entry, hentry, ⟨i, hi⟩ | hpart⟩
    · obtain ⟨cs, hcs⟩ := spelled entry hentry
      rw [hcs] at hi
      exact Text.surrogate_not_mem_ofChars i cs hi
    · exact ih entry hentry hpart

end Json

namespace Message

/-- A message is restored from its bytes exactly if it has the form of what is read and can be
written. -/
theorem decode_encode_iff {limit : Nat} {message : Members} :
    (∃ bytes, encode message = .ok bytes ∧ decode bytes limit = .object message) ↔
      (Json.obj message).Readable limit ∧ ¬ (Json.obj message).Unwritable := by
  rw [← Json.encode_error_iff]
  constructor
  · rintro ⟨bytes, hbytes, hdecode⟩
    refine ⟨readable_of_decode hdecode, ?_⟩
    rintro ⟨e, he⟩
    rw [encode, he] at hbytes
    cases hbytes
  · rintro ⟨hreadable, hwritable⟩
    cases hbytes : encode message with
    | error e => exact absurd ⟨e, hbytes⟩ hwritable
    | ok bytes => exact ⟨bytes, rfl, decode_encode hreadable hbytes⟩

/-- **There and back.** A portable message has bytes, and is restored from them with its members in
their order, by a reader with any limit within which it nests. -/
theorem portable_restored {limit : Nat} {message : Members}
    (h : (Json.obj message).Portable limit) :
    ∃ bytes, encode message = .ok bytes ∧ decode bytes limit = .object message :=
  decode_encode_iff.mpr ⟨h.readable, h.not_unwritable⟩

/-- Controls, quotes, a character beyond the first plane, the longest integer, and nesting up to the
limit. -/
theorem portable_restored_nested :
    let message : Members :=
      [("id", .int (-(10 ^ Json.digitLimit - 1))),
        ("\x00\n\"\\\x7F\u2028", .str "\x1F/\t😀é"),
        ("params", .arr [.obj [("b", .bool true), ("a", .null)], .arr [], .obj []])]
    (Json.obj message).Portable 3 ∧
      ∃ bytes, encode message = .ok bytes ∧ decode bytes 3 = .object message := by
  intro message
  have hlongest : ∀ k, (-(10 ^ k - 1) : Int).natAbs < 10 ^ k := by
    intro k
    have hcast : (10 ^ k : Int) = ((10 ^ k : Nat) : Int) := by
      push_cast
      rfl
    have hpositive : 0 < 10 ^ k := Nat.pow_pos (by decide)
    rw [hcast]
    omega
  have hportable : (Json.obj message).Portable 3 := by
    refine .obj (by decide +kernel) ?_ ?_
    · exact List.forall_mem_cons.mpr ⟨⟨_, rfl⟩, List.forall_mem_cons.mpr ⟨⟨_, rfl⟩,
        List.forall_mem_singleton.mpr ⟨_, rfl⟩⟩⟩
    · refine List.forall_mem_cons.mpr ⟨.int (hlongest _), List.forall_mem_cons.mpr ⟨.str _,
        List.forall_mem_singleton.mpr (.arr (List.forall_mem_cons.mpr ⟨?_,
          List.forall_mem_cons.mpr ⟨.arr nofun, List.forall_mem_singleton.mpr
            (.obj List.nodup_nil nofun nofun)⟩⟩))⟩⟩
      exact .obj (by decide +kernel)
        (List.forall_mem_cons.mpr ⟨⟨_, rfl⟩, List.forall_mem_singleton.mpr ⟨_, rfl⟩⟩)
        (List.forall_mem_cons.mpr ⟨.bool true, List.forall_mem_singleton.mpr .null⟩)
  exact ⟨hportable, portable_restored hportable⟩

end Message

end SfcProxy
