import SfcProxy.Proofs.Utf8
import SfcProxy.Session.Transform

/-!
# When a transform fails

Reading and writing a body can fail in ways that the adaptation of messages does not guard
against: an integer of too many digits and text nested too deep have no value, and an adapted
message with too long an integer or a surrogate without its partner has no bytes. Such an error
gets out of the transform. All else passes: as the very same body where nothing is to be changed
or nothing can be, or else as the bytes of the adapted message.

## Main definitions

* `Json.Unwritable`: some part of a value cannot be written
* `Session.Escapes`: a body is beyond the reader, or its adapted message beyond the writer
* `Session.Passage`: the outcome of a transform, which is an error or bytes

## Main results

* `Json.encode_error_iff`: a value has no bytes exactly if it is unwritable
* `Session.pass_passage`: the outcome of a transform, whatever the adaptation
* `Session.transforms_escape_iff`: when an error gets out of the two transforms
-/

namespace SfcProxy

/-! ## Surrogates in a printed value -/

namespace Text

@[simp] theorem surrogate_not_mem_ofChars (i : Fin 2048) (cs : List Char) :
    TextUnit.surrogate i ∉ ofChars cs := by
  simp [ofChars]

@[simp] theorem surrogate_not_mem_ofString (i : Fin 2048) (s : String) :
    TextUnit.surrogate i ∉ ofString s :=
  surrogate_not_mem_ofChars i _

@[simp] theorem surrogate_not_mem_ofNat (i : Fin 2048) (n : Nat) :
    TextUnit.surrogate i ∉ ofNat n :=
  surrogate_not_mem_ofChars i _

@[simp] theorem surrogate_not_mem_decimal (i : Fin 2048) (n : Int) :
    TextUnit.surrogate i ∉ decimal n := by
  unfold decimal
  split <;> simp

/-- What is in none of the separators is in one of the texts. -/
theorem mem_join {u : TextUnit} {separator : Text} (hu : u ∉ separator) (parts : List Text) :
    u ∈ join separator parts ↔ ∃ part ∈ parts, u ∈ part := by
  induction parts with
  | nil => simp [join]
  | cons part parts ih =>
    cases parts with
    | nil => simp [join]
    | cons next parts =>
      rw [join] at ih
      rw [join, List.intercalate_cons_cons, List.mem_append, List.mem_append, ih]
      simp [hu]

end Text

namespace Json

theorem surrogate_mem_printString {i : Fin 2048} {t : Text} :
    .surrogate i ∈ printString t ↔ .surrogate i ∈ t := by
  have hunit : ∀ u, TextUnit.surrogate i ∈ escapeUnit u ↔ u = .surrogate i := by
    intro u
    cases u with
    | scalar c => simp [escapeUnit]
    | surrogate j => simp [escapeUnit, eq_comm]
  simp [printString, hunit]

/-! ## Unwritable values -/

/-- Some part of a value cannot be written: an integer has too many digits, or a text or the name
of a member holds a surrogate. -/
inductive Unwritable : Json → Prop
  | digits {n : Int} (long : Nat.pow 10 4300 ≤ n.natAbs) : Unwritable (.int n)
  | surrogate {t : Text} {i : Fin 2048} (mem : .surrogate i ∈ t) : Unwritable (.str t)
  | item {items : List Json} {v : Json} (mem : v ∈ items) (part : Unwritable v) :
      Unwritable (.arr items)
  | name {members : Members} {name : Text} {v : Json} {i : Fin 2048} (mem : (name, v) ∈ members)
      (part : .surrogate i ∈ name) : Unwritable (.obj members)
  | member {members : Members} {name : Text} {v : Json} (mem : (name, v) ∈ members)
      (part : Unwritable v) : Unwritable (.obj members)

theorem unwritable_arr_iff {items : List Json} :
    Unwritable (.arr items) ↔ ∃ v ∈ items, Unwritable v := by
  constructor
  · rintro ⟨⟩
    exact ⟨_, ‹_›, ‹_›⟩
  · rintro ⟨v, mem, part⟩
    exact .item mem part

theorem unwritable_obj_iff {members : Members} :
    Unwritable (.obj members) ↔
      ∃ entry ∈ members, (∃ i, .surrogate i ∈ entry.1) ∨ Unwritable entry.2 := by
  constructor
  · intro h
    cases h with
    | name mem part => exact ⟨_, mem, .inl ⟨_, part⟩⟩
    | member mem part => exact ⟨_, mem, .inr part⟩
  · rintro ⟨⟨name, v⟩, mem, ⟨i, part⟩ | part⟩
    · exact .name mem part
    · exact .member mem part

theorem unwritable_int_iff {n : Int} : Unwritable (.int n) ↔ oversized (.int n) = true := by
  rw [oversized, decide_eq_true_iff]
  constructor
  · rintro ⟨long⟩
    exact long
  · exact .digits

theorem unwritable_str_iff {t : Text} : Unwritable (.str t) ↔ ∃ i, .surrogate i ∈ t := by
  constructor
  · rintro ⟨⟩
    exact ⟨_, ‹_›⟩
  · rintro ⟨i, mem⟩
    exact .surrogate mem

mutual

/-- What cannot be written is too long, or leaves a surrogate in what is printed. -/
theorem unwritable_iff : ∀ v : Json,
    Unwritable v ↔ v.oversized = true ∨ ∃ i, .surrogate i ∈ v.print
  | .null => iff_of_false nofun (by simp [oversized, print])
  | .bool true => iff_of_false nofun (by simp [oversized, print])
  | .bool false => iff_of_false nofun (by simp [oversized, print])
  | .int n => by rw [unwritable_int_iff]; simp [print]
  | .real x => iff_of_false nofun (by simp [oversized, print])
  | .str t => by rw [unwritable_str_iff]; simp [oversized, print, surrogate_mem_printString]
  | .arr items => by
    rw [unwritable_arr_iff, unwritable_items_iff items]
    simp [oversized, print, Text.mem_join]
  | .obj members => by
    rw [unwritable_obj_iff, unwritable_members_iff members]
    simp [oversized, print, Text.mem_join]

theorem unwritable_items_iff : ∀ items : List Json,
    (∃ v ∈ items, Unwritable v) ↔
      oversizedItems items = true ∨ ∃ i, ∃ part ∈ printItems items, .surrogate i ∈ part
  | [] => by simp [oversizedItems, printItems]
  | v :: rest => by
    simp only [List.mem_cons, or_and_right, exists_or, exists_eq_left, unwritable_iff v,
      unwritable_items_iff rest, oversizedItems, printItems, Bool.or_eq_true]
    exact or_or_or_comm

theorem unwritable_members_iff : ∀ members : Members,
    (∃ entry ∈ members, (∃ i, .surrogate i ∈ entry.1) ∨ Unwritable entry.2) ↔
      oversizedMembers members = true ∨ ∃ i, ∃ part ∈ printMembers members, .surrogate i ∈ part
  | [] => by simp [oversizedMembers, printMembers]
  | (name, v) :: rest => by
    simp only [List.mem_cons, or_and_right, exists_or, exists_eq_left, unwritable_iff v,
      unwritable_members_iff rest, oversizedMembers, printMembers, Bool.or_eq_true,
      List.mem_append, surrogate_mem_printString, reduceCtorEq, false_or]
    tauto

end

theorem encode_error_iff {v : Json} : (∃ e, v.encode = .error e) ↔ Unwritable v := by
  rw [unwritable_iff, encode, Utf8.encode]
  split
  · simp_all
  · rename_i hsize
    cases h : v.print.chars? with
    | none => simpa [hsize] using Text.chars?_eq_none_iff.mp h
    | some cs =>
      rw [Text.chars?_eq_some_iff.mp h]
      simp [hsize]

end Json

/-! ## Transforms -/

namespace Session

/-- An error gets out of a transform: the body is text beyond a limit of the reader, or it is a
message that is adapted to one that cannot be written. -/
def Escapes (adapt : Members → Session → Session × Except Fault (Option Members))
    (body : List UInt8) (s : Session) : Prop :=
  (∃ e, s.decode body = .beyondLimits e) ∨
    ∃ message adapted, s.decode body = .object message ∧
      (adapt message s).2 = .ok (some adapted) ∧ (Json.obj adapted).Unwritable

/-- What comes out of a transform: an error exactly if one escapes, and otherwise the body that
came in or the bytes of the adapted message. -/
structure Passage (adapt : Members → Session → Session × Except Fault (Option Members))
    (body : List UInt8) (s : Session) (result : Except TransformError (List UInt8)) : Prop where
  escapes_iff : (∃ e, result = .error e) ↔ Escapes adapt body s
  bytes : ∀ bytes, result = .ok bytes → bytes = body ∨
    ∃ message adapted, s.decode body = .object message ∧
      (adapt message s).2 = .ok (some adapted) ∧ Message.encode adapted = .ok bytes

theorem pass_object {adapt : Members → Session → Session × Except Fault (Option Members)}
    {failure : Members → LogRecord} {body : List UInt8} {s : Session} {message : Members}
    (h : s.decode body = .object message) :
    (pass adapt failure body s).2 = match (adapt message s).2 with
      | .ok (some adapted) => (Message.encode adapted).mapError .write
      | _ => .ok body := by
  simp only [pass, h]
  rcases adapt message s with ⟨s', e | _ | adapted⟩
  · rfl
  · rfl
  · dsimp only
    cases Message.encode adapted <;> rfl

theorem pass_session {adapt : Members → Session → Session × Except Fault (Option Members)}
    {failure : Members → LogRecord} {body : List UInt8} {s : Session} {message : Members}
    (h : s.decode body = .object message) :
    (pass adapt failure body s).1 = match (adapt message s).2 with
      | .ok _ => (adapt message s).1
      | .error _ => (adapt message s).1.logged [failure message] := by
  simp only [pass, h]
  rcases adapt message s with ⟨s', e | _ | adapted⟩
  · rfl
  · rfl
  · dsimp only
    cases Message.encode adapted <;> rfl

theorem pass_passage (adapt : Members → Session → Session × Except Fault (Option Members))
    (failure : Members → LogRecord) (body : List UInt8) (s : Session) :
    Passage adapt body s (pass adapt failure body s).2 := by
  cases hbody : s.decode body with
  | other => exact ⟨by simp [pass, Escapes, hbody], by simp [pass, hbody, eq_comm]⟩
  | undecodable reason => exact ⟨by simp [pass, Escapes, hbody], by simp [pass, hbody, eq_comm]⟩
  | beyondLimits e => exact ⟨by simp [pass, Escapes, hbody], by simp [pass, hbody]⟩
  | object message =>
    rw [pass_object hbody]
    cases hadapt : (adapt message s).2 with
    | error e => exact ⟨by simp [Escapes, hbody, hadapt], by simp [eq_comm]⟩
    | ok adapted? =>
      cases adapted? with
      | none => exact ⟨by simp [Escapes, hbody, hadapt], by simp [eq_comm]⟩
      | some adapted =>
        have hescapes : Escapes adapt body s ↔ ∃ e, Message.encode adapted = .error e := by
          simp [Escapes, hbody, hadapt, Message.encode, Json.encode_error_iff]
        dsimp only
        cases hencode : Message.encode adapted with
        | error e =>
          exact ⟨iff_of_true ⟨.write e, rfl⟩ (hescapes.mpr ⟨e, hencode⟩), by rintro _ ⟨⟩⟩
        | ok out =>
          rw [hencode] at hescapes
          refine ⟨iff_of_false (by rintro ⟨_, ⟨⟩⟩) (by simp [hescapes]), ?_⟩
          rintro bytes ⟨⟩
          exact .inr ⟨message, adapted, hbody, hadapt, hencode⟩

/-- **When an error gets out of a transform**, whatever the body, the state of the session and the
extractor: exactly if the body is beyond a limit of the reader or the adapted message cannot be
written. Otherwise a body comes out, which is the one that came in unless it is the bytes of the
adapted message. -/
theorem transforms_escape_iff (extractor : Extractor) (body : List UInt8) (s : Session) :
    Passage (incoming extractor) body s (fromEditor extractor body s).2 ∧
      Passage outgoing body s (fromServer body s).2 :=
  ⟨pass_passage _ _ _ _, pass_passage _ _ _ _⟩

/-- The options are taken out of a message that holds a surrogate elsewhere. What is left cannot be
written, and no body comes out. -/
theorem fromEditor_escapes_surrogate :
    (fromEditor (.ofLang "gleam")
      (Utf8.ofString ("\x7b\"method\":\"initialize\",\"params\":\x7b\"initializationOptions\":"
        ++ "\x7b\"vleam\":\x7b\x7d\x7d,\"rootUri\":\"\\ud800\"\x7d\x7d"))
      (.start ⟨⟨.here, []⟩, "src", "vleam_generated", "gleam", "gleam", 4096⟩
        (.empty []))).2.toOption = none := by
  simp only [Utf8.ofString_append, Utf8.ofString_ofList, Text.ofString_ofList]
  decide +kernel

end Session

end SfcProxy
