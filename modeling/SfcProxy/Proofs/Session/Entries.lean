import SfcProxy.Proofs.Session.Lookups

/-!
# Entries that come to one name

Members that are named by URIs get the names of components, and two of them may get the same one:
two spellings of a generated URI lead to one component, and a component may be named next to its
generated file. Then one of the two is lost, with all that it holds.

So a message keeps its entries exactly if no two entries of one object come to the same name. The
lines that move meanwhile do not hide the loss, for a message with an entry less has fewer URIs.

## Main definitions

* `Session.Entries`: what becomes of the entries of a message

## Main results

* `Json.uris_shiftLines`: moving lines keeps the URIs
* `Session.entries_kept_iff`: when the entries of a message are kept
-/

namespace SfcProxy

/-! ## URIs and lines -/

namespace Json

mutual

/-- Moving lines keeps the URIs of a value. -/
theorem uris_mapMembers (offset : Int) : ∀ v : Json,
    (v.mapMembers (movedLine? offset)).uris = v.uris
  | .arr items => by rw [mapMembers, uris, uris, urisItems_mapMembers offset items]
  | .obj members => by
    rw [mapMembers, uris, uris]
    exact urisMembers_shift offset members
  | .null | .bool _ | .int _ | .real _ | .str _ => by simp [mapMembers]

theorem urisItems_mapMembers (offset : Int) : ∀ items : List Json,
    urisItems (mapMembersItems (movedLine? offset) items) = urisItems items
  | [] => rfl
  | v :: rest => by
    rw [mapMembersItems, urisItems, uris_mapMembers offset v, urisItems_mapMembers offset rest,
      urisItems]

theorem urisMember_shift (offset : Int) (name : Text) : ∀ v : Json,
    (shiftMember offset name v).urisMember name = v.urisMember name
  | .str uri => by rw [shiftMember_str]
  | .arr items => by
    rw [shiftMember_arr, urisMember, urisMember, urisItems_mapMembers offset items]
  | .obj members => by
    rw [shiftMember_obj, urisMember, urisMember, urisMembers_shift offset members,
      urisKeyed_shift offset members]
  | .null | .bool _ | .int _ | .real _ => by
    rcases shiftMember_cases offset name _ with h | ⟨n, m, hn, h⟩ | ⟨x, y, hx, h⟩
    · rw [h]
      simp [mapMembers]
    · rw [h, hn]
      simp [urisMember]
    · rw [h, hx]
      simp [urisMember]

theorem urisMembers_shift (offset : Int) : ∀ members : Members,
    urisMembers (shiftMembers offset members) = urisMembers members
  | [] => rfl
  | (name, v) :: rest => by
    rw [shiftMembers_cons, urisMembers, urisMember_shift offset name v,
      urisMembers_shift offset rest, urisMembers]

theorem urisKeyed_shift (offset : Int) : ∀ members : Members,
    urisKeyed (shiftMembers offset members) = urisKeyed members
  | [] => rfl
  | (uri, v) :: rest => by
    have hv : (shiftMember offset uri v).uris = v.uris := by
      rcases shiftMember_cases offset uri v with h | ⟨n, m, rfl, h⟩ | ⟨x, y, rfl, h⟩
      · rw [h, uris_mapMembers offset v]
      · rw [h]
        simp [uris]
      · rw [h]
        simp [uris]
    rw [shiftMembers_cons, urisKeyed, hv, urisKeyed_shift offset rest, urisKeyed]

end

theorem uris_shiftLines (offset : Int) (v : Json) : (v.shiftLines offset).uris = v.uris := by
  rw [shiftLines_eq_mapMembers, uris_mapMembers]

end Json

namespace Session

variable {message : Members} {s : Session}

/-! ## Subjects -/

/-- What takes the place of what a message is about is what the message is then about. -/
theorem subject_withSubject (about : Json) (h : subject message ≠ .null) :
    subject (withSubject message about) = about := by
  have hname : subjectName (Json.set (subjectName message) about message)
      = subjectName message := by
    have hmethod : ("method" : Text) ≠ subjectName message := by
      unfold subjectName
      split <;> decide
    rw [subjectName, isResponse, Json.has, Json.get?_set, if_neg hmethod, subjectName, isResponse,
      Json.has]
  rw [withSubject, if_neg h, subject, hname, Json.get?_set, if_pos rfl, Option.getD_some]

theorem uris_subject_of_moved {about : Json} {out : Members} {offset : Int}
    (hnull : subject message ≠ .null)
    (h : Json.obj out = (Json.obj (withSubject message about)).shiftLines offset) :
    (subject out).uris = about.uris := by
  rw [Json.shiftLines_obj, Json.obj.injEq] at h
  rw [h, subject_shiftMembers, Json.uris_shiftLines, subject_withSubject about hnull]

/-- With each component in its place a message has as many URIs as before. -/
theorem length_uris_resolved (message : Members) (s : Session) :
    (resolved message s).uris.length = (subject message).uris.length := by
  have hlength : ((s.uris.componentsOr s.settings s.files (lookups message)).drop
      (documentUri? message).toList.length).length = (subject message).uris.length := by
    rw [List.length_drop, UriMap.length_componentsOr, lookups, List.length_append,
      Nat.add_sub_cancel_left]
  rw [resolved, Json.uris_withUris _ _ hlength, hlength]

/-- A message about nothing has no entries. -/
theorem subject_ne_null (h : ¬ (resolved message s).Keyed) : subject message ≠ .null := by
  intro hnull
  apply h
  rw [resolved, hnull]
  simp [Json.withUris, Json.Keyed]

/-! ## Entries -/

/-- What becomes of the entries of a message. What goes out is the message with the component of
each URI in its place and its lines moved, but of entries that have come to one name only one is
left. So all entries are kept exactly if their names stay distinct. If they do not, what goes out
has fewer URIs than what came in. -/
structure Entries (message : Members) (s : Session) (key : Option Text) (out : Members) :
    Prop where
  merged : Json.obj out = (Json.obj (withSubject message (resolved message s).merged)).shiftLines
    (messageOffset key message s)
  kept_iff : Json.obj out = (Json.obj (withSubject message (resolved message s))).shiftLines
    (messageOffset key message s) ↔ (resolved message s).Keyed
  fewer : ¬ (resolved message s).Keyed →
    (subject out).uris.length < (subject message).uris.length

/-- **Entries are kept as long as their names stay distinct.** In every session a message of the
server cannot be adapted, or all its entries go out exactly if no two entries of one object come to
the same name. -/
theorem entries_kept_iff (message : Members) (s : Session) :
    Refused message s ∨ ∃ key adapted, (outgoing message s).2 = .ok adapted ∧
      Entries message s key (adapted.getD message) := by
  rcases outgoing_merged message s with herror | ⟨key, adapted, hok, hout⟩
  · exact .inl herror
  have hfewer (hlost : ¬ (resolved message s).Keyed) :
      (subject (adapted.getD message)).uris.length < (subject message).uris.length := by
    rcases Json.merged_cases (resolved message s) with ⟨hkeyed, -⟩ | ⟨-, hless⟩
    · exact absurd hkeyed hlost
    · rw [uris_subject_of_moved (subject_ne_null hlost) hout, ← length_uris_resolved message s]
      exact hless
  refine .inr ⟨key, adapted, hok, hout, ⟨fun hsame => ?_, fun hkeyed => ?_⟩, hfewer⟩
  · by_contra hlost
    -- with all entries in it, what goes out would have as many URIs as what came in
    have hless := hfewer hlost
    rw [uris_subject_of_moved (subject_ne_null hlost) hsame, length_uris_resolved] at hless
    exact Nat.lt_irrefl _ hless
  · rw [hout, (Json.merged_eq_self_iff _).mpr hkeyed]

/-- Two spellings of a generated file lead to one component, and the edits under the first of them
are lost. -/
theorem edits_lost :
    (fromServer (Utf8.ofString ("\x7b\"id\":1,\"result\":\x7b\"changes\":"
        ++ "\x7b\"file:///src/gen/a.gleam\":[\x7b\"newText\":\"x\"\x7d],"
        ++ "\"file:///src/gen/A.gleam\":[\x7b\"newText\":\"y\"\x7d]\x7d\x7d\x7d"))
      (start ⟨⟨.root, []⟩, "src", "gen", "gleam", "gleam", 8⟩
        ⟨[], [(["src"], .directory), (["src", "A.vue"], .file [] false)]⟩)).2
      = .ok (Utf8.ofString ("\x7b\"id\":1,\"result\":\x7b\"changes\":"
        ++ "\x7b\"file:///src/A.vue\":[\x7b\"newText\":\"y\"\x7d]\x7d\x7d\x7d")) := by
  simp only [Utf8.ofString_append, Utf8.ofString_ofList, Text.ofString_ofList]
  decide +kernel

end Session

end SfcProxy
