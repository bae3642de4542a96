import SfcProxy.Proofs.Session.Redirection

/-!
# The order of lines in a redirected message

The lines of a redirected message move up by the offset of its block, each on its own, and a line
above the block stays as it is. Two lines on the same side of the start of the block keep their
order. If the first is above the block and the second is not, the second may come to lie above the
first: the lines of the block are counted anew from zero, and those above it are not.

## Main definitions

* `Session.movedUp`: the line that is forwarded for a line
* `Session.Crosses`: two lines that change their order
* `Session.IsForwarded`: a place in a message that goes out

## Main results

* `Session.movedUp_le_movedUp_iff`: which lines keep their order
* `Session.ordered_lines_iff`: the same for the lines of a message
-/

namespace SfcProxy.Session

variable {extractor : Extractor} {message : Members} {s : Session} {target : Target}
  {block : ScriptBlock}

/-! ## Two lines -/

/-- The line that is forwarded for a line: it is moved up by the offset, unless that would lead
above the first line. -/
def movedUp (offset line : Int) : Int :=
  if 0 ≤ line - offset then line - offset else line

/-- The first of two lines stays where it is above the block, and the second is moved up from inside
the block to a line above the first. -/
structure Crosses (offset first second : Int) : Prop where
  above : first < offset
  behind : offset ≤ second
  near : second < first + offset

theorem movedUp_of_lt {offset line : Int} (h : line < offset) : movedUp offset line = line :=
  if_neg (by omega)

theorem movedUp_of_le {offset line : Int} (h : offset ≤ line) :
    movedUp offset line = line - offset :=
  if_pos (by omega)

/-- Two lines keep their order unless they cross. -/
theorem movedUp_le_movedUp_iff {offset first second : Int} (horder : first ≤ second) :
    movedUp offset first ≤ movedUp offset second ↔ ¬ Crosses offset first second := by
  by_cases hfirst : first < offset
  · rw [movedUp_of_lt hfirst]
    by_cases hsecond : second < offset
    · rw [movedUp_of_lt hsecond]
      exact iff_of_true horder fun h => absurd h.behind (by omega)
    · rw [movedUp_of_le (by omega)]
      constructor
      · intro hle hcrosses
        have := hcrosses.near
        omega
      · intro hnot
        by_contra hlt
        exact hnot ⟨hfirst, by omega, by omega⟩
  · rw [movedUp_of_le (by omega), movedUp_of_le (by omega)]
    exact iff_of_true (by omega) fun h => hfirst h.above

/-! ## The lines of a message -/

/-- What stands behind a path in a message goes out: it belongs neither to the changes, which are
replaced, nor to the options for the proxy, which are taken out. -/
structure IsForwarded (message : Members) (path : List Json.Step) : Prop where
  changes : ¬ changesPath <+: path
  options : ownOptions? message = none ∨ ¬ optionsPath <+: path

/-- **Which lines keep their order.** Let a message be redirected by a block. For any two lines in
it, one not behind the other, both go out, and they keep their order if and only if they do not
cross the start of the block. -/
theorem ordered_lines_iff {body bytes : List UInt8} {result : Option Members}
    (hbody : s.decode body = .object message)
    (htarget : target? (settingsBy message s.settings) (unwrap message s).message
      = .ok (some target))
    (hblock : decidingBlock extractor s.files target = .ok (some block))
    (hok : (incoming extractor message s).2 = .ok result)
    (hbytes : (fromEditor extractor body s).2 = .ok bytes) :
    ∃ out, s.decode bytes = .object out ∧
      ∀ first second a b, IsForwarded message first → IsForwarded message second →
        (Json.obj message).follow? (first ++ [.member "line"]) = some (.int a) →
        (Json.obj message).follow? (second ++ [.member "line"]) = some (.int b) → a ≤ b →
        ∃ a' b', (Json.obj out).follow? (first ++ [.member "line"]) = some (.int a') ∧
          (Json.obj out).follow? (second ++ [.member "line"]) = some (.int b') ∧
          (a' ≤ b' ↔ ¬ Crosses block.lineOffset a b) := by
  obtain ⟨out, hout, hredirected⟩ := exists_redirected hbody htarget hblock hok hbytes
  refine ⟨out, hout, fun first second a b hfirst hsecond ha hb horder => ?_⟩
  refine ⟨movedUp block.lineOffset a, movedUp block.lineOffset b, ?_, ?_, ?_⟩
  · exact hredirected.lines (Target.isOf htarget) ha hfirst.changes hfirst.options
  · exact hredirected.lines (Target.isOf htarget) hb hsecond.changes hsecond.options
  · exact movedUp_le_movedUp_iff horder

/-- A selection that starts above a block and ends well behind its start. -/
theorem ordered_lines_iff_selection :
    ∃ body bytes message s,
      body = Utf8.ofString ("\x7b\"params\":\x7b\"textDocument\":"
        ++ "\x7b\"uri\":\"file:///src/A.vue\","
        ++ "\"text\":\"\\n\\n<script lang=gleam>x</script>\"\x7d,"
        ++ "\"range\":\x7b\"start\":\x7b\"line\":1\x7d,\"end\":\x7b\"line\":6\x7d\x7d\x7d\x7d") ∧
      bytes = Utf8.ofString ("\x7b\"params\":\x7b\"textDocument\":"
        ++ "\x7b\"uri\":\"file:///src/gen/a.gleam\",\"text\":\"x\"\x7d,"
        ++ "\"range\":\x7b\"start\":\x7b\"line\":1\x7d,\"end\":\x7b\"line\":4\x7d\x7d\x7d\x7d") ∧
      s = start ⟨⟨.root, []⟩, "src", "gen", "gleam", "gleam", 8⟩ (.empty []) ∧
      (s.decode body = .object message ∧
        (fromEditor (.ofLang "gleam") body s).2 = .ok bytes) ∧
      ∃ target block result out,
        target? (settingsBy message s.settings) (unwrap message s).message = .ok (some target) ∧
        decidingBlock (.ofLang "gleam") s.files target = .ok (some block) ∧
        (incoming (.ofLang "gleam") message s).2 = .ok result ∧
        s.decode bytes = .object out ∧
        ∀ first second a b, IsForwarded message first → IsForwarded message second →
          (Json.obj message).follow? (first ++ [.member "line"]) = some (.int a) →
          (Json.obj message).follow? (second ++ [.member "line"]) = some (.int b) → a ≤ b →
          ∃ a' b', (Json.obj out).follow? (first ++ [.member "line"]) = some (.int a') ∧
            (Json.obj out).follow? (second ++ [.member "line"]) = some (.int b') ∧
            (a' ≤ b' ↔ ¬ Crosses block.lineOffset a b) := by
  refine ⟨_, _, [(Text.ofString "params", .obj [
      (Text.ofString "textDocument", .obj [(Text.ofString "uri", .str "file:///src/A.vue"),
        (Text.ofString "text", .str "\n\n<script lang=gleam>x</script>")]),
      (Text.ofString "range", .obj [(Text.ofString "start", .obj [(Text.ofString "line", .int 1)]),
        (Text.ofString "end", .obj [(Text.ofString "line", .int 6)])])])], _, rfl, rfl, rfl, ?_⟩
  generalize hs : start _ _ = s
  generalize hbody : Utf8.ofString _ = body
  generalize hbytes : Utf8.ofString _ = bytes
  generalize hmessage : [(Text.ofString "params", _)] = message
  have hcheck : (s.decode body = .object message ∧
      (fromEditor (.ofLang "gleam") body s).2 = .ok bytes) ∧ bytes ≠ body ∧
      (target? (settingsBy message s.settings)
        (unwrap message s).message).toOption.join.any (fun target =>
          (decidingBlock (.ofLang "gleam") s.files target).toOption.join.isSome) = true := by
    rw [← hmessage, ← hs, ← hbody, ← hbytes]
    simp only [Utf8.ofString_append, Utf8.ofString_ofList, Text.ofString_ofList]
    decide +kernel
  obtain ⟨⟨hdecode, hout⟩, hne, hdeciding⟩ := hcheck
  obtain ⟨target, block, htarget, hblock⟩ := exists_deciding_of_any hdeciding
  obtain ⟨result, hok⟩ := unfailing_of_ne hout hne message hdecode
  obtain ⟨out, hforwarded, hlines⟩ := ordered_lines_iff hdecode htarget hblock hok hout
  exact ⟨⟨hdecode, hout⟩, target, block, result, out, htarget, hblock, hok, hforwarded, hlines⟩

/-- A range that starts above a block and ends in its second line comes out upside down. -/
theorem range_turned_over :
    ∃ body s,
      body = Utf8.ofString ("\x7b\"params\":\x7b\"textDocument\":"
        ++ "\x7b\"uri\":\"file:///src/A.vue\","
        ++ "\"text\":\"\\n\\n<script lang=gleam>x</script>\"\x7d,"
        ++ "\"range\":\x7b\"start\":\x7b\"line\":1\x7d,\"end\":\x7b\"line\":2\x7d\x7d\x7d\x7d") ∧
      s = start ⟨⟨.root, []⟩, "src", "gen", "gleam", "gleam", 8⟩ (.empty []) ∧
      (fromEditor (.ofLang "gleam") body s).2 = .ok (Utf8.ofString (
        "\x7b\"params\":\x7b\"textDocument\":\x7b\"uri\":\"file:///src/gen/a.gleam\","
          ++ "\"text\":\"x\"\x7d,"
          ++ "\"range\":\x7b\"start\":\x7b\"line\":1\x7d,"
          ++ "\"end\":\x7b\"line\":0\x7d\x7d\x7d\x7d")) := by
  refine ⟨_, _, rfl, rfl, ?_⟩
  simp only [Utf8.ofString_append, Utf8.ofString_ofList, Text.ofString_ofList]
  decide +kernel

end SfcProxy.Session
