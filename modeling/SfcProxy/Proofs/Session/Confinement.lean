import SfcProxy.Proofs.GeneratedFile
import SfcProxy.Proofs.Session.Effect

/-!
# Where the proxy writes

The path of a generated file is made from a text that the editor sends. However that text is
spelled, the path goes down from the generated directory and never up again, and its last name ends
like that of a generated file. A message of the editor writes this one file, and makes the
directories on the way to it that are missing. A message of the server writes nothing.

## Main definitions

* `GeneratedFile.IsBelow`: a path goes down from a directory to a generated file
* `FileTree.Confined`: one file at most is written, and directories are made on the way to it alone

## Main results

* `GeneratedFile.exists_isBelow`: the generated file of a component is below the generated directory
* `FileTree.Confined.location_below`: and so is its location
* `Session.writes_confined`: what messages do to the files
-/

namespace SfcProxy

namespace GeneratedFile

/-- A path goes down from a directory, along names that never lead up, to a generated file. -/
structure IsBelow (root : Path) (names : List Text) (path : Path) : Prop where
  eq : path = ⟨root.anchor, root.parts ++ names⟩
  down : Text.ofString ".." ∉ names
  last : ∃ name, names.getLast? = some name ∧ generatedSuffix <:+ name

/-- Two dots do not end like a generated file. -/
theorem ne_up_of_suffix {name : Text} (h : generatedSuffix <:+ name) :
    Text.ofString ".." ≠ name := by
  rintro rfl
  exact absurd h.length_le (by decide)

/-- The generated file of a component is below the generated directory. -/
theorem exists_isBelow {settings : Settings} {path generated : Path}
    (h : ofComponent? settings path = some generated) :
    ∃ names, IsBelow settings.generatedPath names generated := by
  have hlast := suffix_nameOf path.name
  obtain ⟨above, -, hup, rfl⟩ := ofComponent?_eq_some h
  refine ⟨above.map Text.lower ++ [nameOf path.name], ?_, ?_, _, List.getLast?_concat, hlast⟩
  · rw [List.append_assoc]
  · rw [List.mem_append, List.mem_singleton, not_or]
    exact ⟨hup, ne_up_of_suffix hlast⟩

theorem IsBelow.parts_ne_nil {root path : Path} {names : List Text}
    (h : IsBelow root names path) : path.parts ≠ [] := by
  obtain ⟨name, hname, -⟩ := h.last
  rw [h.eq]
  exact List.append_ne_nil_of_right_ne_nil _ (List.ne_nil_of_mem (List.mem_of_getLast? hname))

end GeneratedFile

namespace FileTree

variable {tree made grown : FileTree} {path : Path}

/-- A directory is new, and on the way along a path. -/
def NewDirectory (path : Path) (tree grown : FileTree) (l : Location) : Prop :=
  tree.node? l = none ∧ grown.node? l = some .directory ∧
    ∃ above, above <+: path.parts ∧ above ≠ path.parts ∧
      grown.walk (grown.origin path) above = .ok l

/-- A file is new or has new bytes, and a path leads to it. -/
def NewFile (path : Path) (tree grown : FileTree) (l : Location) : Prop :=
  tree.isDirectory l = false ∧ grown.locate path = .ok l ∧
    ∃ bytes executable, grown.node? l = some (.file bytes executable)

/-- One file at most is written, the one at the end of a path, and directories are made on the way
to it alone. -/
structure Confined (path : Path) (tree grown : FileTree) : Prop where
  cwd_eq : grown.cwd = tree.cwd
  nodes : ∀ l, grown.node? l = tree.node? l ∨ NewDirectory path tree grown l ∨
    NewFile path tree grown l

/-- The directories above a file are on the way to it. -/
theorem MakesWay.new (h : MakesWay path.parent tree grown) (hpath : path.parts ≠ [])
    (l : Location) : grown.node? l = tree.node? l ∨ NewDirectory path tree grown l := by
  rcases h.nodes l with heq | ⟨hnone, hdirectory, n, hwalk⟩
  · exact .inl heq
  · refine .inr ⟨hnone, hdirectory, path.parts.dropLast.take n,
      (List.take_prefix n _).trans (List.dropLast_prefix _), ?_, hwalk⟩
    intro hall
    have hlength := congrArg List.length hall
    have hpos := List.length_pos_of_ne_nil hpath
    rw [List.length_take, List.length_dropLast] at hlength
    omega

theorem MakesWay.confined (h : MakesWay path.parent tree grown) (hpath : path.parts ≠ []) :
    Confined path tree grown :=
  ⟨h.cwd_eq, fun l => (h.new hpath l).imp_right .inl⟩

theorem Stores.grows {bytes : List UInt8} (h : Stores path bytes tree grown) :
    tree.Grows grown := by
  obtain ⟨l, executable, -, hfree, hfile, hothers⟩ := h.stored
  refine ⟨h.cwd_eq, fun other hother => ?_, fun other hother => ?_⟩
  · by_cases hl : other = l
    · rw [hl, hfile]
      rfl
    · rwa [hothers other hl]
  · have hl : other ≠ l := by
      rintro rfl
      rw [hfree] at hother
      cases hother
    unfold isDirectory at hother ⊢
    rwa [hothers other hl]

theorem Stores.confined {bytes : List UInt8} (h : Stores path bytes made grown)
    (hway : MakesWay path.parent tree made) (hpath : path.parts ≠ []) :
    Confined path tree grown := by
  have hgrows := h.grows
  obtain ⟨l, executable, hlocate, hfree, hfile, hothers⟩ := h.stored
  refine ⟨h.cwd_eq.trans hway.cwd_eq, fun other => ?_⟩
  by_cases hl : other = l
  · subst hl
    refine .inr (.inr ⟨?_, hlocate, bytes, executable, hfile⟩)
    rcases hway.nodes other with heq | ⟨-, hdirectory, -⟩
    · unfold isDirectory at hfree ⊢
      rwa [heq] at hfree
    · simp [isDirectory, hdirectory] at hfree
  · rw [hothers other hl]
    refine (hway.new hpath other).imp_right fun hnew => .inl ?_
    obtain ⟨hnone, hdirectory, above, hprefix, hproper, hwalk⟩ := hnew
    refine ⟨hnone, (hothers other hl).trans hdirectory, above, hprefix, hproper, ?_⟩
    rw [origin_eq_of_grows hgrows]
    exact walk_mono hgrows hwalk

/-- The location of a path below a directory is below the location of the directory. -/
theorem location_below {root : Path} {names : List Text} {l : Location}
    (hbelow : GeneratedFile.IsBelow root names path) (h : tree.locate path = .ok l) :
    ∃ at_, tree.walk (tree.origin root) root.parts = .ok at_ ∧ l = at_ ++ names := by
  have hwalk := walk_of_locate h
  have horigin : tree.origin path = tree.origin root := by
    rw [origin, origin, hbelow.eq]
  rw [horigin, hbelow.eq, walk_append] at hwalk
  cases hroot : tree.walk (tree.origin root) root.parts with
  | error cause =>
    rw [hroot] at hwalk
    cases hwalk
  | ok at_ =>
    rw [hroot] at hwalk
    exact ⟨at_, rfl, walk_down hbelow.down hwalk⟩

end FileTree

namespace Session

variable {extractor : Extractor} {message : Members} {s : Session}

/-- Once the generated file is written, the files are left alone. -/
theorem incoming_files (extractor : Extractor) (message : Members) (s : Session) :
    (incoming extractor message s).1.files = (prepare extractor message s).1.files := by
  rw [incoming_eq]
  split
  · rfl
  · rename_i plan _
    have henter : (enter plan (prepare extractor message s).1).1.files
        = (prepare extractor message s).1.files := by
      cases plan with
      | keep changed => rfl
      | redirect target block seen redirected => rw [enter_eq]
    split
    · exact henter
    · cases plan with
      | keep changed => exact henter
      | redirect target block seen redirected =>
        rw [(conclude_kept extractor target block seen redirected _).2.1, henter]

theorem outgoing_files (message : Members) (s : Session) :
    (outgoing message s).1.files = s.files := by
  rw [outgoing_eq]
  split
  · rfl
  · rename_i key relocated _
    obtain ⟨ledger, hsettle, -⟩ := settle_kept message key relocated (translate message s).1
    rw [hsettle]
    rfl

theorem Materialized.confined {files : FileTree} {path generated : Path} {bytes : List UInt8}
    {written : FileTree} {outcome : Except Fault Log}
    (h : Materialized files path generated bytes written outcome) (hpath : generated.parts ≠ []) :
    FileTree.Confined generated files written := by
  cases h with
  | stored way stores => exact stores.confined way hpath
  | refused way | failed way => exact way.confined hpath

/-- A message of the editor is about a component, and what it does to the files is confined to the
generated file. -/
structure WritesBelow (message : Members) (s : Session) (files : FileTree) (uri : Text)
    (generated : Path) (names : List Text) : Prop where
  about : (Json.obj message).follow? uriPath = some (.str uri)
  file : ∃ path, FileUri.toPath? uri = .ok (some path) ∧
    GeneratedFile.ofComponent? (settingsBy message s.settings) path = some generated
  below : GeneratedFile.IsBelow (settingsBy message s.settings).generatedPath names generated
  confined : FileTree.Confined generated s.files files
  /-- The location of the file is below that of the generated directory, too. -/
  location : ∀ l, files.locate generated = .ok l → ∃ at_,
    files.walk (files.origin (settingsBy message s.settings).generatedPath)
      (settingsBy message s.settings).generatedPath.parts = .ok at_ ∧ l = at_ ++ names

theorem Redirects.writesBelow {target : Target} {block : ScriptBlock} {generated : Path}
    {files : FileTree} {outcome : Except Fault Log}
    (h : Redirects extractor message s target block generated)
    (hmaterialized : Materialized s.files target.path generated
      (Utf8.encodeChars block.sourceText) files outcome) :
    ∃ uri generated names, WritesBelow message s files uri generated names := by
  obtain ⟨names, hbelow⟩ := GeneratedFile.exists_isBelow h.file
  refine ⟨target.uri, generated, names, ?_, ⟨target.path, h.isOf.path, h.file⟩, hbelow,
    hmaterialized.confined hbelow.parts_ne_nil, fun l hl => FileTree.location_below hbelow hl⟩
  rw [← follow?_uriPath_unwrap message s]
  exact h.isOf.follow?_uriPath

theorem incoming_writes (extractor : Extractor) (message : Members) (s : Session) :
    (incoming extractor message s).1.files = s.files ∨ ∃ uri generated names,
      WritesBelow message s (incoming extractor message s).1.files uri generated names := by
  have hprepared := prepare_cases extractor message s
  rw [incoming_files]
  generalize (prepare extractor message s).1.files = files at hprepared ⊢
  generalize (prepare extractor message s).2 = outcome at hprepared
  cases hprepared with
  | kept | failed => exact .inl rfl
  | unwritten redirects materialized => exact .inr (redirects.writesBelow materialized)
  | redirected seen redirects materialized => exact .inr (redirects.writesBelow materialized)

/-- **Writes stay below the generated directory.** A message of the server leaves the files alone. A
message of the editor does so, too, or it writes the generated file of the component that it is
about and makes the directories on the way to it. However the URI of a component is spelled, the
path of its generated file goes down from the generated directory alone. -/
theorem writes_confined (extractor : Extractor) (body : List UInt8) (s : Session) :
    (fromServer body s).1.files = s.files ∧
      ((fromEditor extractor body s).1.files = s.files ∨ ∃ message uri generated names,
        s.decode body = .object message ∧
          WritesBelow message s (fromEditor extractor body s).1.files uri generated names) ∧
      ∀ settings uri path generated, FileUri.toPath? uri = .ok (some path) →
        GeneratedFile.ofComponent? settings path = some generated →
          ∃ names, GeneratedFile.IsBelow settings.generatedPath names generated := by
  refine ⟨?_, ?_, fun _ _ _ _ _ hgenerated => GeneratedFile.exists_isBelow hgenerated⟩
  · rw [fromServer, pass_files]
    split
    · exact outgoing_files _ s
    · rfl
  · rw [fromEditor, pass_files]
    cases hbody : s.decode body with
    | object message =>
      refine (incoming_writes extractor message s).imp_right fun hwrites => ?_
      obtain ⟨uri, generated, names, hwrites⟩ := hwrites
      exact ⟨message, uri, generated, names, rfl, hwrites⟩
    | other | undecodable _ | beyondLimits _ => exact .inl rfl

/-- An escaped letter, a dot and capitals in a URI: the file is written below the generated
directory, in lower case. -/
theorem writes_confined_spelling :
    ∃ body s, body = Utf8.ofString ("\x7b\"params\":\x7b\"textDocument\":\x7b"
        ++ "\"uri\":\"file:///src/%41/./B.VUE\","
        ++ "\"text\":\"<script lang=gleam>x</script>\"\x7d\x7d\x7d") ∧
      s = start ⟨⟨.root, []⟩, "src", "gen", "gleam", "gleam", 8⟩ (FileTree.empty []) ∧
      (fromEditor (.ofLang "gleam") body s).1.files.readFile
        ⟨.root, ["src", "gen", "a", "b.gleam"]⟩ = .ok (Utf8.ofString "x") ∧
      ∃ message uri generated names, s.decode body = .object message ∧
        WritesBelow message s (fromEditor (.ofLang "gleam") body s).1.files uri generated
          names := by
  refine ⟨_, _, rfl, rfl, ?_⟩
  generalize hbody : Utf8.ofString _ = body
  generalize hs : start _ _ = s
  have hread : (fromEditor (.ofLang "gleam") body s).1.files.readFile
      ⟨.root, ["src", "gen", "a", "b.gleam"]⟩ = .ok (Utf8.ofString "x") := by
    subst hbody hs
    simp only [Utf8.ofString_append, Utf8.ofString_ofList, Text.ofString_ofList]
    decide +kernel
  have hnew : s.files.readFile ⟨.root, ["src", "gen", "a", "b.gleam"]⟩
      ≠ .ok (Utf8.ofString "x") := by
    subst hs
    decide +kernel
  obtain ⟨-, hwrites, -⟩ := writes_confined (.ofLang "gleam") body s
  exact ⟨hread, hwrites.resolve_left fun hsame => hnew (hsame ▸ hread)⟩

end Session

end SfcProxy
