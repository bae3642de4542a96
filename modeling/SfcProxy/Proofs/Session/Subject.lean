import SfcProxy.Proofs.Json.Path
import SfcProxy.Proofs.Session.Run

/-!
# What a message of the editor says

A message of the editor names a document, and the first one may hold options for the proxy. Taking
the options out changes the settings and what lies behind the options in the message; all else in
the message stays, its id and the document that it is about among it.

## Main definitions

* `uriPath`, `changesPath`, `optionsPath`: where a message holds the URI of its document, the
  changes to the document, and the options for the proxy
* `ownOptions?`, `settingsBy`: the options for the proxy, and the settings that they lead to

## Main results

* `unwrap_cases`, `unwrap_settings`, `follow?_unwrap`: what taking the options out does
* `Target.IsOf.exists_generated`: a component that a message is about has a generated file
-/

namespace SfcProxy.Session

/-! ## Paths into a message -/

/-- Where a message holds the URI of the document that it is about. -/
def uriPath : List Json.Step :=
  [.member "params", .member "textDocument", .member "uri"]

/-- Where a message holds changes to its document. -/
def changesPath : List Json.Step :=
  [.member "params", .member "contentChanges"]

/-- Where a message holds options for the proxy. -/
def optionsPath : List Json.Step :=
  [.member "params", .member "initializationOptions", .member ownSection]

/-! ## Options -/

/-- The options for the proxy in a message. -/
def ownOptions? (message : Members) : Option Json :=
  if Json.get? "method" message = some (.str "initialize") then
    (Json.obj message).follow? optionsPath
  else none

/-- The settings that the options in a message lead to. -/
def settingsBy (message : Members) (settings : Settings) : Settings :=
  match ownOptions? message with
  | some own => (settings.applyOptions own).1
  | none => settings

/-- The options that are left for the server. -/
def keptOptions (options : Members) : Json :=
  if (Json.erase ownSection options).isEmpty then .null else .obj (Json.erase ownSection options)

/-- Options are taken out of a message exactly if it holds some. -/
theorem consumeOptions?_cases (settings : Settings) (message : Members) :
    ownOptions? message = none ∧ consumeOptions? settings message = none ∨
      ∃ params options own, Json.get? "params" message = some (.obj params) ∧
        Json.get? "initializationOptions" params = some (.obj options) ∧
        ownOptions? message = some own ∧
        consumeOptions? settings message = some
          (Json.set "params" (.obj (Json.set "initializationOptions" (keptOptions options) params))
            message, settings.applyOptions own) := by
  unfold ownOptions? consumeOptions?
  by_cases hmethod : Json.get? "method" message = some (.str "initialize")
  · rw [if_pos hmethod, if_neg (not_not.mpr hmethod)]
    simp only [optionsPath, Json.follow?]
    cases hparams : Json.get? "params" message with
    | none => exact .inl ⟨rfl, rfl⟩
    | some v =>
      cases v with
      | obj params =>
        dsimp only [Option.bind_some, Json.follow?]
        cases hoptions : Json.get? "initializationOptions" params with
        | none => exact .inl ⟨rfl, rfl⟩
        | some v =>
          cases v with
          | obj options =>
            dsimp only [Option.bind_some, Json.follow?]
            cases hown : Json.get? ownSection options with
            | none => exact .inl ⟨rfl, rfl⟩
            | some own => exact .inr ⟨params, options, own, rfl, hoptions, rfl, rfl⟩
          | null | bool _ | int _ | real _ | str _ | arr _ => exact .inl ⟨rfl, rfl⟩
      | null | bool _ | int _ | real _ | str _ | arr _ => exact .inl ⟨rfl, rfl⟩
  · rw [if_neg hmethod, if_pos hmethod]
    exact .inl ⟨rfl, rfl⟩

/-- A message holds no options for the proxy and stays as it is, or they are taken out. -/
theorem unwrap_cases (message : Members) (s : Session) :
    ownOptions? message = none ∧ unwrap message s = ⟨message, none, s⟩ ∨
      ∃ params options own, Json.get? "params" message = some (.obj params) ∧
        Json.get? "initializationOptions" params = some (.obj options) ∧
        ownOptions? message = some own ∧
        (unwrap message s).message = Json.set "params"
          (.obj (Json.set "initializationOptions" (keptOptions options) params)) message ∧
        (unwrap message s).changed = some (unwrap message s).message := by
  unfold unwrap
  rcases consumeOptions?_cases s.settings message with
    ⟨hown, hnone⟩ | ⟨params, options, own, hparams, hoptions, hown, hsome⟩
  · rw [hnone]
    exact .inl ⟨hown, rfl⟩
  · rw [hsome]
    exact .inr ⟨params, options, own, hparams, hoptions, hown, rfl, rfl⟩

theorem unwrap_settings (message : Members) (s : Session) :
    (unwrap message s).session.settings = settingsBy message s.settings := by
  unfold unwrap settingsBy
  rcases consumeOptions?_cases s.settings message with
    ⟨hown, hnone⟩ | ⟨params, options, own, -, -, hown, hsome⟩
  · rw [hown, hnone]
  · rw [hown, hsome]
    rfl

/-- The options name directories and leave the bound of the ledger alone. -/
theorem settingsBy_maxTracked (message : Members) (settings : Settings) :
    (settingsBy message settings).maxTracked = settings.maxTracked := by
  have happly : ∀ options s d, (Settings.applyOption options s d).1.maxTracked = s.maxTracked := by
    intro options s d
    unfold Settings.applyOption
    split
    · rfl
    · rfl
    · dsimp only
      split
      · rfl
      · cases d <;> rfl
    · rfl
  unfold settingsBy
  split
  · rename_i own _
    cases own with
    | obj members =>
      rw [Settings.applyOptions]
      dsimp only
      rw [happly, happly]
    | null | bool _ | int _ | real _ | str _ | arr _ => rfl
  · rfl

theorem get?_unwrap {name : Text} (hname : name ≠ "params") (message : Members) (s : Session) :
    Json.get? name (unwrap message s).message = Json.get? name message := by
  rcases unwrap_cases message s with ⟨-, hsame⟩ | ⟨params, options, own, -, -, -, hmessage, -⟩
  · rw [hsame]
  · rw [hmessage, Json.get?_set, if_neg hname]

theorem requestId_unwrap (message : Members) (s : Session) :
    requestId (unwrap message s).message = requestId message := by
  rw [requestId, requestId, Json.has, get?_unwrap (by decide), Json.has, get?_unwrap (by decide)]

/-- Numbers outside the options stay where they are when the options are taken out. -/
theorem follow?_unwrap {message : Members} {path : List Json.Step} {n : Int}
    (h : (Json.obj message).follow? path = some (.int n))
    (hpath : ownOptions? message = none ∨ ¬ optionsPath <+: path) (s : Session) :
    (Json.obj (unwrap message s).message).follow? path = some (.int n) := by
  rcases unwrap_cases message s with
    ⟨-, hsame⟩ | ⟨params, options, own, hparams, hoptions, hown, hmessage, -⟩
  · rw [hsame]
    exact h
  rw [hown] at hpath
  have hpath := hpath.resolve_left nofun
  rw [hmessage]
  refine Json.follow?_set_int hparams h ?_
  rintro rest rfl h
  refine Json.follow?_set_int hoptions h ?_
  rintro rest rfl h
  cases rest with
  | nil => cases h
  | cons step rest =>
    cases step with
    | item i => cases h
    | member name =>
      have hname : name ≠ ownSection := by
        rintro rfl
        exact hpath ⟨rest, rfl⟩
      have hkept : Json.get? name (Json.erase ownSection options) = Json.get? name options := by
        rw [Json.get?_erase, if_neg hname]
      rw [Json.follow?, ← hkept] at h
      unfold keptOptions
      split
      · rename_i hempty
        rw [List.isEmpty_iff.mp hempty] at h
        cases h
      · exact h

/-- A message names the same document without the options. -/
theorem follow?_uriPath_unwrap (message : Members) (s : Session) :
    (Json.obj (unwrap message s).message).follow? uriPath
      = (Json.obj message).follow? uriPath := by
  rcases unwrap_cases message s with
    ⟨-, hsame⟩ | ⟨params, options, own, hparams, -, -, hmessage, -⟩
  · rw [hsame]
  · rw [hmessage]
    simp only [uriPath, Json.follow?, Json.get?_set, hparams, if_pos, Option.bind_some]
    rw [if_neg (by decide)]

/-! ## Targets -/

theorem Target.IsOf.follow?_uriPath {settings : Settings} {message : Members} {target : Target}
    (h : target.IsOf settings message) :
    (Json.obj message).follow? uriPath = some (.str target.uri) := by
  simp only [uriPath, Json.follow?, h.params, h.document, h.uri, Option.bind_some]

/-- The component has a generated file, and it is named by the generated URI. -/
theorem Target.IsOf.exists_generated {settings : Settings} {message : Members} {target : Target}
    (h : target.IsOf settings message) :
    ∃ generated, GeneratedFile.ofComponent? settings target.path = some generated ∧
      FileUri.ofPath generated = .ok target.generated := by
  obtain ⟨path, generated, hpath, hsome, huri⟩ := UriMap.toGenerated?_eq_ok h.generated
  rw [h.path] at hpath
  obtain rfl : target.path = path := Option.some.inj (Except.ok.inj hpath)
  exact ⟨generated, hsome, huri⟩

end SfcProxy.Session
