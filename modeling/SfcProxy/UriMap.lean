import SfcProxy.FileUri
import SfcProxy.GeneratedFile
import SfcProxy.Lru

/-!
# Component and generated URIs

The URI of a component determines that of its generated file. The way back is remembered for the
components that pass the proxy, and found by searching the file tree for all others.

## Main definitions

* `UriMap`: component URIs by generated URI
* `UriMap.toGenerated?`: the generated URI of a component
* `UriMap.register`, `UriMap.cached`: remembering and recalling
* `UriMap.toComponent`: the component URI of a generated file
-/

namespace SfcProxy

/-- Component URIs by generated URI, least recently used first. -/
abbrev UriMap := Lru Text Text

namespace UriMap

/-- Why a URI cannot be mapped. -/
inductive Error where
  | uri (error : FileUri.Error)
  | file (error : FileError)
  | bound (error : Lru.BoundError)
  deriving DecidableEq

/-- The wording of an error. -/
def Error.message : Error → Text
  | uri error => error.message
  | file error => error.message
  | bound error => error.message

/-- The URI of the generated file of a component; a URI of another kind, or of a component outside
the source directory, has none. -/
def toGenerated? (settings : Settings) (uri : Text) : Except FileUri.Error (Option Text) := do
  match ← FileUri.toPath? uri with
  | none => return none
  | some path =>
    match GeneratedFile.ofComponent? settings path with
    | none => return none
    | some generated => return some (← FileUri.ofPath generated)

/-- The record of a forgotten URI. -/
def forgotten (uri : Text) : LogRecord :=
  ⟨.debug, ("PROXY: evicted uri mapping for " : Text) ++ uri⟩

/-- What a request to the map comes to: an answer or why there is none, the map afterwards, and
records. -/
structure Answer (α : Type) where
  outcome : Except Error α
  map : UriMap
  log : Log

/-- Remembers the component of a generated file. -/
def register (settings : Settings) (generated component : Text) (map : UriMap) : Answer Unit :=
  let entered := map.insert generated component
  { outcome := match Lru.boundError? settings.maxTracked with
      | some e => .error (.bound e)
      | none => .ok ()
    map := entered.trim settings.maxTracked
    log := (entered.evicted settings.maxTracked).map fun entry => forgotten entry.1 }

/-- Recalls the component of a generated file. -/
def cached (generated : Text) (map : UriMap) : Option Text × UriMap :=
  match map.use? generated with
  | some (component, used) => (some component, used)
  | none => (none, map)

/-- The record of a generated file without a component. -/
def unknown (generated : Text) : LogRecord :=
  ⟨.debug, ("PROXY: no source found for " : Text) ++ generated⟩

/-- The record of a component that was found. -/
def discovered (generated component : Text) : LogRecord :=
  ⟨.debug, ("PROXY: discovered " : Text) ++ generated ++ (" -> " : Text) ++ component⟩

/-- The component of a generated file that is not remembered: it is searched for, and remembered
if it is found. -/
def discover (settings : Settings) (tree : FileTree) (generated : Text) (map : UriMap) :
    Answer (Option Text) :=
  let failed (e : Error) : Answer (Option Text) := ⟨.error e, map, []⟩
  match FileUri.toPath? generated with
  | .error e => failed (.uri e)
  | .ok none => ⟨.ok none, map, []⟩
  | .ok (some path) =>
    if !GeneratedFile.isGenerated settings path then ⟨.ok none, map, []⟩
    else
      match GeneratedFile.toComponent settings tree path with
      | .error e => failed (.file e)
      | .ok (none, log) => ⟨.ok none, map, log ++ [unknown generated]⟩
      | .ok (some found, log) =>
        match FileUri.ofPath found with
        | .error e => { failed (.uri e) with log }
        | .ok component =>
          let entry := map.register settings generated component
          match entry.outcome with
          | .error e => ⟨.error e, entry.map, log ++ entry.log⟩
          | .ok () =>
            ⟨.ok (some component), entry.map, log ++ entry.log ++ [discovered generated component]⟩

/-- The component of a generated file: remembered, or else searched for. An empty URI has none. -/
def toComponent (settings : Settings) (tree : FileTree) (generated : Text) (map : UriMap) :
    Answer (Option Text) :=
  if generated.isEmpty then ⟨.ok none, map, []⟩
  else
    match map.use? generated with
    | some (component, used) => ⟨.ok (some component), used, []⟩
    | none => map.discover settings tree generated

end UriMap

end SfcProxy
