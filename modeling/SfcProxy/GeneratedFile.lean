import SfcProxy.FileTree
import SfcProxy.Log
import SfcProxy.Settings
import SfcProxy.Text.Casing

/-!
# Generated files

A component below the source directory has a generated file at the same place below the generated
directory, all names in lower case. The way back has to find the spelling of the component's path
by searching the source directory.

## Main definitions

* `GeneratedFile.nameOf`: the name of the generated file
* `GeneratedFile.ofComponent?`: the path of the generated file
* `GeneratedFile.toComponent`: the component of a generated file
-/

namespace SfcProxy.GeneratedFile

/-- The ending of component files. -/
def componentSuffix : Text := ".vue"

/-- The ending of generated files. -/
def generatedSuffix : Text := ".gleam"

/-- The name is that of a component file, in any case. -/
def isComponentName (name : Text) : Bool :=
  componentSuffix.isSuffixOf name.lower

/-- The name of the generated file of a component. -/
def nameOf (name : Text) : Text :=
  let stem :=
    if isComponentName name then name.take (name.length - componentSuffix.length) else name
  Text.lower (stem ++ generatedSuffix)

/-- The path lies in the generated directory. -/
def isGenerated (settings : Settings) (path : Path) : Bool :=
  (path.relativeTo? settings.generatedPath).isSome

/-- The path of the generated file of a component. A component outside the source directory has
none, since that path would leave the generated directory. -/
def ofComponent? (settings : Settings) (path : Path) : Option Path :=
  match path.parent.relativeTo? settings.sourcePath with
  | none => none
  | some above =>
    let parts := above.map Text.lower
    -- Such a component would climb out of the generated directory.
    if parts.contains ".." then none
    else
      let base := settings.generatedPath
      some ⟨base.anchor, base.parts ++ parts ++ [nameOf path.name]⟩

/-- The directory in a directory whose name is `name` but for case; the first by code point. -/
def findDirectory? (tree : FileTree) (directory : Path) (name : Text) :
    Except FileError (Option Path) := do
  let entries ← tree.listing directory
  let found := entries.find? fun (entry, node) => node = .directory && entry.lower = name.lower
  return found.map fun (entry, _) => directory.child entry

/-- The component in a directory whose generated file is called `name` but for case; the first by
code point. -/
def findComponent? (tree : FileTree) (directory : Path) (name : Text) :
    Except FileError (Option Path) := do
  let entries ← tree.listing directory
  let found := entries.find? fun (entry, node) =>
    node ≠ .directory && isComponentName entry && nameOf entry = name.lower
  return found.map fun (entry, _) => directory.child entry

/-- What a search found, and in which directory it stopped on an error. -/
abbrev Search := Except (Path × FileError) (Option Path)

/-- Searches a directory for a component along the names in its generated path. -/
def search (tree : FileTree) (directory : Path) : (names : List Text) → Search
  | [] =>
    match findComponent? tree directory [] with
    | .ok found => .ok found
    | .error e => .error (directory, e)
  | [name] =>
    match findComponent? tree directory name with
    | .ok found => .ok found
    | .error e => .error (directory, e)
  | name :: rest =>
    match findDirectory? tree directory name with
    | .ok (some next) => search tree next rest
    | .ok none => .ok none
    | .error e => .error (directory, e)

/-- The record of a directory that could not be searched. -/
def unsearched (directory path : Path) (e : FileError) : LogRecord :=
  ⟨.warning, ("PROXY: cannot scan " : Text) ++ directory.text ++ (" for the source of " : Text)
    ++ path.text ++ (": " : Text) ++ e.message⟩

/-- The component of a generated file, if it exists. A missing directory is an ordinary miss;
another refusal of the system is a miss with a record. -/
def toComponent (settings : Settings) (tree : FileTree) (path : Path) :
    Except FileError (Option Path × Log) :=
  match path.relativeTo? settings.generatedPath with
  | none => .ok (none, [])
  | some names =>
    match search tree settings.sourcePath names with
    | .ok found => .ok (found, [])
    | .error (_, .system .notFound _) | .error (_, .system .notDirectory _) => .ok (none, [])
    | .error (directory, .system cause at_) =>
      .ok (none, [unsearched directory path (.system cause at_)])
    | .error (_, e) => .error e

/-- The path of the generated file of a component, with the directories above it made. -/
def ensure (settings : Settings) (tree : FileTree) (path : Path) :
    FileTree × Except FileError (Option Path) :=
  match ofComponent? settings path with
  | none => (tree, .ok none)
  | some generated =>
    match tree.makeDirectories generated.parent with
    | (made, none) => (made, .ok (some generated))
    | (made, some e) => (made, .error e)

end SfcProxy.GeneratedFile
