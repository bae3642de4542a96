import SfcProxy.Text.Basic

/-!
# Paths

File paths as texts are taken apart: repeated slashes and `.` components vanish, `..` components
stay. A path that starts with exactly two slashes is kept apart from one that starts with one.

## Main definitions

* `Path`: an anchor and components
* `Path.ofText`, `Path.text`: reading and writing paths
* `Path.join`, `Path.parent`, `Path.name`, `Path.suffix`: the usual operations
* `Path.relativeTo?`: the way from one path down to another
* `Path.resolve`: the absolute path without `..` components
* `Path.lookups`: what is looked at on the way
-/

namespace SfcProxy

/-- Where a path starts. -/
inductive Anchor where
  /-- At the current directory. -/
  | here
  /-- At the root, behind one slash. -/
  | root
  /-- At the root, behind two slashes. -/
  | doubleRoot
  deriving DecidableEq

/-- The slashes of an anchor. -/
def Anchor.text : Anchor → Text
  | here => []
  | root => "/"
  | doubleRoot => "//"

/-- A path: an anchor and the components below it. -/
structure Path where
  anchor : Anchor
  parts : List Text
  deriving DecidableEq

namespace Path

/-- The unit between components. -/
def isSlash (u : TextUnit) : Bool :=
  u == .scalar '/'

/-- The components of a text: the pieces between slashes but for empty ones and `.`. -/
def components (t : Text) : List Text :=
  (t.splitOn isSlash).filter fun part => !part.isEmpty && part != Text.ofString "."

/-- The anchor of a text. -/
def anchorOf (t : Text) : Anchor :=
  match (t.takeWhile isSlash).length with
  | 0 => .here
  | 2 => .doubleRoot
  | _ => .root

/-- The path that a text stands for. -/
def ofText (t : Text) : Path :=
  ⟨anchorOf t, components t⟩

/-- The written form of a path. -/
def text (p : Path) : Text :=
  match p.anchor, p.parts with
  | .here, [] => "."
  | anchor, parts => anchor.text ++ Text.join "/" parts

/-- The path of a text as seen from another path; an anchored text stands for itself. -/
def join (p : Path) (t : Text) : Path :=
  let q := ofText t
  if q.anchor = .here then ⟨p.anchor, p.parts ++ q.parts⟩ else q

/-- The path one component further down. -/
def child (p : Path) (part : Text) : Path :=
  ⟨p.anchor, p.parts ++ [part]⟩

/-- The path without its last component. -/
def parent (p : Path) : Path :=
  ⟨p.anchor, p.parts.dropLast⟩

/-- The last component, empty if there is none. -/
def name (p : Path) : Text :=
  p.parts.getLastD []

/-- The ending of the last component from its last dot on, unless that dot is its first or last
character. -/
def suffix (p : Path) : Text :=
  let ending := p.name.reverse.takeWhile (· != .scalar '.')
  if ending.isEmpty || p.name.length ≤ ending.length + 1 then [] else .scalar '.' :: ending.reverse

/-- The components that lead from `base` down to a path below it. -/
def relativeTo? (p base : Path) : Option (List Text) :=
  if p.anchor = base.anchor ∧ base.parts.isPrefixOf p.parts then
    some (p.parts.drop base.parts.length)
  else none

/-- Components without `..`, each of which takes away the one before it. -/
def collapse (parts : List Text) : List Text :=
  (parts.foldl (fun above (part : Text) => if part = ".." then above.tail else part :: above)
    []).reverse

/-- The absolute path without `..` components, seen from the directory `cwd`. -/
def resolve (cwd : List Text) (p : Path) : Path :=
  ⟨.root, collapse (if p.anchor = .here then cwd ++ p.parts else p.parts)⟩

/-- The components above after one more of a path that starts at `anchor`: a `..` takes the last
one away, and stays only where nothing is known to be above. -/
def ascend (anchor : Anchor) (above : List Text) : List Text :=
  match above.getLast? with
  | none => if anchor = .here then [(".." : Text)] else []
  | some last => if last = ".." then above ++ [(".." : Text)] else above.dropLast

/-- The paths that are looked at, one after the other, when a path below `above` is resolved. -/
def lookupsFrom (anchor : Anchor) (above : List Text) : List Text → List Path
  | [] => []
  | part :: rest =>
    if part = ".." then lookupsFrom anchor (ascend anchor above) rest
    else ⟨anchor, above ++ [part]⟩ :: lookupsFrom anchor (above ++ [part]) rest

/-- The paths that are looked at, one after the other, when a path is resolved. -/
def lookups (p : Path) : List Path :=
  lookupsFrom (if p.anchor = .here then .here else .root) [] p.parts

end Path

end SfcProxy
