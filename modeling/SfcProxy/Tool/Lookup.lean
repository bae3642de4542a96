import SfcProxy.FileTree
import SfcProxy.Text.Octets

/-!
# File names

Tools name files by octets. A name that ends in a slash stands for a directory only, which a path
does not tell.

## Main definitions

* `FileTree.find`: what a name stands for
* `FileTree.place`: where a file with a name may be made
-/

namespace SfcProxy.FileTree

/-- The name can only stand for a directory. -/
def demandsDirectory (name : Octets) : Bool :=
  match (name.split (· == '/')).reverse with
  | _ :: [] => false
  | last :: _ => last.isEmpty || last == ['.']
  | [] => false

/-- What a name stands for. -/
def find (tree : FileTree) (name : Octets) : Except SystemCause (Location × FileNode) :=
  if name.isEmpty then .error .notFound
  else do
    let location ← tree.locate (Path.ofText name.text)
    match tree.node? location with
    | none => .error .notFound
    | some .directory => return (location, .directory)
    | some node => if demandsDirectory name then .error .notDirectory else return (location, node)

/-- Where a file with a name may be made, and what stands there. -/
def place (tree : FileTree) (name : Octets) : Except SystemCause (Location × Option FileNode) :=
  if name.isEmpty then .error .notFound
  else do
    match ← tree.slot (Path.ofText name.text) with
    | (location, none) =>
      if demandsDirectory name then .error .isDirectory else return (location, none)
    | (location, some .directory) => return (location, some .directory)
    | (location, some node) =>
      if demandsDirectory name then .error .notDirectory else return (location, some node)

end SfcProxy.FileTree
