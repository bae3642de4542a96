import SfcProxy.Path
import SfcProxy.Text.Quoted
import SfcProxy.Text.Utf8

/-!
# File trees

The part of a file system that the proxy can see: directories and regular files by their absolute
location, without links or permissions. Operations take paths as they are written, walk them
component by component, and fail as the system does.

## Main definitions

* `FileTree`: a working directory and the nodes below the root
* `FileTree.locate`: the location of an existing node
* `FileTree.readFile`, `FileTree.writeFile`: the bytes of a file
* `FileTree.makeDirectories`: a directory and all that are missing above it
* `FileTree.listing`: the names in a directory
-/

namespace SfcProxy

/-! ## Errors -/

/-- Why the system refuses an operation. -/
inductive SystemCause where
  | notFound
  | denied
  | occupied
  | notDirectory
  | isDirectory
  | nameTooLong
  | notExecutable
  | badDescriptor
  | brokenPipe
  deriving DecidableEq

namespace SystemCause

/-- The number of a cause. -/
def number : SystemCause → Nat
  | notFound => 2
  | notExecutable => 8
  | badDescriptor => 9
  | denied => 13
  | occupied => 17
  | notDirectory => 20
  | isDirectory => 21
  | brokenPipe => 32
  | nameTooLong => 36

/-- The wording of a cause. -/
def text : SystemCause → Text
  | notFound => "No such file or directory"
  | notExecutable => "Exec format error"
  | badDescriptor => "Bad file descriptor"
  | denied => "Permission denied"
  | occupied => "File exists"
  | notDirectory => "Not a directory"
  | isDirectory => "Is a directory"
  | brokenPipe => "Broken pipe"
  | nameTooLong => "File name too long"

end SystemCause

/-- Why an operation on a path fails: the system refuses it, or the path cannot even be given to
the system. -/
inductive FileError where
  | system (cause : SystemCause) (path : Text)
  /-- A null character: it is found when the path is turned into bytes, before the operation is
  known, and so is worded alike for listing, making, reading and writing. -/
  | nullCharacter
  | surrogates (error : Utf8.EncodeError)
  deriving DecidableEq

namespace FileError

/-- The system refused the operation. -/
def isSystem : FileError → Bool
  | system _ _ => true
  | _ => false

/-- The wording of an error. -/
def message : FileError → Text
  | system cause path =>
    ("[Errno " : Text) ++ Text.ofNat cause.number ++ ("] " : Text) ++ cause.text ++ (": " : Text)
      ++ path.quoted
  | nullCharacter => "embedded null byte"
  | surrogates error => error.message

end FileError

/-! ## Names -/

/-- A surrogate that stands for a byte which is no UTF-8. -/
def isEscapedByte : TextUnit → Bool
  | .surrogate i => 0x480 ≤ i.val && i.val < 0x500
  | .scalar _ => false

/-- The number of bytes of a name in the system. -/
def nameSize (name : Text) : Nat :=
  name.foldl (fun size u => size + match u with
    | .scalar c => (Utf8.encodeChar c).length
    | .surrogate _ => 1) 0

/-- The greatest number of bytes of a name. -/
def nameLimit : Nat := 255

/-- The greatest number of bytes of a path. -/
def pathLimit : Nat := 4095

/-- A surrogate that stands for nothing. -/
def isStraySurrogate (u : TextUnit) : Bool :=
  u.isSurrogate && !isEscapedByte u

/-- A path can be given to the system. -/
def checkPath (path : Text) : Except FileError Unit :=
  if path.any isStraySurrogate then
    let before := path.takeWhile (!isStraySurrogate ·)
    -- All surrogates directly behind the first stray one are refused with it.
    .error (.surrogates ⟨before.length, (path.drop before.length).takeWhile (·.isSurrogate)⟩)
  else if path.contains (.scalar '\x00') then .error .nullCharacter
  else .ok ()

/-- A path can be resolved: all that is looked at on the way can be given to the system. -/
def checkResolvable (path : Path) : Except FileError Unit :=
  path.lookups.forM fun p => checkPath p.text

/-! ## Trees -/

/-- An absolute location: the names from the root down. -/
abbrev Location := List Text

/-- What stands at a location. -/
inductive FileNode where
  | directory
  | file (bytes : List UInt8) (executable : Bool)
  deriving DecidableEq

/-- The nodes of a file system by their location, and the directory in which relative paths
start. The root itself is always a directory. -/
structure FileTree where
  cwd : Location
  nodes : List (Location × FileNode)
  deriving DecidableEq

namespace FileTree

/-- The node at a location. -/
def node? (tree : FileTree) (at_ : Location) : Option FileNode :=
  if at_ = [] then some .directory else (tree.nodes.find? (·.1 = at_)).map (·.2)

/-- The location holds a directory. -/
def isDirectory (tree : FileTree) (at_ : Location) : Bool :=
  tree.node? at_ = some .directory

/-- Puts a node at a location, in place of what is there. -/
def put (tree : FileTree) (at_ : Location) (node : FileNode) : FileTree :=
  { tree with nodes := tree.nodes.filter (·.1 ≠ at_) ++ [(at_, node)] }

/-- Removes a location and all below it. -/
def remove (tree : FileTree) (at_ : Location) : FileTree :=
  { tree with nodes := tree.nodes.filter fun entry => !at_.isPrefixOf entry.1 }

/-- The names in the directory at a location. -/
def names (tree : FileTree) (at_ : Location) : List Text :=
  tree.nodes.filterMap fun entry =>
    if entry.1.dropLast = at_ then entry.1.getLast? else none

/-- Walks down from a location along the components of a path. -/
def walk (tree : FileTree) : Location → List Text → Except SystemCause Location
  | at_, [] => .ok at_
  | at_, part :: rest =>
    if !tree.isDirectory at_ then .error .notDirectory
    else if part = ".." then walk tree at_.dropLast rest
    else if nameSize part > nameLimit then .error .nameTooLong
    else if (tree.node? (at_ ++ [part])).isNone then .error .notFound
    else walk tree (at_ ++ [part]) rest

/-- Where the walk along a path starts. -/
def origin (tree : FileTree) (path : Path) : Location :=
  if path.anchor = .here then tree.cwd else []

/-- The location of an existing node. -/
def locate (tree : FileTree) (path : Path) : Except SystemCause Location :=
  if nameSize path.text > pathLimit then .error .nameTooLong
  else tree.walk (tree.origin path) path.parts

/-- Where the last component of a path may be created: the location, and what stands there.
A path that has no last component of its own names a directory that exists. -/
def slot (tree : FileTree) (path : Path) : Except SystemCause (Location × Option FileNode) :=
  if nameSize path.text > pathLimit then .error .nameTooLong
  else
    match path.parts.getLast? with
    | none => .ok (tree.origin path, some .directory)
    | some last =>
      if last = ".." then do
        let at_ ← tree.walk (tree.origin path) path.parts
        return (at_, tree.node? at_)
      else do
        let above ← tree.walk (tree.origin path) path.parts.dropLast
        if !tree.isDirectory above then .error .notDirectory
        else if nameSize last > nameLimit then .error .nameTooLong
        else return (above ++ [last], tree.node? (above ++ [last]))

/-- The result of an operation that the system may refuse. -/
def guard {α : Type} (path : Path) (outcome : Except SystemCause α) : Except FileError α :=
  match checkPath path.text with
  | .error e => .error e
  | .ok () =>
    match outcome with
    | .ok a => .ok a
    | .error cause => .error (.system cause path.text)

/-! ## Operations -/

/-- The bytes of a file. -/
def readFile (tree : FileTree) (path : Path) : Except FileError (List UInt8) :=
  guard path do
    let at_ ← tree.locate path
    match tree.node? at_ with
    | some (.file bytes _) => return bytes
    | some .directory => .error .isDirectory
    | none => .error .notFound

/-- Writes the bytes of a file, which is created if need be. -/
def writeFile (tree : FileTree) (path : Path) (bytes : List UInt8) : Except FileError FileTree :=
  guard path do
    let (at_, node) ← tree.slot path
    match node with
    | some .directory => .error .isDirectory
    | some (.file _ executable) => return tree.put at_ (.file bytes executable)
    | none => return tree.put at_ (.file bytes false)

/-- Makes a directory that does not exist yet. -/
def makeDirectory (tree : FileTree) (path : Path) : Except FileError FileTree :=
  guard path do
    let (at_, node) ← tree.slot path
    if node.isSome then .error .occupied else return tree.put at_ .directory

/-- The path names a directory. -/
def hasDirectory (tree : FileTree) (path : Path) : Bool :=
  match tree.locate path with
  | .ok at_ => tree.isDirectory at_
  | .error _ => false

/-- Makes a directory; one that exists already is fine. -/
def ensureDirectory (tree : FileTree) (path : Path) : FileTree × Option FileError :=
  match tree.makeDirectory path with
  | .ok made => (made, none)
  | .error e => (tree, if e.isSystem && tree.hasDirectory path then none else some e)

/-- Makes a directory and those missing above it, at most `depth` of them. What was made before
an error stays. -/
def makeDirectoriesFrom (tree : FileTree) (path : Path) :
    (depth : Nat) → FileTree × Option FileError
  | 0 => tree.ensureDirectory path
  | depth + 1 =>
    match tree.makeDirectory path with
    | .error (.system .notFound _) =>
      -- The directory above is missing too; at the top there is none to make.
      if path.parent = path then tree.ensureDirectory path
      else
        match makeDirectoriesFrom tree path.parent depth with
        | (made, some e) => (made, some e)
        | (made, none) => made.ensureDirectory path
    | _ => tree.ensureDirectory path

/-- Makes a directory and those missing above it. -/
def makeDirectories (tree : FileTree) (path : Path) : FileTree × Option FileError :=
  tree.makeDirectoriesFrom path path.parts.length

/-- The names in a directory with their nodes, by code point. -/
def listing (tree : FileTree) (path : Path) : Except FileError (List (Text × FileNode)) :=
  guard path do
    let at_ ← tree.locate path
    if !tree.isDirectory at_ then .error .notDirectory
    else
      let names := (tree.names at_).mergeSort Text.le
      return names.filterMap fun name => (tree.node? (at_ ++ [name])).map fun node => (name, node)

/-! ## Setting up -/

/-- Puts a node at a location and directories above it where there is nothing. -/
def plant (tree : FileTree) (at_ : Location) (node : FileNode) : FileTree :=
  let above := (List.range at_.length).map at_.take
  let grown := above.foldl (fun t l => if (t.node? l).isNone then t.put l .directory else t) tree
  grown.put at_ node

/-- A tree with nothing but its working directory. -/
def empty (cwd : Location) : FileTree :=
  (⟨cwd, []⟩ : FileTree).plant cwd .directory

/-- All locations below a directory, relative to it, with their nodes. -/
def below (tree : FileTree) (at_ : Location) : List (Location × FileNode) :=
  tree.nodes.filterMap fun entry =>
    if at_.isPrefixOf entry.1 && entry.1 ≠ at_ then some (entry.1.drop at_.length, entry.2)
    else none

end FileTree

end SfcProxy
