import SfcProxy.Json.Basic

/-!
# Line numbers in messages

Messages put positions in objects of many shapes, and all of them call the line number `line`.
So line numbers are mapped between a component and its generated file by walking the whole value.

## Main definitions

* `Json.mapMembers`: replaces members anywhere in a value
* `Json.shiftLines`: adds an offset to all line numbers that stay non-negative
* `Json.shiftLinesWithin`: the same for offsets of any size
* `Json.depth`: how deep a value nests
* `toGeneratedLine`, `toComponentLine`: the two maps on a single line number
-/

namespace SfcProxy

namespace Json

mutual

/-- Replaces, at any depth, each member that `replace` gives a new value. Replaced members are
not walked into. -/
def mapMembers (replace : Text → Json → Option Json) : Json → Json
  | arr items => arr (mapMembersItems replace items)
  | obj members => obj (mapMembersList replace members)
  | v => v

/-- Replaces members in the items of an array. -/
def mapMembersItems (replace : Text → Json → Option Json) : List Json → List Json
  | [] => []
  | v :: rest => mapMembers replace v :: mapMembersItems replace rest

/-- Replaces members in the members of an object. -/
def mapMembersList (replace : Text → Json → Option Json) :
    List (Text × Json) → List (Text × Json)
  | [] => []
  | (name, v) :: rest =>
    (name, (replace name v).getD (mapMembers replace v)) :: mapMembersList replace rest

end

/-- A number with an offset added, unless the sum is negative. -/
def addOffset? (offset : Int) : Json → Option Json
  | int n => if 0 ≤ n + offset then some (int (n + offset)) else none
  | real x => if (x.addInt offset).isNonneg then some (real (x.addInt offset)) else none
  | _ => none

/-- The new value of a member when lines move by an offset. -/
def shiftLine? (offset : Int) (name : Text) (v : Json) : Option Json :=
  if name = "line" then addOffset? offset v else none

/-- Adds an offset to every line number in a value, except where the sum is negative. -/
def shiftLines (offset : Int) (v : Json) : Json :=
  if offset = 0 then v else v.mapMembers (shiftLine? offset)

/-! ## Offsets out of range -/

mutual

/-- Some line number in a value is a real number. -/
def hasRealLine : Json → Bool
  | arr items => hasRealLineItems items
  | obj members => hasRealLineMembers members
  | _ => false

/-- Some line number in the items of an array is a real number. -/
def hasRealLineItems : List Json → Bool
  | [] => false
  | v :: rest => hasRealLine v || hasRealLineItems rest

/-- Some line number among the members of an object, or in them, is a real number. -/
def hasRealLineMembers : List (Text × Json) → Bool
  | [] => false
  | (name, v) :: rest =>
    (match v with
      | real _ => name == Text.ofString "line"
      | v => hasRealLine v) || hasRealLineMembers rest

end

/-- An offset that is too large to be added to a real number. -/
structure OffsetError where
  deriving DecidableEq

/-- The wording of the error. -/
def OffsetError.message (_ : OffsetError) : Text :=
  "int too large to convert to float"

/-- The offset is beyond all real numbers. -/
def isBeyondReals (offset : Int) : Bool :=
  match Double.ofInt offset with
  | .finite _ _ _ => false
  | _ => true

/-- Adds an offset to every line number in a value, unless there is one to which it cannot be
added. -/
def shiftLinesWithin (offset : Int) (v : Json) : Except OffsetError Json :=
  if isBeyondReals offset && v.hasRealLine then .error ⟨⟩ else .ok (v.shiftLines offset)

/-! ## Depth -/

mutual

/-- How deep arrays and objects nest in a value. -/
def depth : Json → Nat
  | arr items => depthItems items + 1
  | obj members => depthMembers members + 1
  | _ => 0

/-- How deep arrays and objects nest in the items of an array. -/
def depthItems : List Json → Nat
  | [] => 0
  | v :: rest => max (depth v) (depthItems rest)

/-- How deep arrays and objects nest in the members of an object. -/
def depthMembers : List (Text × Json) → Nat
  | [] => 0
  | (_, v) :: rest => max (depth v) (depthMembers rest)

end

end Json

/-- The line of the generated file that holds a line of the component. -/
def toGeneratedLine (line offset : Int) : Int :=
  line - offset

/-- The line of the component that holds a line of the generated file. -/
def toComponentLine (line offset : Int) : Int :=
  line + offset

end SfcProxy
