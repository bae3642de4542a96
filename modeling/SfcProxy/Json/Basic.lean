import SfcProxy.Double.Basic
import SfcProxy.Text.Basic

/-!
# JSON values

Messages are JSON objects. Integers are unbounded, other numbers are binary64 values, and the
members of an object keep the order in which their names first appeared.

## Main definitions

* `Json`: the values, with decidable equality
* `Json.get?`, `Json.set`, `Json.erase`: one member of an object
* `Json.member?`: a member of a value that may not be an object
-/

namespace SfcProxy

/-- A JSON value. -/
inductive Json where
  | null
  | bool (b : Bool)
  | int (n : Int)
  | real (x : Double)
  | str (s : Text)
  | arr (items : List Json)
  | obj (members : List (Text × Json))

/-- The members of an object, in order. -/
abbrev Members := List (Text × Json)

namespace Json

/-! ## Equality -/

mutual

/-- Equality of values as a test. -/
def beq : Json → Json → Bool
  | null, null => true
  | bool a, bool b => a == b
  | int a, int b => a == b
  | real a, real b => a == b
  | str a, str b => a == b
  | arr xs, arr ys => beqItems xs ys
  | obj xs, obj ys => beqMembers xs ys
  | _, _ => false

/-- Equality of lists of values as a test. -/
def beqItems : List Json → List Json → Bool
  | [], [] => true
  | x :: xs, y :: ys => beq x y && beqItems xs ys
  | _, _ => false

/-- Equality of members as a test. -/
def beqMembers : List (Text × Json) → List (Text × Json) → Bool
  | [], [] => true
  | (k, x) :: xs, (l, y) :: ys => k == l && (beq x y && beqMembers xs ys)
  | _, _ => false

end

mutual

theorem beq_iff_eq : ∀ a b : Json, beq a b = true ↔ a = b
  | null, b => by cases b <;> simp [beq]
  | bool _, b => by cases b <;> simp [beq]
  | int _, b => by cases b <;> simp [beq]
  | real _, b => by cases b <;> simp [beq]
  | str _, b => by cases b <;> simp [beq]
  | arr xs, b => by cases b <;> simp [beq, beqItems_iff_eq xs]
  | obj xs, b => by cases b <;> simp [beq, beqMembers_iff_eq xs]

theorem beqItems_iff_eq : ∀ xs ys : List Json, beqItems xs ys = true ↔ xs = ys
  | [], ys => by cases ys <;> simp [beqItems]
  | x :: xs, ys => by cases ys <;> simp [beqItems, beq_iff_eq x, beqItems_iff_eq xs]

theorem beqMembers_iff_eq : ∀ xs ys : List (Text × Json), beqMembers xs ys = true ↔ xs = ys
  | [], ys => by cases ys <;> simp [beqMembers]
  | (k, x) :: xs, ys => by
    cases ys <;> simp [beqMembers, beq_iff_eq x, beqMembers_iff_eq xs, Prod.ext_iff, and_assoc]

end

instance : DecidableEq Json := fun a b => decidable_of_iff _ (beq_iff_eq a b)

/-! ## Members -/

/-- The value of the member called `name`. -/
def get? (name : Text) : Members → Option Json
  | [] => none
  | (key, value) :: rest => if key = name then some value else get? name rest

/-- Gives the member called `name` a value: in its place if there is one, else at the end. -/
def set (name : Text) (value : Json) : Members → Members
  | [] => [(name, value)]
  | (key, old) :: rest =>
    if key = name then (key, value) :: rest else (key, old) :: set name value rest

/-- Removes the member called `name`. -/
def erase (name : Text) (members : Members) : Members :=
  members.filter (·.1 ≠ name)

/-- Some member is called `name`. -/
def has (name : Text) (members : Members) : Bool :=
  (get? name members).isSome

/-- The member called `name` of a value, which other values than objects do not have. -/
def member? (name : Text) : Json → Option Json
  | obj members => get? name members
  | _ => none

/-- The text of a string. -/
def text? : Json → Option Text
  | str s => some s
  | _ => none

/-- The items of an array. -/
def items? : Json → Option (List Json)
  | arr items => some items
  | _ => none

end Json

end SfcProxy
