/-!
# Numbered entries

Processes, streams and pipes are known by their numbers: they stand in lists of numbered entries,
in the order in which they came.

## Main definitions

* `Numbered`: entries by number
* `Numbered.put`, `Numbered.erase`: setting and removing an entry
-/

namespace SfcProxy.Tool

/-- Entries by number. -/
abbrev Numbered (α : Type) := List (Nat × α)

namespace Numbered

variable {α : Type}

/-- The entry with a number. -/
def get? (number : Nat) (entries : Numbered α) : Option α :=
  entries.lookup number

/-- Sets the entry with a number, which keeps its place; a new entry comes last. -/
def put (number : Nat) (entry : α) : Numbered α → Numbered α
  | [] => [(number, entry)]
  | e :: rest => if e.1 = number then (number, entry) :: rest else e :: put number entry rest

/-- Removes the entry with a number. -/
def erase (number : Nat) (entries : Numbered α) : Numbered α :=
  entries.filter (·.1 ≠ number)

/-- The least number from `least` on that has no entry; one of the next `budget` is taken to be
free. -/
def freeFrom (entries : Numbered α) (least : Nat) : (budget : Nat) → Nat
  | 0 => least
  | budget + 1 =>
    if (entries.get? least).isSome then freeFrom entries (least + 1) budget else least

/-- The least number from `least` on that has no entry. -/
def free (entries : Numbered α) (least : Nat) : Nat :=
  freeFrom entries least entries.length

end Numbered

end SfcProxy.Tool
