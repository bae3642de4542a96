import SfcProxy.Text.Basic

/-!
# Least-recently-used maps

A map with its entries in the order of their last use, oldest first. Writing and finding an entry
both use it. A bound is kept by dropping entries from the old end.

## Main definitions

* `Lru`: entries, oldest first
* `Lru.insert`, `Lru.use?`: writing and finding
* `Lru.trim`, `Lru.evicted`: what a bound keeps and what it drops
* `Lru.BoundError`: a bound that cannot be kept
-/

namespace SfcProxy

/-- Entries in the order of their last use, oldest first. -/
abbrev Lru (α β : Type) := List (α × β)

namespace Lru

variable {α β : Type} [DecidableEq α]

/-- The value of a key. -/
def get? (key : α) (entries : Lru α β) : Option β :=
  (entries.find? (·.1 = key)).map (·.2)

/-- Gives a key a value and makes it the newest entry. -/
def insert (key : α) (value : β) (entries : Lru α β) : Lru α β :=
  entries.filter (·.1 ≠ key) ++ [(key, value)]

/-- The value of a key, whose entry becomes the newest. -/
def use? (key : α) (entries : Lru α β) : Option (β × Lru α β) :=
  (entries.get? key).map fun value => (value, entries.insert key value)

/-- The newest entries within a bound; a bound below zero leaves none. -/
def trim (bound : Int) (entries : Lru α β) : Lru α β :=
  entries.drop (entries.length - bound.toNat)

/-- The entries that a bound drops, oldest first. -/
def evicted (bound : Int) (entries : Lru α β) : Lru α β :=
  entries.take (entries.length - bound.toNat)

/-- A map without entries still has more of them than its bound allows. -/
structure BoundError where
  deriving DecidableEq

/-- The wording of the error. -/
def BoundError.message (_ : BoundError) : Text :=
  "'dictionary is empty'"

/-- The error of a bound that no map keeps. -/
def boundError? (bound : Int) : Option BoundError :=
  if bound < 0 then some ⟨⟩ else none

end Lru

end SfcProxy
