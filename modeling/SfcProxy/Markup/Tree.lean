import SfcProxy.Markup.Element
import SfcProxy.Markup.Extent
import SfcProxy.Markup.Symbol

/-!
# Trees

A document is read as a tree. Every node keeps how long it and the blanks before it are and what
its faults cost; costs decide between different readings of a document with faults. A missing
token costs more than a skipped one, and what is skipped costs by its lines and bytes.

## Main definitions

* `Tree`: a node with its children
* `Tree.leaf`, `Tree.branch`: how trees are made
* `Tree.cost`, `Tree.weight`: what decides between readings
* `Tree.isLike`: trees between which no choice is made
* `Tree.compare`: the order of trees without faults
-/

namespace SfcProxy.Markup

/-- What is known of the elements open at a place: nothing before the first token that depends on
them, and from then on those elements, innermost first. -/
abbrev Memory := Option (List Element)

/-- What a node of a tree keeps. -/
structure Facts where
  symbol : Symbol
  /-- The blanks before the node. -/
  padding : Extent
  size : Extent
  /-- The node may stand anywhere and counts for no rule. -/
  isExtra : Bool
  /-- The node is not in the source. -/
  isMissing : Bool
  /-- What the faults in the children and the fault of the node itself cost. -/
  faultCost : Nat
  /-- The number of visible nodes below. -/
  descendants : Nat
  /-- The number of children shown. -/
  offspring : Nat
  /-- The open elements behind the last token in the node that depends on them. -/
  memory : Memory
  deriving DecidableEq

/-- A node and its children. -/
inductive Tree where
  | node (facts : Facts) (children : List Tree)

/-! ## Costs -/

/-- What a fault costs in itself. -/
def recoveryCost : Nat := 500

/-- What a missing token costs. -/
def missingCost : Nat := 610

/-- What a node in a fault costs. -/
def skippedCost : Nat := 100

/-- What a stretch in a fault costs: a point for each byte and thirty for each line. -/
def stretchCost (extent : Extent) : Nat :=
  extent.bytes + 30 * extent.lines

namespace Tree

/-- What a node keeps. -/
def facts : Tree → Facts
  | node facts _ => facts

/-- The children of a node. -/
def children : Tree → List Tree
  | node _ children => children

/-- The symbol of a node. -/
def symbol (t : Tree) : Symbol := t.facts.symbol

/-- The length of a node with the blanks before it. -/
def total (t : Tree) : Extent := t.facts.padding + t.facts.size

/-- The node may stand anywhere. -/
def isExtra (t : Tree) : Bool := t.facts.isExtra

/-- The node is shown. -/
def isVisible (t : Tree) : Bool := t.symbol.isVisible

/-- What the faults of a tree cost. -/
def cost (t : Tree) : Nat :=
  if t.facts.isMissing then missingCost else t.facts.faultCost

/-- The number of visible nodes of a tree; a growing fault counts as one. -/
def weight (t : Tree) : Nat :=
  t.facts.descendants + (if t.isVisible then 1 else 0)
    + (if t.symbol = .faultRun then 1 else 0)

/-- A node without children. -/
def leaf (symbol : Symbol) (padding size : Extent) (memory : Memory) : Tree :=
  node
    { symbol, padding, size, isExtra := symbol = .token .finish, isMissing := false, faultCost := 0
      descendants := 0, offspring := 0, memory } []

/-- A token that is not in the source. -/
def missing (token : Token) : Tree :=
  node
    { symbol := .token token, padding := .zero, size := .zero, isExtra := false, isMissing := true
      faultCost := 0, descendants := 0, offspring := 0, memory := none } []

/-- The tree as a node that may, or may not, stand anywhere. -/
def withExtra (isExtra : Bool) : Tree → Tree
  | node facts children => node { facts with isExtra } children

/-- What a child of a fault adds to its cost. -/
def skippedCostOf (child : Tree) : Nat :=
  if child.isExtra || (child.symbol = .fault && child.children.isEmpty) then 0
  else if child.symbol.weighsInFault then skippedCost
  else skippedCost * child.facts.offspring

/-- The length of a sequence of trees without the blanks before the first. -/
def sizeOfAll : List Tree → Extent
  | [] => .zero
  | first :: rest => rest.foldl (fun size t => size + t.total) first.facts.size

/-- What trees come to together. -/
def sumOf (amount : Tree → Nat) (trees : List Tree) : Nat :=
  trees.foldl (fun sum t => sum + amount t) 0

/-- The cost of a fault with given children, beside what they cost themselves. -/
def ownCost (symbol : Symbol) (children : List Tree) : Nat :=
  if symbol.isFaulty then
    recoveryCost + stretchCost (sizeOfAll children) + sumOf skippedCostOf children
  else 0

/-- What the children of a node cost; a growing fault hands its cost on in another way. -/
def inheritedCost (children : List Tree) : Nat :=
  sumOf cost (children.filter fun t => t.symbol ≠ .faultRun)

/-- A node with children. -/
def branch (symbol : Symbol) (children : List Tree) : Tree :=
  node
    { symbol
      padding := (children.head?.map fun t => t.facts.padding).getD .zero
      size := sizeOfAll children
      isExtra := false
      isMissing := false
      faultCost := inheritedCost children + ownCost symbol children
      descendants :=
        sumOf (fun t => t.facts.descendants + if t.isVisible then 1 else 0) children
      offspring := sumOf (fun t => if t.isVisible then 1 else t.facts.offspring) children
      memory := children.reverse.findSome? fun t => t.facts.memory } children

/-! ## Comparison -/

/-- The open elements behind a token that depends on them. -/
def ownMemory (t : Tree) : Memory :=
  if t.children.isEmpty then t.facts.memory else none

/-- No choice is made between the trees: they have one symbol, and both have faults or they look
alike. -/
def isLike (s t : Tree) : Bool :=
  s.symbol = t.symbol &&
    ((0 < s.cost && 0 < t.cost)
      || (s.facts.padding.bytes = t.facts.padding.bytes && s.facts.size.bytes = t.facts.size.bytes
        && s.children.length = t.children.length && s.isExtra = t.isExtra
        && s.ownMemory = t.ownMemory))

mutual

/-- The order of trees: by symbol, by number of children, by the first children that differ. -/
def compare : Tree → Tree → Ordering
  | node f cs, node g ds =>
    ((Ord.compare f.symbol.rank g.symbol.rank).then (Ord.compare cs.length ds.length)).then
      (compareAll cs ds)

/-- The order of sequences of trees by the first trees that differ. -/
def compareAll : List Tree → List Tree → Ordering
  | c :: cs, d :: ds => (compare c d).then (compareAll cs ds)
  | _, _ => .eq

end

/-- Of two readings of one stretch the second is taken. -/
def yieldsTo (old new : Tree) : Bool :=
  if new.cost < old.cost then true
  else if old.cost < new.cost then false
  -- Between faults of one cost the later reading wins.
  else if 0 < old.cost then true
  else compare old new == .gt

end Tree

end SfcProxy.Markup
