import SfcProxy.Markup.Recovery.Run

/-!
# Documents

Every source has a tree. A node of it stands at a place in the source; what is hidden in a tree
does not show among the children of a node.

## Main definitions

* `treeOf`: the tree of a source
* `Node`: a tree at its place in the source
* `Node.children`, `Node.text`: what a node shows and what it spells
* `Node.faults`: the faults in a node
* `document`: the root of a source
-/

namespace SfcProxy.Markup

/-- The tree of a source. -/
def treeOf (source : List Char) : Tree :=
  match Reading.run source with
  | .document tree => tree
  | .stuck reading look =>
    (Recovery.run source reading look).getD (.branch .fault [])

/-- A tree that starts, without the blanks before it, behind so many characters of the source. -/
structure Node where
  tree : Tree
  start : Nat

namespace Node

/-- The number of characters of the source up to the end of a node. -/
def finish (n : Node) : Nat :=
  n.start + n.tree.facts.size.chars

mutual

/-- What is shown of a tree that starts at a place. -/
def shown (start : Nat) : Tree → List Node
  | .node facts children =>
    if facts.symbol.isVisible then [⟨.node facts children, start⟩]
    else shownFirst start children

/-- What is shown of trees of which the first starts at a place. -/
def shownFirst (start : Nat) : List Tree → List Node
  | [] => []
  | t :: rest => shown start t ++ shownAfter (start + t.facts.size.chars) rest

/-- What is shown of trees that follow behind a place, each behind its blanks. -/
def shownAfter (before : Nat) : List Tree → List Node
  | [] => []
  | t :: rest =>
    let start := before + t.facts.padding.chars
    shown start t ++ shownAfter (start + t.facts.size.chars) rest

end

/-- The children of a node that are shown. -/
def children (n : Node) : List Node :=
  shownFirst n.start n.tree.children

/-- The node is a phrase. -/
def isPhrase (n : Node) (phrase : Phrase) : Bool :=
  n.tree.symbol = .phrase phrase

/-- The node is a token. -/
def isToken (n : Node) (token : Token) : Bool :=
  n.tree.symbol = .token token

/-- The node is not in the source. -/
def isMissing (n : Node) : Bool :=
  n.tree.facts.isMissing

/-- There is a fault in the node. -/
def hasFault (n : Node) : Bool :=
  0 < n.tree.cost

/-- What a node spells. -/
def text (source : List Char) (n : Node) : List Char :=
  (source.drop n.start).take n.tree.facts.size.chars

end Node

/-! ## Faults -/

/-- What is wrong at a place of the source. -/
inductive FaultKind where
  | unexpected
  | missing (token : Token)
  deriving DecidableEq

/-- A fault and the number of characters before it. -/
structure Fault where
  kind : FaultKind
  start : Nat
  deriving DecidableEq

/-- The fault that a node with a symbol is itself. -/
def Facts.fault? (facts : Facts) : Option FaultKind :=
  match facts.symbol with
  | .fault => some .unexpected
  | .token t => if facts.isMissing then some (.missing t) else none
  | _ => none

mutual

/-- The outermost faults in a tree that starts at a place. -/
def faultsIn (start : Nat) : Tree → List Fault
  | .node facts children =>
    if facts.symbol.isVisible then
      match facts.fault? with
      | some kind => [⟨kind, start⟩]
      | none => if 0 < facts.faultCost then faultsInFirst start children else []
    else faultsInFirst start children

/-- The outermost faults in trees of which the first starts at a place. -/
def faultsInFirst (start : Nat) : List Tree → List Fault
  | [] => []
  | t :: rest => faultsIn start t ++ faultsInAfter (start + t.facts.size.chars) rest

/-- The outermost faults in trees that follow behind a place, each behind its blanks. -/
def faultsInAfter (before : Nat) : List Tree → List Fault
  | [] => []
  | t :: rest =>
    let start := before + t.facts.padding.chars
    faultsIn start t ++ faultsInAfter (start + t.facts.size.chars) rest

end

/-- The outermost faults in a node. -/
def Node.faults (n : Node) : List Fault :=
  faultsIn n.start n.tree

/-- The root of a source. -/
def document (source : List Char) : Node :=
  let tree := treeOf source
  ⟨tree, tree.facts.padding.chars⟩

end SfcProxy.Markup
