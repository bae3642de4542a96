import SfcProxy.Markup.Reading

/-!
# Graphs of stacks

Behind a fault a document may be read in several ways at once. Each way has a stack of trees, and
the stacks share what they have in common: they are paths through one graph, from a vertex back to
the start. Two stacks that end alike are joined in one vertex with several links back.

## Main definitions

* `Vertex`, `Link`, `StackGraph`: the graph
* `StackGraph.push`: a tree on top of a stack
* `StackGraph.addLink`: one more way back from a vertex
* `StackGraph.walk`: the ways back from a vertex, all at once
* `StackGraph.slices`: the trees that come off a stack
-/

namespace SfcProxy.Markup

/-- A way back from a vertex, over a tree or over the start of a fault. -/
structure Link where
  previous : Nat
  tree? : Option Tree

/-- The top of a stack: the state there, how much of the source lies before it, the ways back,
and what the trees on the stack cost and weigh. -/
structure Vertex where
  state : State
  before : Extent
  links : List Link
  cost : Nat
  weight : Nat

/-- The vertex below all trees. -/
def Vertex.root : Vertex :=
  ⟨.start, .zero, [], 0, 0⟩

/-- The vertices, each known by its index. -/
abbrev StackGraph := Array Vertex

namespace StackGraph

/-- The vertex with an index. -/
def vertex (g : StackGraph) (i : Nat) : Vertex :=
  g.getD i .root

/-- The vertex on top of another, behind a tree or behind the start of a fault. -/
def above (g : StackGraph) (previous : Nat) (tree? : Option Tree) (state : State) : Vertex :=
  let below := g.vertex previous
  let link : Link := ⟨previous, tree?⟩
  match tree? with
  | none => ⟨state, below.before, [link], below.cost, below.weight⟩
  | some tree =>
    ⟨state, below.before + tree.total, [link], below.cost + tree.cost, below.weight + tree.weight⟩

/-- Puts a tree, or the start of a fault, on a stack; the new vertex is the last one. -/
def push (g : StackGraph) (previous : Nat) (tree? : Option Tree) (state : State) :
    StackGraph × Nat :=
  (Array.push g (g.above previous tree? state), g.size)

/-- Puts trees on a stack, all with one state. -/
def pushAll (g : StackGraph) (previous : Nat) (trees : List Tree) (state : State) :
    StackGraph × Nat :=
  trees.foldl (fun (g, i) tree => push g i (some tree) state) (g, previous)

/-- The graph of one stack, and its top. -/
def ofFrames (frames : List Frame) : StackGraph × Nat :=
  frames.foldr (fun frame (g, i) => push g i (some frame.tree) frame.state) (#[.root], 0)

/-! ## Joining -/

/-- No choice is made between what two links pass over. -/
def alike : Option Tree → Option Tree → Bool
  | none, none => true
  | some s, some t => s.isLike t
  | _, _ => false

/-- Two vertices may be joined: they have one state, one place and one cost. -/
def joinable (g : StackGraph) (i j : Nat) : Bool :=
  let a := g.vertex i
  let b := g.vertex j
  a.state = b.state && a.before.bytes = b.before.bytes && a.cost = b.cost

/-- The most ways back from a vertex. -/
def maxLinks : Nat := 8

/-- Gives a vertex one more way back. Where one of its ways passes over a like tree, the vertices
behind the two ways are joined instead; at most `budget` vertices lie one behind the other. -/
def addLink : (budget : Nat) → (g : StackGraph) → (i : Nat) → (link : Link) → StackGraph
  | 0, g, _, _ => g
  | budget + 1, g, i, link =>
    if link.previous = i then g
    else
      let v := g.vertex i
      let same := v.links.find? fun old =>
        alike old.tree? link.tree?
          && (old.previous = link.previous || g.joinable old.previous link.previous)
      match same with
      | some old =>
        if old.previous = link.previous then g
        else
          (g.vertex link.previous).links.foldl (fun g l => addLink budget g old.previous l) g
      | none =>
        if v.links.length = maxLinks then g
        else
          let weight := (g.vertex link.previous).weight + (link.tree?.map Tree.weight).getD 0
          g.setIfInBounds i
            { v with links := v.links ++ [link], weight := max v.weight weight }

/-- Joins a vertex into another, which gets all its ways back. -/
def join (g : StackGraph) (i j : Nat) : StackGraph :=
  (g.vertex j).links.foldl (fun g link => addLink g.size g i link) g

/-! ## Walking back -/

/-- A way back from a vertex: where it has come to, the trees passed over in the order of the
source, and how many of them count. -/
structure Walker where
  vertex : Nat
  trees : List Tree
  count : Nat

/-- The walker one link further. -/
def Walker.follow (w : Walker) (link : Link) : Walker :=
  match link.tree? with
  | none => ⟨link.previous, w.trees, w.count + 1⟩
  | some t => ⟨link.previous, t :: w.trees, if t.isExtra then w.count else w.count + 1⟩

/-- The most ways back that are followed at once. -/
def maxWalkers : Nat := 64

/-- One round: each walker is visited and goes on along the first link of its vertex unless the
visit stops it; for each further link a new walker sets out. `gone` and `fresh` are the walkers
that have moved and set out in this round, last first. -/
def walkRound {σ : Type} (g : StackGraph) (visit : σ → Walker → σ × Bool) :
    (waiting gone fresh : List Walker) → σ → σ × List Walker
  | [], gone, fresh, found => (found, gone.reverse ++ fresh.reverse)
  | w :: waiting, gone, fresh, found =>
    let (found, stops) := visit found w
    match (g.vertex w.vertex).links with
    | [] => walkRound g visit waiting gone fresh found
    | first :: others =>
      if stops then walkRound g visit waiting gone fresh found
      else
        let room := maxWalkers - (gone.length + 1 + waiting.length + fresh.length)
        let fresh := (others.take room).foldl (fun fresh link => w.follow link :: fresh) fresh
        walkRound g visit waiting (w.follow first :: gone) fresh found

/-- Walks back for a number of rounds. -/
def walkRounds {σ : Type} (g : StackGraph) (visit : σ → Walker → σ × Bool) :
    (budget : Nat) → List Walker → σ → σ
  | 0, _, found => found
  | _, [], found => found
  | budget + 1, walkers, found =>
    let (found, walkers) := walkRound g visit walkers [] [] found
    walkRounds g visit budget walkers found

/-- Walks back from a vertex along all ways. -/
def walk {σ : Type} (g : StackGraph) (visit : σ → Walker → σ × Bool) (i : Nat) (found : σ) : σ :=
  walkRounds g visit (g.size + 1) [⟨i, [], 0⟩] found

/-! ## Taking trees off -/

/-- A vertex and the sequences of trees that lie between it and the top of a stack. -/
structure Slice where
  vertex : Nat
  sequences : List (List Tree)

/-- Notes a walker's trees under its vertex; vertices keep the order in which they were found. -/
def noteSlice (w : Walker) : List Slice → List Slice
  | [] => [⟨w.vertex, [w.trees]⟩]
  | slice :: slices =>
    if slice.vertex = w.vertex then { slice with sequences := slice.sequences ++ [w.trees] } :: slices
    else slice :: noteSlice w slices

/-- What comes off a stack with a number of trees that count. -/
def slices (g : StackGraph) (i count : Nat) : List Slice :=
  g.walk (fun found w => if w.count = count then (noteSlice w found, true) else (found, false)) i []

/-- What comes off a stack as a whole. -/
def wholeSlices (g : StackGraph) (i : Nat) : List Slice :=
  g.walk (fun found w =>
    if (g.vertex w.vertex).links.isEmpty then (noteSlice w found, false) else (found, false)) i []

/-- The fault on top of a stack, and the vertex below it. -/
def faultOnTop? (g : StackGraph) (i : Nat) : Option (Nat × Tree) :=
  let isFault (t : Tree) : Bool := t.symbol = .fault
  if (g.vertex i).links.any fun link => link.tree?.any isFault then
    g.walk (fun found w =>
      match w.trees with
      | [] => (found, false)
      | t :: _ => (found.or (if isFault t then some (w.vertex, t) else none), true)) i none
  else none

end StackGraph

end SfcProxy.Markup
