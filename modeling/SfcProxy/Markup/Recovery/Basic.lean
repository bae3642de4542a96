import SfcProxy.Markup.StackGraph

/-!
# Readings of a document with faults

Behind a fault a document is read in several ways at once. Each way is a head: the top of a stack
in a common graph. Heads are compared by what their faults cost and by how much was read since the
last fault; a head that is clearly worse than another is given up, and heads that agree are joined.

## Main definitions

* `Head`: one way of reading
* `Recovery`: all ways of reading at once
* `Standing`, `Preference`: how heads are compared
* `Recovery.isOutdone`: a way of reading is not worth going on with
* `Recovery.merge`: joins two heads that agree
-/

namespace SfcProxy.Markup

/-- What a head does. -/
inductive Status where
  | active
  /-- The next token fits nowhere. -/
  | paused (look : Lookahead)
  | halted

/-- The head is read on with. -/
def Status.isActive : Status → Bool
  | active => true
  | _ => false

/-- The next token of the head fits nowhere. -/
def Status.isPaused : Status → Bool
  | paused _ => true
  | _ => false

/-- The head is given up. -/
def Status.isHalted : Status → Bool
  | halted => true
  | _ => false

/-- A vertex that lay on a stack when a fault was met: what lay before it, how many trees were on
top of it, and its state. -/
structure Landmark where
  before : Extent
  depth : Nat
  state : State
  deriving DecidableEq

/-- One way of reading: the top of its stack, the weight of the stack at the last fault, what is
known of the open elements, and what lay on the stack when a fault was met. -/
structure Head where
  vertex : Nat
  mark : Nat
  memory : Memory
  status : Status
  landmarks : Option (List Landmark)

/-- All ways of reading: the source, the stacks, the heads, best first, the last token that was
looked at and where, the best tree so far, and the number of trees. -/
structure Recovery where
  source : List Char
  graph : StackGraph
  heads : List Head
  recent : Option (Nat × Memory × Lookahead)
  finished : Option Tree
  accepted : Nat

/-- The most heads that are kept. -/
def maxHeads : Nat := 6

/-- The most heads that there may be for a while on top of those. -/
def headOverflow : Nat := 4

/-- The most trees on a stack that are taken off behind a fault. -/
def maxLandmarkDepth : Nat := 16

/-- A difference of costs, by what was read since, beyond which a head is given up. -/
def maxCostDifference : Nat := 1800

/-! ## Comparing heads -/

/-- How a head stands: what its faults cost, what it read since the last, and whether it is in a
fault. -/
structure Standing where
  cost : Nat
  progress : Nat
  inFault : Bool
  deriving DecidableEq

/-- Which of two heads is better, and whether the other one is given up. -/
inductive Preference where
  | takeLeft
  | preferLeft
  | none
  | preferRight
  | takeRight
  deriving DecidableEq

/-- Compares two heads. -/
def Standing.compare (a b : Standing) : Preference :=
  if !a.inFault && b.inFault then if a.cost < b.cost then .takeLeft else .preferLeft
  else if a.inFault && !b.inFault then if b.cost < a.cost then .takeRight else .preferRight
  else if a.cost < b.cost then
    if maxCostDifference < (b.cost - a.cost) * (1 + a.progress) then .takeLeft else .preferLeft
  else if b.cost < a.cost then
    if maxCostDifference < (a.cost - b.cost) * (1 + b.progress) then .takeRight else .preferRight
  else .none

namespace Head

/-- The top of the stack. -/
def top (g : StackGraph) (h : Head) : Vertex :=
  g.vertex h.vertex

/-- A fault has begun at the top of the stack. -/
def opensFault (g : StackGraph) (h : Head) : Bool :=
  (h.top g).state = .fault && (h.top g).links.head?.any fun link => link.tree?.isNone

/-- What the faults of a head cost. -/
def cost (g : StackGraph) (h : Head) : Nat :=
  (h.top g).cost + if h.status.isPaused || h.opensFault g then recoveryCost else 0

/-- The head with a mark that is not above the weight of its stack. -/
def settled (g : StackGraph) (h : Head) : Head :=
  { h with mark := min h.mark (h.top g).weight }

/-- What was read since the last fault. -/
def progress (g : StackGraph) (h : Head) : Nat :=
  (h.top g).weight - h.mark

/-- How a head stands. -/
def standing (g : StackGraph) (h : Head) : Standing where
  cost := h.cost g + if h.status.isPaused then skippedCost else 0
  progress := h.progress g
  inFault := h.status.isPaused || (h.top g).state = .fault

/-- Two heads agree: both are active, and nothing in what is to come can tell them apart. -/
def agrees (g : StackGraph) (a b : Head) : Bool :=
  a.status.isActive && b.status.isActive && g.joinable a.vertex b.vertex && a.memory = b.memory

/-- The top has come on since the last fault, by a tree with characters. -/
def hasAdvancedFrom (g : StackGraph) (h : Head) : (budget : Nat) → (vertex : Nat) → Bool
  | 0, _ => false
  | budget + 1, i =>
    let v := g.vertex i
    match v.links with
    | ⟨previous, some tree⟩ :: _ =>
      0 < tree.total.bytes
        || (h.mark < v.weight && tree.cost = 0 && h.hasAdvancedFrom g budget previous)
    | _ => false

/-- Reading went on since the last fault. -/
def hasAdvanced (g : StackGraph) (h : Head) : Bool :=
  (h.top g).cost = 0 || h.hasAdvancedFrom g g.size h.vertex

end Head

namespace Recovery

/-- Changes a head. -/
def modifyHead (i : Nat) (f : Head → Head) (r : Recovery) : Recovery :=
  { r with heads := r.heads.modify i f }

/-- The head is given up. -/
def halt (i : Nat) (r : Recovery) : Recovery :=
  r.modifyHead i fun h => { h with status := .halted }

/-- Takes a head away. -/
def removeHead (i : Nat) (r : Recovery) : Recovery :=
  { r with heads := r.heads.eraseIdx i }

/-- Puts one head in the place of another, which leaves it its landmarks. -/
def replaceHead (new old : Nat) (r : Recovery) : Recovery :=
  match r.heads[new]?, r.heads[old]? with
  | some a, some b =>
    if new = old then r
    else
      let a := { a with landmarks := a.landmarks.or b.landmarks }
      { r with heads := (r.heads.set old a).eraseIdx new }
  | _, _ => r

/-- The state at the top of a head. -/
def state (r : Recovery) (i : Nat) : State :=
  ((r.heads[i]?).map fun h => (h.top r.graph).state).getD .fault

/-- How much of the source lies before the top of a head. -/
def before (r : Recovery) (i : Nat) : Extent :=
  ((r.heads[i]?).map fun h => (h.top r.graph).before).getD .zero

/-- How a head stands, and the recovery with its mark settled. -/
def standingOf (i : Nat) (r : Recovery) : Standing × Recovery :=
  let r := r.modifyHead i (Head.settled r.graph)
  (((r.heads[i]?).map (Head.standing r.graph)).getD ⟨0, 0, false⟩, r)

/-- Puts a tree on the stack of a head. -/
def push (i : Nat) (tree : Tree) (state : State) (r : Recovery) : Recovery :=
  match r.heads[i]? with
  | none => r
  | some h =>
    let (graph, vertex) := r.graph.push h.vertex (some tree) state
    { r with graph }.modifyHead i fun h => { h with vertex }

/-- Puts the start of a fault on the stack of a head. -/
def pushFault (i : Nat) (r : Recovery) : Recovery :=
  match r.heads[i]? with
  | none => r
  | some h =>
    let (graph, vertex) := r.graph.push h.vertex none .fault
    { r with graph }.modifyHead i fun h =>
      { h with vertex, mark := (graph.vertex vertex).weight }

/-- Joins the second head into the first if they agree. -/
def merge? (i j : Nat) (r : Recovery) : Option Recovery :=
  match r.heads[i]?, r.heads[j]? with
  | some a, some b =>
    if a.agrees r.graph b then
      let graph := r.graph.join a.vertex b.vertex
      let top := graph.vertex a.vertex
      let r := { r with graph }.modifyHead i fun h =>
        if top.state = State.fault then { h with mark := top.weight } else h
      some (r.removeHead j)
    else none
  | _, _ => none

/-- Joins a head into the first of others that agrees with it. -/
def mergeInto? (j : Nat) (others : List Nat) (r : Recovery) : Option Recovery :=
  others.findSome? fun i => r.merge? i j

/-- One of the heads `others`, or the best tree, is better than going on with head `i` at a cost,
outside of a fault. -/
def isOutdoneBy (i : Nat) (standing : Standing) : List Nat → Recovery → Bool × Recovery
  | [], r => (false, r)
  | j :: others, r =>
    match r.heads[i]?, r.heads[j]? with
    | some h, some other =>
      if j = i || !other.status.isActive
          || (other.top r.graph).before.bytes < (h.top r.graph).before.bytes then
        isOutdoneBy i standing others r
      else
        let (otherStanding, r) := r.standingOf j
        match standing.compare otherStanding with
        | .takeRight => (true, r)
        | .preferRight =>
          if other.agrees r.graph h then (true, r) else isOutdoneBy i standing others r
        | _ => isOutdoneBy i standing others r
    | _, _ => (false, r)

/-- Going on with a head at a cost, outside of a fault, is not worth it. -/
def isOutdone (i cost : Nat) (r : Recovery) : Bool × Recovery :=
  if r.finished.any fun tree => tree.cost ≤ cost then (true, r)
  else
    let (standing, r) := r.standingOf i
    isOutdoneBy i { standing with cost, inFault := false } (List.range r.heads.length) r

end Recovery

end SfcProxy.Markup
