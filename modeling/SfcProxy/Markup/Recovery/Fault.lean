import SfcProxy.Markup.Recovery.Reduction

/-!
# Getting over a fault

Where the next token fits nowhere there are three ways on. A token that is missing may be added if
the next one then fits. The trees on top of the stack may be given up, down to a state in which the
next token fits. Or the next token is given up; what is given up becomes a fault in the tree.

## Main definitions

* `Recovery.accept`: takes the tree of a document that is read to its end
* `Recovery.recover`: gives up trees or the next token
* `Recovery.meetFault`: the ways on where a token fits nowhere
-/

namespace SfcProxy.Markup.Recovery

/-! ## The end of the document -/

/-- Notes a tree of the whole document; the best one is kept. -/
def note (tree : Tree) (r : Recovery) : Recovery :=
  { r with
    accepted := r.accepted + 1
    finished :=
      match r.finished with
      | some old => if old.yieldsTo tree then some tree else some old
      | none => some tree }

/-- Takes the tree of a head that has read the document to its end. -/
def accept (i : Nat) (look : Lookahead) (r : Recovery) : Recovery :=
  let r := r.push i look.tree .start
  match r.heads[i]? with
  | none => r
  | some h =>
    let trees := (r.graph.wholeSlices h.vertex).flatMap fun slice => slice.sequences
    ((trees.filterMap rootOf?).foldl (fun r tree => r.note tree) r).halt i

/-! ## Giving up trees -/

/-- Makes the head of one slice of a stack, all of which becomes a fault. -/
def recoverSlice (parent : Head) (goal : State) (r : Recovery) (slice : StackGraph.Slice) :
    Recovery :=
  if (r.graph.vertex slice.vertex).state ≠ goal then r
  else
    -- A fault that ends here goes on.
    let (vertex, before) := match r.graph.faultOnTop? slice.vertex with
      | some (vertex, fault) => (vertex, fault.children)
      | none => (slice.vertex, [])
    let (children, extras) := withoutExtras (before ++ slice.sequences.headD [])
    let faults :=
      if children.isEmpty then [] else [(Tree.branch .fault children).withExtra true]
    let (graph, vertex) := r.graph.pushAll vertex (faults ++ extras) goal
    let head : Head := ⟨vertex, parent.mark, parent.memory, .active, none⟩
    { r with graph, heads := r.heads ++ [head] }

/-- Gives up a number of trees of a head to come back to a state; there is a new head for each way
to do so. -/
def recoverTo (i depth : Nat) (goal : State) (r : Recovery) : Recovery :=
  match r.heads[i]? with
  | none => r
  | some parent =>
    (r.graph.slices parent.vertex depth).foldl (recoverSlice parent goal) r

/-- The cost of giving up what lies behind a landmark. -/
def landmarkCost (cost depth : Nat) (here : Extent) (mark : Landmark) : Nat :=
  cost + skippedCost * depth + stretchCost (here - mark.before)

/-- Gives up trees of a head down to the first landmark at which the next token fits, unless
another way of reading is better. `count` heads were there before. -/
def recoverAt (i : Nat) (look : Lookahead) (cost extra count : Nat) :
    List Landmark → Recovery → Recovery
  | [], r => r
  | mark :: marks, r =>
    let here := r.before i
    let depth := mark.depth + extra
    let isTaken := (List.range count).any fun j =>
      r.state j = mark.state && (r.before j).bytes = here.bytes
    if mark.state = .fault || mark.before.bytes = here.bytes || isTaken then
      recoverAt i look cost extra count marks r
    else
      let (outdone, r) := r.isOutdone i (landmarkCost cost depth here mark)
      if outdone then r
      else if (mark.state.actionOn? look.symbol).isSome then
        let next := r.recoverTo i depth mark.state
        if r.heads.length < next.heads.length then next
        else recoverAt i look cost extra count marks next
      else recoverAt i look cost extra count marks r

/-! ## Giving up the next token -/

/-- A token that is given up, as a part of a fault. -/
def skippedPart (look : Lookahead) : Tree :=
  .branch .faultRun
    [if look.symbol = .token .comment then look.tree.withExtra true else look.tree]

/-- What comes off the stack of a head with its topmost tree. -/
def topSlice? (i : Nat) (r : Recovery) : Option StackGraph.Slice :=
  (r.heads[i]?).bind fun h => (r.graph.slices h.vertex 1).head?

/-- Puts a part of a fault on the stack of a head, together with what came off it. -/
def putPart (i : Nat) (part : Tree) (slice? : Option StackGraph.Slice) (r : Recovery) :
    Recovery :=
  match slice? with
  | some slice =>
    (r.modifyHead i fun h => { h with vertex := slice.vertex }).push i
      (.branch .faultRun (slice.sequences.headD [] ++ [part])) .fault
  | none => r.push i part .fault

/-- Lets a head know the open elements behind a token that depends on them. -/
def remember (i : Nat) (memory : Memory) (r : Recovery) : Recovery :=
  match memory with
  | some memory => r.modifyHead i fun h => { h with memory := some memory }
  | none => r

/-- Gives up the next token: it becomes a part of the fault at the top of the stack. -/
def skip (i : Nat) (look : Lookahead) (grows : Bool) (r : Recovery) : Recovery :=
  (r.putPart i (skippedPart look) (if grows then r.topSlice? i else none)).remember i
    look.tree.facts.memory

/-- Takes reading up behind a fault: trees are given up, the next token is, or both ways are gone.
At the end of the source all that was read is the fault. -/
def recover (i : Nat) (look : Lookahead) (r : Recovery) : Recovery :=
  let count := r.heads.length
  let (standing, r) := r.standingOf i
  let grows := 0 < standing.progress
  let cost := ((r.heads[i]?).map (Head.cost r.graph)).getD 0
  let marks := if look.symbol = .fault then []
    else ((r.heads[i]?).bind fun h => h.landmarks).getD []
  let r := r.recoverAt i look cost (if grows then 1 else 0) count marks
  let recovered := count < r.heads.length
  if look.symbol = .token .finish then
    (r.push i (Tree.branch .fault []) .start).accept i look
  else if recovered && (maxHeads < r.heads.length || look.changesMemory) then r.halt i
  else
    let (outdone, r) := r.isOutdone i (cost + skippedCost + stretchCost look.tree.total)
    if outdone then r.halt i else r.skip i look grows

/-! ## Meeting a fault -/

/-- Notes what lies on the stack of a head. -/
def landmarksOf (g : StackGraph) (vertex : Nat) : List Landmark :=
  (g.walk (fun (found : List Landmark) w =>
    let v := g.vertex w.vertex
    let mark : Landmark := ⟨v.before, w.count, v.state⟩
    if maxLandmarkDepth < w.count then (found, true)
    -- Of vertices with one state at one depth the first is enough.
    else if (found.takeWhile fun m => w.count ≤ m.depth).any fun m =>
        m.depth = w.count && m.state = v.state then
      (found, false)
    else (mark :: found, false)) vertex []).reverse

/-- Adds to head `i` the first missing token that lets the next one fit. -/
def addMissing (i : Nat) (look : Lookahead) : List Token → Recovery → Bool × Recovery
  | [], r => (false, r)
  | t :: tokens, r =>
    let state := r.state i
    let fits (next : State) : Bool :=
      match next.actionOn? look.symbol with
      | some (.reduce _ _) => next ≠ state
      | _ => false
    match (state.next? t).filter fits, r.heads[i]? with
    | some next, some h =>
      let new := r.heads.length
      let r := { r with heads := r.heads ++ [{ h with landmarks := none }] }.push new (.missing t)
        next
      -- Before the end of the source any phrase may be put together.
      let following := match look.symbol with
        | .token .finish => none
        | .token t => some t
        | _ => none
      let (fitting, r) := r.reduceAll new following
      if fitting then (true, r) else addMissing i look tokens r
    | _, _ => addMissing i look tokens r

/-- Starts a fault on head `i` and the heads from `base` on that were made of it, `count` in all,
after adding a missing token to the first for which there is one. -/
def startFaults (look : Lookahead) (added : Bool) : List Nat → Recovery → Recovery
  | [], r => r
  | i :: others, r =>
    let (added, r) := if added then (true, r) else r.addMissing i look Token.all
    startFaults look added others (r.pushFault i)

/-- The ways on where the next token of a head fits nowhere. -/
def meetFault (i : Nat) (look : Lookahead) (r : Recovery) : Recovery :=
  let base := r.heads.length
  let (_, r) := r.reduceAll i none
  let made := (List.range r.heads.length).filter (base ≤ ·)
  let r := startFaults look false (i :: made) r
  let r := made.foldl (fun r _ => (r.merge? i base).getD r) r
  let r := r.modifyHead i fun h => { h with landmarks := some (landmarksOf r.graph h.vertex) }
  r.recover i look

end SfcProxy.Markup.Recovery
