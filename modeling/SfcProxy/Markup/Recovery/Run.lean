import SfcProxy.Markup.Recovery.Fault

/-!
# Reading behind a fault

All heads are read on with in turn. After each round the heads are compared: those that agree are
joined, those that are clearly worse are given up, and where all have met a fault the best of them
gets over it. Reading ends when the best tree costs less than any head.

## Main definitions

* `Recovery.advance`: takes a head on by one token
* `Recovery.condense`: compares the heads
* `Recovery.run`: reads a document with faults to its end
-/

namespace SfcProxy.Markup.Recovery

/-! ## One head -/

/-- The next token of a head; the last one that was looked at is taken again if it was looked for
in the same way. -/
def lookAt (h : Head) (r : Recovery) : Lookahead × Recovery :=
  let top := h.top r.graph
  let usable (bytes : Nat) (memory : Memory) (look : Lookahead) : Bool :=
    bytes = top.before.bytes && memory = h.memory && look.lexicon = top.state.lexicon
      && look.outlook = top.state.outlook && (top.state.actionOn? look.symbol).isSome
  let fresh : Lookahead × Recovery :=
    let place : Place := ⟨top.before, r.source.drop top.before.chars⟩
    let look := Lookahead.read top.state (h.hasAdvanced r.graph) h.memory place
    (look, { r with recent := some (top.before.bytes, h.memory, look) })
  match r.recent with
  | some (bytes, memory, look) => if usable bytes memory look then (look, r) else fresh
  | none => fresh

/-- Takes the next token of a head in. -/
def shift (i : Nat) (tree : Tree) (state : State) (r : Recovery) : Recovery :=
  (r.push i tree state).modifyHead i fun h =>
    { h with memory := tree.facts.memory.or h.memory }

/-- The next token of a head fits nowhere: the head waits for the others. -/
def pause (i : Nat) (look : Lookahead) (r : Recovery) : Recovery :=
  r.modifyHead i fun h =>
    { h with status := .paused look, mark := (h.top r.graph).weight }

/-- Does with the next token of a head what its state says, until the token is taken in. -/
def advanceWith (i : Nat) (look : Lookahead) (r : Recovery) : (budget : Nat) → Recovery
  | 0 => r.halt i
  | budget + 1 =>
    let state := r.state i
    match state.actionOn? look.symbol with
    | some (.shift next) => r.shift i look.tree next
    | some .pass => r.shift i (look.tree.withExtra true) state
    | some (.reduce phrase size) =>
      let count := r.heads.length
      let reduced := r.reduce i phrase size
      if count < reduced.heads.length then
        advanceWith i look (reduced.replaceHead count i) budget
      else reduced.halt i
    | some .accept => r.accept i look
    | some .recover => r.recover i look
    | none => if state = .fault then r.recover i look else r.pause i look

/-- Takes a head on by one token. -/
def advance (i : Nat) (r : Recovery) : Recovery :=
  match r.heads[i]? with
  | none => r
  | some h =>
    let (look, r) := r.lookAt h
    r.advanceWith i look (2 * r.graph.size + 16)

/-- Takes a head on until it has come as far as any head, or can go no further; `reached` is how
far the heads have come. -/
def advanceOn (i : Nat) (reached : Nat) (r : Recovery) : (budget : Nat) → Nat × Recovery
  | 0 => (reached, r)
  | budget + 1 =>
    if (r.heads[i]?).any fun h => h.status.isActive then
      let r := r.advance i
      let here := (r.before i).bytes
      if reached < here || (0 < i && here = reached) then (here, r)
      else advanceOn i reached r budget
    else (reached, r)

/-- Takes one head after the other on, from head `i` on. -/
def advanceAll (i : Nat) (reached : Nat) (r : Recovery) : (budget : Nat) → Nat × Recovery
  | 0 => (reached, r)
  | budget + 1 =>
    if r.heads.length ≤ i then (reached, r)
    else
      let (reached, r) := r.advanceOn i reached (2 * r.source.length + 64)
      advanceAll (i + 1) reached r budget

/-! ## All heads -/

/-- Compares head `i`, which stands as given, with those before it, from head `j` on; gives the
place of the next head to compare. -/
def compareWith (standing : Standing) (i j : Nat) (r : Recovery) : (budget : Nat) → Nat × Recovery
  | 0 => (i + 1, r)
  | budget + 1 =>
    if i ≤ j then (i + 1, r)
    else
      let (other, r) := r.standingOf j
      match other.compare standing with
      | .takeLeft => (i, r.removeHead i)
      | .preferLeft | .none =>
        match r.merge? j i with
        | some r => (i, r)
        | none => compareWith standing i (j + 1) r budget
      | .preferRight =>
        match r.merge? j i, r.heads[i]?, r.heads[j]? with
        | some r, _, _ => (i, r)
        | none, some a, some b =>
          compareWith standing i (j + 1) { r with heads := (r.heads.set i b).set j a } budget
        | none, _, _ => (i + 1, r)
      | .takeRight => compareWith standing (i - 1) j (r.removeHead j) budget

/-- Compares all heads, from head `i` on, and takes away those that are given up; gives the least
cost of a head outside of a fault. -/
def compareAll (least : Option Nat) (i : Nat) (r : Recovery) :
    (budget : Nat) → Option Nat × Recovery
  | 0 => (least, r)
  | budget + 1 =>
    match r.heads[i]? with
    | none => (least, r)
    | some h =>
      if h.status.isHalted then compareAll least i (r.removeHead i) budget
      else
        let (standing, r) := r.standingOf i
        let least :=
          if standing.inFault then least else some (min standing.cost (least.getD standing.cost))
        let (next, r) := r.compareWith standing i 0 (2 * r.heads.length + 2)
        compareAll least next r budget

/-- Lets the first head get over its fault if no head before it can be read on with; all others
that have met a fault are given up. `going` tells whether there is such a head. -/
def resume (going : Bool) (least : Option Nat) (i left : Nat) (r : Recovery) :
    Option Nat × Recovery :=
  match left with
  | 0 => (least, r)
  | left + 1 =>
    match r.heads[i]? with
    | none => (least, r)
    | some h =>
      match h.status with
      | .paused look =>
        if !going && r.accepted < maxHeads then
          let least := some (h.cost r.graph)
          let r := (r.modifyHead i fun h => { h with status := .active }).meetFault i look
          resume true least (i + 1) left r
        else resume going least i left (r.removeHead i)
      | _ => resume true least (i + 1) left r

/-- Compares the heads and keeps the best; gives the least cost at which one can go on. -/
def condense (r : Recovery) : Option Nat × Recovery :=
  let (least, r) := r.compareAll none 0 (2 * r.heads.length + 2)
  let r := { r with heads := r.heads.take maxHeads }
  r.resume false least 0 r.heads.length

/-! ## The whole document -/

/-- Reads on in at most `budget` rounds. -/
def runFrom (reached : Nat) (r : Recovery) : (budget : Nat) → Recovery
  | 0 => r
  | budget + 1 =>
    let (reached, r) := r.advanceAll 0 reached 256
    let isLast := r.heads.isEmpty
    let (least, r) := r.condense
    if isLast || r.finished.any fun tree => least.all fun cost => tree.cost < cost then r
    else runFrom reached r budget

/-- The recovery of a reading that has met its first fault. -/
def start (source : List Char) (reading : Reading) (look : Lookahead) : Recovery :=
  let (graph, vertex) := StackGraph.ofFrames reading.frames
  { source
    graph
    heads := [⟨vertex, (graph.vertex vertex).weight, reading.memory, .paused look, none⟩]
    recent := some (reading.place.before.bytes, reading.memory, look)
    finished := none
    accepted := 0 }

/-- Reads a document on from its first fault. -/
def run (source : List Char) (reading : Reading) (look : Lookahead) : Option Tree :=
  let r := start source reading look
  (r.runFrom reading.place.before.bytes (16 * source.length + 64)).finished

end SfcProxy.Markup.Recovery
