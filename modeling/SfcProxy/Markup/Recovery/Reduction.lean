import SfcProxy.Markup.Recovery.Basic

/-!
# Putting phrases together

A stack with several ways back may hold the parts of a phrase in several ways. For each vertex at
which the parts may begin there is a new head, and at one vertex the best of the parts are taken.

## Main definitions

* `Recovery.reduce`: puts the last trees of a head together
* `Recovery.reduceAll`: puts together all that some token could call for
-/

namespace SfcProxy.Markup.Recovery

/-- The better of two readings of one phrase, each with the trees behind it that may stand
anywhere. -/
def better (symbol : Symbol) (best : Tree × List Tree) (trees : List Tree) : Tree × List Tree :=
  let (children, extras) := withoutExtras trees
  let tree := Tree.branch symbol children
  if best.1.yieldsTo tree then (tree, extras) else best

/-- The best reading of a phrase among sequences of parts. -/
def bestOf? (symbol : Symbol) : List (List Tree) → Option (Tree × List Tree)
  | [] => none
  | first :: others =>
    let (children, extras) := withoutExtras first
    some (others.foldl (better symbol) (Tree.branch symbol children, extras))

/-- Makes the head of one slice of the stack of head `i`, unless there are too many heads; a head
that agrees with another is joined into it. -/
def reduceSlice (i : Nat) (parent : Head) (limit : Nat) (phrase : Phrase) (r : Recovery)
    (slice : StackGraph.Slice) : Recovery :=
  let new := r.heads.length
  if limit < new then r
  else
    match bestOf? (.phrase phrase) slice.sequences with
    | none => r
    | some (tree, extras) =>
      let next := ((r.graph.vertex slice.vertex).state.goto? phrase).getD .fault
      let (graph, vertex) := r.graph.pushAll slice.vertex (tree :: extras) next
      let head : Head := ⟨vertex, parent.mark, parent.memory, .active, none⟩
      let r := { r with graph, heads := r.heads ++ [head] }
      (r.mergeInto? new ((List.range new).filter (· ≠ i))).getD r

/-- Puts the last trees of a head together to a phrase. The new heads stand behind the others. -/
def reduce (i : Nat) (phrase : Phrase) (size : Nat) (r : Recovery) : Recovery :=
  match r.heads[i]? with
  | none => r
  | some parent =>
    let halted := r.heads.countP fun h => h.status.isHalted
    let limit := maxHeads + headOverflow + halted
    (r.graph.slices parent.vertex size).foldl (reduceSlice i parent limit phrase) r

/-- The phrases that are complete in a state before a token, or before any token. -/
def reductions (state : State) (t : Option Token) : List (Phrase × Nat) :=
  let tokens := (t.map fun t => [t]).getD Token.all
  (tokens.filterMap fun t =>
    match state.action? t with
    | some (.reduce phrase size) => if 0 < size then some (phrase, size) else none
    | _ => none).eraseDups

/-- A token, or any token, can be taken in. -/
def takesIn (state : State) (t : Option Token) : Bool :=
  let tokens := (t.map fun t => [t]).getD Token.all
  tokens.any fun t =>
    match state.action? t with
    | some (.shift _) | some .recover => true
    | _ => false

/-- What is known of a head after its phrases were put together. -/
structure Sweep where
  recovery : Recovery
  /-- The head that was made last. -/
  last : Option Nat

/-- Puts together one phrase after the other. -/
def sweep (i : Nat) (phrases : List (Phrase × Nat)) (r : Recovery) : Sweep :=
  phrases.foldl (fun s (phrase, size) =>
    let count := s.recovery.heads.length
    let recovery := s.recovery.reduce i phrase size
    ⟨recovery, if count < recovery.heads.length then some count else none⟩) ⟨r, none⟩

/-- Puts together all phrases that a token, or any token, could call for, from head `i` on. The
heads from `base` on are those that were made on the way; `turn` counts the turns and `shifts`
tells whether the token can be taken in by one of the heads so far. -/
def reduceAllFrom (start base : Nat) (t : Option Token) (shifts : Bool) (turn i : Nat)
    (r : Recovery) : (budget : Nat) → Bool × Recovery
  | 0 => (shifts, r)
  | budget + 1 =>
    let count := r.heads.length
    if count ≤ i then (shifts, r)
    else
      match r.mergeInto? i ((List.range i).filter (base ≤ ·)) with
      | some r => reduceAllFrom start base t shifts (turn + 1) i r budget
      | none =>
        let state := r.state i
        let swept := sweep i (reductions state t) r
        let following := if i = start then count else i + 1
        let goOn (shifts : Bool) (r : Recovery) :=
          reduceAllFrom start base t shifts (turn + 1) following r budget
        if takesIn state t then goOn true swept.recovery
        else
          match swept.last with
          | some last =>
            if turn < maxHeads then
              reduceAllFrom start base t shifts (turn + 1) i (swept.recovery.replaceHead last i)
                budget
            else if t.isSome then goOn shifts (swept.recovery.removeHead i)
            else goOn shifts swept.recovery
          | none =>
            if t.isSome then goOn shifts (swept.recovery.removeHead i)
            else goOn shifts swept.recovery

/-- Puts together all phrases that a token, or any token, could call for, from head `i` on; tells
whether the token can be taken in then. -/
def reduceAll (i : Nat) (t : Option Token) (r : Recovery) : Bool × Recovery :=
  reduceAllFrom i r.heads.length t false 0 i r 4096

end SfcProxy.Markup.Recovery
