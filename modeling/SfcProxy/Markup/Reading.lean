import SfcProxy.Markup.Lookahead

/-!
# Reading without faults

A document is read token by token onto a stack of trees. In each state the next token decides
whether it is taken in or a phrase is put together. Reading ends with the tree of the document, or
at the first token that fits nowhere.

## Main definitions

* `Frame`, `Reading`: the stack, and how far reading got
* `Reading.step`: one step of reading
* `Reading.run`: reading up to its end or the first fault
-/

namespace SfcProxy.Markup

/-- A tree on the stack and the state behind it. -/
structure Frame where
  state : State
  tree : Tree

/-- How far reading got: the trees read, last first, the place behind them, what is known of the
open elements there, and the next token if it was looked at. -/
structure Reading where
  frames : List Frame
  place : Place
  memory : Memory
  look? : Option Lookahead

/-- How reading ends. -/
inductive Reading.Outcome where
  | document (tree : Tree)
  /-- The next token fits nowhere. -/
  | stuck (reading : Reading) (look : Lookahead)

/-- Trees without those at their end that may stand anywhere, and these. -/
def withoutExtras (trees : List Tree) : List Tree × List Tree :=
  let extras := (trees.reverse.takeWhile Tree.isExtra).reverse
  (trees.take (trees.length - extras.length), extras)

/-- The tree of a whole document from the trees on the stack: the children of the last tree that
is a phrase take its place among the others. -/
def rootOf? (trees : List Tree) : Option Tree :=
  let (before, after) := withoutExtras trees
  before.getLast?.map fun t => .branch t.symbol (before.dropLast ++ t.children ++ after)

namespace Reading

/-- Nothing is read. -/
def start (source : List Char) : Reading :=
  ⟨[], .start source, none, none⟩

/-- The state of reading. -/
def state (r : Reading) : State :=
  (r.frames.head?.map Frame.state).getD .start

/-- The next token. -/
def look (r : Reading) : Lookahead :=
  r.look?.getD (Lookahead.read r.state true r.memory r.place)

/-- The frames left when a number of trees are taken off, and these trees in order; trees that may
stand anywhere come off with the others and are not counted. -/
def takeOff (taken : List Tree) : Nat → List Frame → List Tree × List Frame
  | 0, frames => (taken, frames)
  | _, [] => (taken, [])
  | n + 1, frame :: rest =>
    takeOff (frame.tree :: taken) (if frame.tree.isExtra then n + 1 else n) rest
termination_by _ frames => frames.length

/-- Puts a tree and those that may stand anywhere behind it on the stack, all with one state. -/
def putOn (state : State) (trees : List Tree) (frames : List Frame) : List Frame :=
  trees.foldl (fun frames tree => ⟨state, tree⟩ :: frames) frames

/-- Puts the last trees together to a phrase, before a token; without a state behind the phrase
nothing is done. -/
def reduce? (phrase : Phrase) (size : Nat) (look : Lookahead) (r : Reading) : Option Reading :=
  let (taken, frames) := takeOff [] size r.frames
  let (children, extras) := withoutExtras taken
  let below := { r with frames }
  (below.state.goto? phrase).map fun next =>
    { r with
      frames := putOn next (.branch (.phrase phrase) children :: extras) frames
      look? := some look }

/-- Takes a token in. -/
def shift (next : State) (tree : Tree) (r : Reading) : Reading :=
  { frames := ⟨next, tree⟩ :: r.frames
    place := r.place.move tree.total.chars
    memory := tree.facts.memory.or r.memory
    look? := none }

/-- One step: the reading behind it, or how reading ends. -/
def step (r : Reading) : Reading ⊕ Outcome :=
  let look := r.look
  let stuck : Reading ⊕ Outcome := .inr (.stuck r look)
  match r.state.actionOn? look.symbol with
  | some (.shift next) => .inl (r.shift next look.tree)
  | some .pass => .inl (r.shift r.state (look.tree.withExtra true))
  | some (.reduce phrase size) => ((r.reduce? phrase size look).map .inl).getD stuck
  | some .accept =>
    ((rootOf? ((look.tree :: r.frames.map Frame.tree).reverse)).map
      fun tree => .inr (.document tree)).getD stuck
  | some .recover | none => stuck

/-- Reads in at most `budget` steps to the end, or to the first fault. -/
def runFrom (r : Reading) : (budget : Nat) → Outcome
  | 0 => .stuck r r.look
  | budget + 1 =>
    match r.step with
    | .inl next => runFrom next budget
    | .inr outcome => outcome

/-- Reads a source to its end, or to the first fault. -/
def run (source : List Char) : Outcome :=
  -- A step takes a character in, closes an element or makes the stack shorter.
  runFrom (start source) (8 * source.length + 16)

end Reading

end SfcProxy.Markup
