import SfcProxy.Markup.State
import SfcProxy.Markup.Tree

/-!
# The next token

At a place of the source the next token is looked for as the state of reading says; tokens that
depend on the open elements come first. If there is none, any token is looked for that can stand
behind a fault, and what lies before it becomes a single fault.

## Main definitions

* `Lookahead`: the next token as a tree
* `Lookahead.read`: the next token at a place
-/

namespace SfcProxy.Markup

/-- The next token: a leaf, whether it changes what is known of the open elements, and how it was
looked for. -/
structure Lookahead where
  tree : Tree
  changesMemory : Bool
  lexicon : Lexicon
  outlook : Outlook

namespace Lookahead

/-- A token of `size` characters behind `skipped` others. -/
structure Hit where
  token : Token
  skipped : Nat
  size : Nat
  memory : Memory
  deriving DecidableEq

/-- The token at a place that depends on the open elements. A token without characters that
changes nothing is passed over unless `admitsEmpty` allows it. -/
def sighted? (outlook : Outlook) (admitsEmpty : Token → Bool) (memory : Memory) (place : Place) :
    Option Hit :=
  let mark := place.markLength
  match outlook.read (memory.getD []) (place.rest.drop mark) with
  | none => none
  | some found =>
    let known := some (remembered found.stack)
    let isEmpty := mark + found.skipped + found.size = 0
    if isEmpty ∧ known = memory ∧ !admitsEmpty found.token then none
    else some ⟨found.token, mark + found.skipped, found.size, known⟩

/-- What a lexicon finds at a place. -/
def lexeme (lexicon : Lexicon) (place : Place) : Lexeme :=
  let mark := place.markLength
  let found := lexicon.read (place.rest.drop mark)
  { found with skipped := mark + found.skipped }

/-- The token at a place. -/
def hit? (lexicon : Lexicon) (outlook : Outlook) (admitsEmpty : Token → Bool) (memory : Memory)
    (place : Place) : Option Hit :=
  match sighted? outlook admitsEmpty memory place with
  | some hit => some hit
  | none =>
    let found := lexeme lexicon place
    found.token?.map fun token => ⟨token, found.skipped, found.size, none⟩

/-- The token at a place behind a fault. -/
def resumed? (memory : Memory) (place : Place) : Option Hit :=
  hit? .bracket .anything (fun _ => false) memory place

/-- The place at which a fault ends that reaches at least to `place`; it is at most `budget`
characters on. -/
def faultEnd (memory : Memory) (place : Place) : (budget : Nat) → Place
  | 0 => place
  | budget + 1 =>
    if (resumed? memory place).isSome then place
    else
      let found := lexeme .bracket place
      faultEnd memory (place.move (max 1 (found.skipped + found.size))) budget

/-- The fault at a place where no token is found. -/
def fault (memory : Memory) (place : Place) : Tree :=
  let found := lexeme .bracket place
  let start := place.move found.skipped
  let finish := faultEnd memory (start.move (max 1 found.size)) (start.rest.length + 1)
  .leaf .fault (start.before - place.before) (finish.before - start.before) none

/-- The leaf of a token at a place. -/
def leafOf (place : Place) (hit : Hit) : Tree :=
  let start := place.move hit.skipped
  let finish := start.move hit.size
  .leaf (.token hit.token) (start.before - place.before) (finish.before - start.before) hit.memory

/-- A token without characters is of use in a state: reading went on since the last fault, and the
token leads to another state. -/
def admitsEmpty (state : State) (advanced : Bool) (t : Token) : Bool :=
  state ≠ .fault && advanced && state.next? t ≠ some state

/-- The next token in a state, or the fault before it. `advanced` tells whether reading went on
since the last fault. -/
def read (state : State) (advanced : Bool) (memory : Memory) (place : Place) : Lookahead :=
  let hit := (hit? state.lexicon state.outlook (admitsEmpty state advanced) memory place).or
    (resumed? memory place)
  match hit with
  | some hit =>
    ⟨leafOf place hit, hit.memory.isSome && hit.memory ≠ memory, state.lexicon, state.outlook⟩
  | none => ⟨fault memory place, false, state.lexicon, state.outlook⟩

/-- The symbol of the next token. -/
def symbol (look : Lookahead) : Symbol := look.tree.symbol

end Lookahead

/-- What is done with a symbol in a state; nothing can be done with a fault. -/
def State.actionOn? (s : State) : Symbol → Option Action
  | .token t => s.action? t
  | _ => none

end SfcProxy.Markup
