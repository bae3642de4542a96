import SfcProxy.Tool.Numbered
import SfcProxy.Tool.Utility.Exchange

/-!
# Regular expressions

Regular expressions over text with groups and references back to them. Of all matches that start
as far left as possible the longest one counts; the groups are those of the first way to it, where
repetitions go on as long as they can.

## Main definitions

* `Regex`: regular expressions
* `Regex.ends`: all ends of matches at a place
* `Regex.walk`: the matches at a place one after the other, with their groups
* `Regex.search`: the first match in a text
-/

namespace SfcProxy.Tool

/-- A member of a set of characters. -/
inductive SetMember where
  | range (low high : Nat)
  | charClass (name : String)
  deriving DecidableEq

/-- Which characters match. -/
inductive CharTest where
  | any
  | unit (u : TextUnit)
  | set (negated : Bool) (members : List SetMember)
  deriving DecidableEq

/-- A place in a text that takes no characters. -/
inductive Edge where
  | lineStart
  | lineEnd
  | textStart
  | textEnd
  | wordStart
  | wordEnd
  | word
  | notWord
  deriving DecidableEq

/-- A regular expression. -/
inductive Regex where
  | empty
  | one (test : CharTest)
  | edge (edge : Edge)
  | seq (first second : Regex)
  | alt (first second : Regex)
  /-- At least `least` and at most `most` times. -/
  | rep (body : Regex) (least : Nat) (most : Option Nat)
  | group (number : Nat) (body : Regex)
  /-- What a group has matched. -/
  | back (number : Nat)
  deriving DecidableEq

namespace Regex

/-- How a text is matched: letters in either case, and lines inside the text. -/
structure Mode where
  ignoreCase : Bool := false
  lines : Bool := false
  deriving DecidableEq

/-- A place in a text: the unit before it, its position, and the rest. -/
structure Cursor where
  before : Option TextUnit
  position : Nat
  rest : Text
  deriving DecidableEq

/-- The cursor one unit further. -/
def Cursor.next (c : Cursor) : Cursor :=
  match c.rest with
  | [] => c
  | u :: rest => ⟨some u, c.position + 1, rest⟩

/-- The cursor several units further. -/
def Cursor.skip (c : Cursor) : Nat → Cursor
  | 0 => c
  | n + 1 => c.next.skip n

/-! ## Characters -/

/-- A character in lower case. -/
def lower (u : TextUnit) : TextUnit :=
  match u with
  | .scalar c => .scalar c.toLower
  | u => u

/-- A character in upper case. -/
def upper (u : TextUnit) : TextUnit :=
  match u with
  | .scalar c => .scalar c.toUpper
  | u => u

/-- A member holds a unit. -/
def memberHolds (u : TextUnit) : SetMember → Bool
  | .range low high => low ≤ u.codePoint && u.codePoint ≤ high
  | .charClass name =>
    match u with
    | .scalar c => c.toNat < 128 && ((Exchange.classTest? name).getD fun _ => false) c
    | .surrogate _ => false

/-- A test accepts a unit. -/
def CharTest.accepts (mode : Mode) (u : TextUnit) : CharTest → Bool
  | .any => !u.isSurrogate
  | .unit v => u = v || (mode.ignoreCase && lower u = lower v)
  | .set negated members =>
    let holds := members.any (memberHolds u) || (mode.ignoreCase &&
      (members.any (memberHolds (lower u)) || members.any (memberHolds (upper u))))
    !u.isSurrogate && holds != negated

/-- A unit that words are made of. -/
def isWordUnit : TextUnit → Bool
  | .scalar c => c.isAlphanum || c == '_'
  | .surrogate _ => false

/-- The cursor stands at an edge. -/
def Edge.isAt (mode : Mode) (c : Cursor) (edge : Edge) : Bool :=
  let newline := TextUnit.scalar '\n'
  let wordBefore := c.before.any isWordUnit
  let wordAfter := c.rest.head?.any isWordUnit
  match edge with
  | .lineStart => c.before.isNone || (mode.lines && c.before = some newline)
  | .lineEnd => c.rest.isEmpty || (mode.lines && c.rest.head? = some newline)
  | .textStart => c.before.isNone
  | .textEnd => c.rest.isEmpty
  | .wordStart => !wordBefore && wordAfter
  | .wordEnd => wordBefore && !wordAfter
  | .word => wordBefore != wordAfter
  | .notWord => wordBefore == wordAfter

/-! ## Ends -/

/-- Cursors without those whose position is known already. -/
def fresh (known : List Cursor) (cs : List Cursor) : List Cursor :=
  cs.foldl (fun new c =>
    if (known ++ new).any (·.position = c.position) then new else new ++ [c]) []

/-- All cursors that steps lead to, in at most `budget` rounds. -/
def closure (step : Cursor → List Cursor) (known frontier : List Cursor) :
    (budget : Nat) → List Cursor
  | 0 => known
  | budget + 1 =>
    match fresh known (frontier.flatMap step) with
    | [] => known
    | new => closure step (known ++ new) new budget

/-- All cursors after a number of steps. -/
def iterate (step : Cursor → List Cursor) : Nat → List Cursor → List Cursor
  | 0, cs => cs
  | n + 1, cs => iterate step n (fresh [] (cs.flatMap step))

/-- All cursors after at most a number of further steps. -/
def upTo (step : Cursor → List Cursor) (known frontier : List Cursor) : Nat → List Cursor
  | 0 => known
  | n + 1 =>
    let new := fresh known (frontier.flatMap step)
    upTo step (known ++ new) new n

/-- All ends of matches at a cursor; references back to groups match nothing. -/
def ends (mode : Mode) : Regex → Cursor → List Cursor
  | empty, c => [c]
  | one test, c =>
    match c.rest with
    | u :: _ => if CharTest.accepts mode u test then [c.next] else []
    | [] => []
  | edge e, c => if Edge.isAt mode c e then [c] else []
  | seq a b, c => fresh [] ((ends mode a c).flatMap (ends mode b))
  | alt a b, c => fresh [] (ends mode a c ++ ends mode b c)
  | rep body least most, c =>
    let after := iterate (ends mode body) least [c]
    match most with
    | none => closure (ends mode body) after after (c.rest.length + 1)
    | some n => upTo (ends mode body) after after (n - least)
  | group _ body, c => ends mode body c
  | back _, _ => []

/-! ## Groups -/

/-- What groups have matched: their positions and texts. -/
abbrev Groups := Numbered (Nat × Text)

/-- The text between two cursors. -/
def between (start stop : Cursor) : Text :=
  start.rest.take (stop.position - start.position)

/-- A repetition whose body is given by its matches: as many as possible first. -/
def walkRep (body : Cursor → Groups → (Cursor → Groups → Option Groups) → Option Groups)
    (least : Nat) (most : Option Nat) (c : Cursor) (groups : Groups)
    (k : Cursor → Groups → Option Groups) : (budget : Nat) → Option Groups
  | 0 => if least = 0 then k c groups else none
  | budget + 1 =>
    let onward (c' : Cursor) (groups' : Groups) : Option Groups :=
      -- A match that takes nothing is not repeated.
      if c'.position = c.position && least = 0 then none
      else walkRep body (least - 1) (most.map (· - 1)) c' groups' k budget
    if most = some 0 then k c groups
    else
      match body c groups onward with
      | some found => some found
      | none => if least = 0 then k c groups else none

/-- The matches at a cursor one after the other, until one of them can be continued. -/
def walk (mode : Mode) : Regex → Cursor → Groups → (Cursor → Groups → Option Groups) →
    Option Groups
  | empty, c, groups, k => k c groups
  | one test, c, groups, k =>
    match c.rest with
    | u :: _ => if CharTest.accepts mode u test then k c.next groups else none
    | [] => none
  | edge e, c, groups, k => if Edge.isAt mode c e then k c groups else none
  | seq a b, c, groups, k => walk mode a c groups fun c groups => walk mode b c groups k
  | alt a b, c, groups, k =>
    match walk mode a c groups k with
    | some found => some found
    | none => walk mode b c groups k
  | rep body least most, c, groups, k =>
    walkRep (walk mode body) least most c groups k (c.rest.length + least + 1)
  | group number body, c, groups, k =>
    walk mode body c groups fun c' groups =>
      k c' (groups.put number (c.position, between c c'))
  | back number, c, groups, k =>
    match groups.get? number with
    | none => none
    | some (_, text) =>
      let here := c.rest.take text.length
      let same := here = text || (mode.ignoreCase && here.map lower = text.map lower)
      if same then k (c.skip text.length) groups else none

/-! ## Searching -/

/-- The regular expression refers back to a group. -/
def refersBack : Regex → Bool
  | back _ => true
  | seq a b | alt a b => a.refersBack || b.refersBack
  | rep body _ _ | group _ body => body.refersBack
  | _ => false

/-- A match: its cursor, its text, and its groups. -/
structure Match where
  start : Cursor
  text : Text
  groups : Groups

/-- The place behind a match. -/
def Match.stop (m : Match) : Cursor :=
  m.start.skip m.text.length

/-- The longest match at a cursor. -/
def matchAt (mode : Mode) (r : Regex) (c : Cursor) : Option Match :=
  let record (c' : Cursor) (groups : Groups) : Groups := groups.put 0 (c.position, between c c')
  let found : Option Groups :=
    if r.refersBack then walk mode r c [] fun c' groups => some (record c' groups)
    else
      match (ends mode r c).map (·.position) with
      | [] => none
      | p :: ps =>
        let last := ps.foldl max p
        walk mode r c [] fun c' groups =>
          if c'.position = last then some (record c' groups) else none
  found.map fun groups => ⟨c, ((groups.get? 0).map (·.2)).getD [], groups⟩

/-- The first match from a cursor on, looking at no more than `budget` places. -/
def searchFrom (mode : Mode) (r : Regex) (c : Cursor) : (budget : Nat) → Option Match
  | 0 => none
  | budget + 1 =>
    match matchAt mode r c with
    | some found => some found
    | none => if c.rest.isEmpty then none else searchFrom mode r c.next budget

/-- The cursor at the front of a text. -/
def Cursor.front (t : Text) : Cursor :=
  ⟨none, 0, t⟩

/-- The first match in a text. -/
def search (mode : Mode) (r : Regex) (t : Text) : Option Match :=
  searchFrom mode r (.front t) (t.length + 1)

end Regex

end SfcProxy.Tool
