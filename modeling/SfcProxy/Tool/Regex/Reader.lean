import SfcProxy.Tool.Regex.Basic

/-!
# Reading regular expressions

Regular expressions are written in one of two ways: the basic one, in which most operators stand
behind a backslash, and the extended one, in which they do not.

## Main definitions

* `Regex.Fault`: what is wrong with a regular expression
* `Regex.Sign`: the signs that a regular expression is written with
* `Regex.read`: reads a regular expression
-/

namespace SfcProxy.Tool.Regex

/-- What is wrong with a regular expression. -/
inductive Fault where
  | unmatchedBracket
  | unmatchedOpen
  | unmatchedClose
  | unmatchedBrace
  | badInterval
  | badRange
  | badClass
  | badReference
  | nothingToRepeat
  | trailingBackslash
  deriving DecidableEq

/-- The wording of a fault. -/
def Fault.message : Fault → String
  | unmatchedBracket => "Unmatched [, [^, [:, [., or [="
  | unmatchedOpen => "Unmatched ( or \\("
  | unmatchedClose => "Unmatched ) or \\)"
  | unmatchedBrace => "Unmatched \x7b or \\\x7b"
  | badInterval => "Invalid content of \\\x7b\\\x7d"
  | badRange => "Invalid range end"
  | badClass => "Invalid character class name"
  | badReference => "Invalid back reference"
  | nothingToRepeat => "Invalid preceding regular expression"
  | trailingBackslash => "Trailing backslash"

/-! ## Signs -/

/-- A sign of a regular expression. -/
inductive Sign where
  | literal (c : Char)
  | set (test : CharTest)
  | edge (edge : Edge)
  | star
  | plus
  | question
  | braceOpen
  | bar
  | parenOpen
  | parenClose
  | caret
  | dollar
  | back (number : Nat)
  deriving DecidableEq

/-- The name between a mark and its closing bracket. -/
def markedName? (mark : Char) (cs : List Char) : Option (List Char × List Char) :=
  let body := cs.takeWhile (· != mark)
  match cs.drop body.length with
  | _ :: ']' :: rest => some (body, rest)
  | _ => none

/-- One end of a range, or a class, behind the opening bracket of a set. -/
def setItem (cs : List Char) : Except Fault (Option (SetMember ⊕ Char) × List Char) :=
  match cs with
  | '[' :: ':' :: rest =>
    match markedName? ':' rest with
    | some (name, rest) =>
      if (Exchange.classTest? (String.ofList name)).isSome then
        .ok (some (.inl (.charClass (String.ofList name))), rest)
      else .error .badClass
    | none => .ok (some (.inr '['), ':' :: rest)
  | '[' :: '=' :: rest =>
    match markedName? '=' rest with
    | some ([c], rest) => .ok (some (.inr c), rest)
    | _ => .ok (some (.inr '['), '=' :: rest)
  | '[' :: '.' :: rest =>
    match markedName? '.' rest with
    | some ([c], rest) => .ok (some (.inr c), rest)
    | _ => .ok (some (.inr '['), '.' :: rest)
  | c :: rest => .ok (some (.inr c), rest)
  | [] => .ok (none, [])

/-- The members of a set up to its closing bracket, at most `budget`. -/
def setMembers (isFirst : Bool) : (budget : Nat) → List Char →
    Except Fault (List SetMember × List Char)
  | 0, _ => .error .unmatchedBracket
  | budget + 1, cs =>
    match cs with
    | [] => .error .unmatchedBracket
    | ']' :: rest =>
      -- In the first place the bracket is a member.
      if isFirst then do
        let (more, rest) ← setMembers false budget rest
        return (.range ']'.toNat ']'.toNat :: more, rest)
      else .ok ([], rest)
    | cs => do
      let (item, rest) ← setItem cs
      match item with
      | none => .error .unmatchedBracket
      | some (.inl member) => do
        let (more, rest) ← setMembers false budget rest
        return (member :: more, rest)
      | some (.inr low) =>
        match rest with
        -- A hyphen in the last place is a member too.
        | '-' :: ']' :: _ => do
          let (more, rest) ← setMembers false budget rest
          return (.range low.toNat low.toNat :: more, rest)
        | '-' :: rest => do
          let (item, rest) ← setItem rest
          match item with
          | some (.inr high) =>
            if high.toNat < low.toNat then .error .badRange
            else do
              let (more, rest) ← setMembers false budget rest
              return (.range low.toNat high.toNat :: more, rest)
          | _ => .error .badRange
        | rest => do
          let (more, rest) ← setMembers false budget rest
          return (.range low.toNat low.toNat :: more, rest)

/-- A set behind its opening bracket. -/
def readSet (cs : List Char) : Except Fault (CharTest × List Char) := do
  let (negated, cs) := match cs with
    | '^' :: rest => (true, rest)
    | _ => (false, cs)
  -- The first closing bracket of a set belongs to it.
  let (members, rest) ← setMembers true (cs.length + 1) cs
  return (.set negated members, rest)

/-- The characters of words. -/
def wordSet (negated : Bool) : CharTest :=
  .set negated [.charClass "alnum", .range '_'.toNat '_'.toNat]

/-- The sign behind a backslash that means the same in both ways of writing. -/
def escapedSign (c : Char) : Sign :=
  match c with
  | 'w' => .set (wordSet false)
  | 'W' => .set (wordSet true)
  | 's' => .set (.set false [.charClass "space"])
  | 'S' => .set (.set true [.charClass "space"])
  | '<' => .edge .wordStart
  | '>' => .edge .wordEnd
  | 'b' => .edge .word
  | 'B' => .edge .notWord
  | '\x60' => .edge .textStart
  | '\'' => .edge .textEnd
  | c => if '1' ≤ c && c ≤ '9' then .back (c.toNat - '0'.toNat) else .literal c

/-- The operator that a character stands for where it is one. -/
def operator? : Char → Option Sign
  | '+' => some .plus
  | '?' => some .question
  | '{' => some .braceOpen
  | '|' => some .bar
  | '(' => some .parenOpen
  | ')' => some .parenClose
  | _ => none

/-- The sign at the front of a regular expression. -/
def sign (extended : Bool) : List Char → Except Fault (Option Sign × List Char)
  | [] => .ok (none, [])
  | '\\' :: [] => .error .trailingBackslash
  | '\\' :: c :: rest =>
    .ok (some (if extended then escapedSign c else (operator? c).getD (escapedSign c)), rest)
  | '[' :: rest => do
    let (test, rest) ← readSet rest
    return (some (.set test), rest)
  | '.' :: rest => .ok (some (.set .any), rest)
  | '*' :: rest => .ok (some .star, rest)
  | '^' :: rest => .ok (some .caret, rest)
  | '$' :: rest => .ok (some .dollar, rest)
  | c :: rest =>
    .ok (some (if extended then (operator? c).getD (.literal c) else .literal c), rest)

/-! ## Structure -/

/-- The bounds of a repetition behind its opening brace. -/
def interval (extended : Bool) (cs : List Char) :
    Except Fault (Nat × Option Nat × List Char) :=
  let low := cs.takeWhile Char.isDigit
  let rest := cs.drop low.length
  let (comma, rest) := match rest with
    | ',' :: rest => (true, rest)
    | rest => (false, rest)
  let high := if comma then rest.takeWhile Char.isDigit else []
  let rest := rest.drop high.length
  let closing : Option (List Char) := match extended, rest with
    | true, '}' :: rest => some rest
    | false, '\\' :: '}' :: rest => some rest
    | _, _ => none
  match closing with
  | none => .error (if rest.isEmpty then .unmatchedBrace else .badInterval)
  | some rest =>
    let least := Octets.digitsValue 10 low
    let most := if !comma then some least else if high.isEmpty then none
      else some (Octets.digitsValue 10 high)
    if (low.isEmpty && !comma) || most.any (· < least) then .error .badInterval
    else .ok (least, most, rest)

/-- The repetitions behind a part of a regular expression, at most `budget`. -/
def repetitions (extended : Bool) (r : Regex) : (budget : Nat) → List Char →
    Except Fault (Regex × List Char)
  | 0, cs => .ok (r, cs)
  | budget + 1, cs => do
    match ← sign extended cs with
    | (some .star, rest) => repetitions extended (.rep r 0 none) budget rest
    | (some .plus, rest) => repetitions extended (.rep r 1 none) budget rest
    | (some .question, rest) => repetitions extended (.rep r 0 (some 1)) budget rest
    | (some .braceOpen, rest) => do
      let (least, most, rest) ← interval extended rest
      repetitions extended (.rep r least most) budget rest
    | _ => return (r, cs)

/-- A dollar sign stands at the end of a part of a basic regular expression. -/
def endsPart (cs : List Char) : Bool :=
  cs.isEmpty || ['\\', ')'].isPrefixOf cs || ['\\', '|'].isPrefixOf cs

mutual

/-- Reads alternatives up to the end or a closing parenthesis; `groups` counts the groups so far. -/
def alternatives (extended : Bool) (depth : Nat) : (budget : Nat) → (groups : Nat) →
    List Char → Except Fault (Regex × Nat × List Char)
  | 0, groups, cs => .ok (.empty, groups, cs)
  | budget + 1, groups, cs => do
    let (first, groups, rest) ← branch extended depth budget true groups .empty cs
    match ← sign extended rest with
    | (some .bar, rest) => do
      let (second, groups, rest) ← alternatives extended depth budget groups rest
      return (.alt first second, groups, rest)
    | _ => return (first, groups, rest)

/-- Reads a sequence behind what has been read of it. -/
def branch (extended : Bool) (depth : Nat) : (budget : Nat) → (atStart : Bool) →
    (groups : Nat) → Regex → List Char → Except Fault (Regex × Nat × List Char)
  | 0, _, groups, read, cs => .ok (read, groups, cs)
  | budget + 1, atStart, groups, read, cs => do
    let extend (part : Regex) (groups : Nat) (rest : List Char) :
        Except Fault (Regex × Nat × List Char) := do
      let (part, rest) ← repetitions extended part budget rest
      branch extended depth budget false groups
        (if read = .empty then part else .seq read part) rest
    match ← sign extended cs with
    | (none, rest) => if depth = 0 then return (read, groups, rest) else .error .unmatchedOpen
    | (some .bar, _) => return (read, groups, cs)
    | (some .parenClose, _) =>
      if depth = 0 then .error .unmatchedClose else return (read, groups, cs)
    | (some .parenOpen, rest) => do
      let number := groups + 1
      let (inner, groups, rest) ← alternatives extended (depth + 1) budget number rest
      match ← sign extended rest with
      | (some .parenClose, rest) => extend (.group number inner) groups rest
      | _ => .error .unmatchedOpen
    -- In the basic dialect, anchors and stars stand for themselves out of place.
    | (some .caret, rest) =>
      if extended || atStart then
        branch extended depth budget atStart groups
          (if read = .empty then .edge .lineStart else .seq read (.edge .lineStart)) rest
      else extend (.one (.unit (.scalar '^'))) groups rest
    | (some .dollar, rest) =>
      if extended || endsPart rest then
        branch extended depth budget false groups
          (if read = .empty then .edge .lineEnd else .seq read (.edge .lineEnd)) rest
      else extend (.one (.unit (.scalar '$'))) groups rest
    | (some .star, rest) =>
      if atStart && !extended then extend (.one (.unit (.scalar '*'))) groups rest
      else .error .nothingToRepeat
    | (some .plus, _) | (some .question, _) | (some .braceOpen, _) => .error .nothingToRepeat
    | (some (.literal c), rest) => extend (.one (.unit (.scalar c))) groups rest
    | (some (.set test), rest) => extend (.one test) groups rest
    | (some (.edge e), rest) => extend (.edge e) groups rest
    | (some (.back n), rest) =>
      if n ≤ groups then extend (.back n) groups rest else .error .badReference

end

/-- Reads a regular expression; gives the number of its groups too. -/
def read (extended : Bool) (cs : List Char) : Except Fault (Regex × Nat) := do
  let (r, groups, _) ← alternatives extended 0 (4 * cs.length + 4) 0 cs
  return (r, groups)

end SfcProxy.Tool.Regex
