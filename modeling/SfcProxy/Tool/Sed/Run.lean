import SfcProxy.Tool.Sed.Script

/-!
# Running editing scripts

A script runs once for each line. It works on a pattern space, which holds the line, and a hold
space, which keeps text from line to line.

## Main definitions

* `Sed.State`: what a script has come to
* `Sed.substitute`: replaces matches in a text
* `Sed.run`: runs a script on the lines at hand
-/

namespace SfcProxy.Tool.Sed

/-- A range of lines that has begun: the number of the line where it ends, if that is known. -/
inductive RangeState where
  | active (stop : Option Nat)
  | closed
  deriving DecidableEq

/-- What a script has come to: its two spaces, the number of the line, the lines that are left,
each with whether it ends in a break, whether the current line does, what is printed behind the
line, what was printed, piece by piece and last first, and whether that lacks a break, whether a
substitution was made, the ranges that have begun, what was written to files, and the regular
expression that was used last. -/
structure State where
  pattern : Text := []
  hold : Text := []
  line : Nat := 0
  lines : List (Text × Bool)
  broken : Bool := true
  queue : List (Text × Bool) := []
  printed : List Text := []
  lacking : Bool := false
  changed : Bool := false
  ranges : Numbered RangeState := []
  written : List (Octets × Text) := []
  lastRegex : Option Regex := none

/-- How lines end. -/
structure Setting where
  script : Script
  /-- No further lines can come. -/
  closed : Bool
  /-- The octet between lines. -/
  separator : Char
  /-- The contents of the files that the script reads. -/
  sources : List (Octets × Text)

/-- Why a script stops: it ends with a status, it needs more lines, or it cannot go on. -/
inductive Stop where
  | ended (status : Nat)
  | needsMore
  | fault (message : String)
  deriving DecidableEq

/-! ## Output -/

/-- Prints text; a break is added first if the last print lacks it. -/
def State.print (s : State) (separator : Char) (text : Text) (broken : Bool) : State :=
  let gap : List Text := if s.lacking then [[.scalar separator]] else []
  let piece := if broken then text ++ [.scalar separator] else text
  { s with printed := piece :: (gap ++ s.printed), lacking := !broken }

/-- Prints the pattern space. -/
def State.printPattern (s : State) (separator : Char) : State :=
  s.print separator s.pattern s.broken

/-- Prints text that comes with its own breaks. -/
def State.printRaw (s : State) (separator : Char) (text : Text) : State :=
  if text.isEmpty then s
  else
    let gap : List Text := if s.lacking then [[.scalar separator]] else []
    { s with printed := text :: (gap ++ s.printed), lacking := false }

/-- Prints what has to come behind the line. -/
def State.flush (s : State) (separator : Char) : State :=
  let s := s.queue.foldl (fun s (text, isFile) =>
    let t := s.printRaw separator text
    -- The content of a file is printed as it is, even without a break at its end.
    if isFile && !text.isEmpty then { t with lacking := text.getLast? ≠ some (.scalar '\n') }
    else t) s
  { s with queue := [] }

/-- Writes the pattern space to a file, which may be the output. -/
def State.writeTo (s : State) (separator : Char) (file : Octets) (text : Text) : State :=
  if file = "/dev/stdout".toList then s.print separator text true
  else { s with written := s.written ++ [(file, text ++ [.scalar separator])] }

/-- The unambiguous form of an octet. -/
def showOctet (c : Char) : Octets :=
  match c with
  | '\\' => "\\\\".toList
  | '\x07' => "\\a".toList
  | '\x08' => "\\b".toList
  | '\x0c' => "\\f".toList
  | '\n' => "\\n".toList
  | '\r' => "\\r".toList
  | '\t' => "\\t".toList
  | '\x0b' => "\\v".toList
  | c =>
    if 32 ≤ c.toNat && c.toNat < 127 then [c]
    else
      let digits := Nat.toDigits 8 c.toNat
      '\\' :: List.replicate (3 - digits.length) '0' ++ digits

/-- The unambiguous form of a text, broken into lines of at most 70 characters. -/
def showText (t : Text) : Text :=
  let (shown, _) := (Octets.ofText t).foldl (fun (shown, width) c =>
    let piece := showOctet c
    if width + piece.length > 69 then (piece.reverse ++ '\n' :: '\\' :: shown, piece.length)
    else (piece.reverse ++ shown, width + piece.length)) (([] : Octets), 0)
  Text.ofChars ('$' :: shown).reverse

/-! ## Addresses -/

/-- The regular expression of a pattern, which may be the last one. -/
def State.regex? (s : State) (p : Pattern) : Option Regex :=
  match p.regex with
  | some r => some r
  | none => s.lastRegex

/-- Whether an address holds for the current line. -/
def holds (g : Setting) (s : State) : Address → Except Stop (Bool × State)
  | .line n => .ok (s.line = n, s)
  | .step first step => .ok (s.line ≥ first && (s.line - first) % step = 0, s)
  | .last =>
    if !s.lines.isEmpty then .ok (false, s)
    else if g.closed then .ok (true, s)
    else .error .needsMore
  | .matching p =>
    match s.regex? p with
    | none => .error (.fault "no previous regular expression")
    | some r => .ok ((Regex.search p.mode r s.pattern).isSome, { s with lastRegex := some r })

/-- The line where a range that begins here ends, if that is known. -/
def rangeStop (s : State) : RangeEnd → Option Nat
  | .at (.line n) => some n
  | .further n => some (s.line + n)
  | .multiple n => some (if n = 0 then s.line else (s.line + n - 1) / n * n)
  | _ => none

/-- A range that has not begun begins here if its first address holds. -/
def beginRange (g : Setting) (place : Nat) (s : State) (start : Address) (stop : RangeEnd) :
    Except Stop (Bool × State) := do
  let (begins, s) ← holds g s start
  if !begins then return (false, s)
  match rangeStop s stop with
  | some n =>
    if n ≤ s.line then return (true, s)
    return (true, { s with ranges := s.ranges.put place (.active (some n)) })
  | none => return (true, { s with ranges := s.ranges.put place (.active none) })

/-- Whether a command at a place counts for the current line. -/
def applies (g : Setting) (place : Nat) (s : State) : Scope → Except Stop (Bool × State)
  | .all => .ok (true, s)
  | .one a => holds g s a
  | .range start stop =>
    let state : Option RangeState := match s.ranges.get? place with
      | none => if start = Address.line 0 then some (.active none) else none
      | known => known
    match state with
    | some (.active (some n)) =>
      let s := if n ≤ s.line then { s with ranges := s.ranges.put place .closed } else s
      .ok (s.line ≤ n, s)
    | some (.active none) =>
      match stop with
      | .at a => do
        let (ends, s) ← holds g s a
        return (true, { s with ranges := s.ranges.put place (if ends then .closed else .active none) })
      | _ => .ok (true, s)
    | _ => beginRange g place s start stop

/-! ## Substitutions -/

/-- Units in the case that a shift asks for. -/
def shifted (shift : CaseShift) (t : Text) : Text :=
  match shift with
  | .upper => t.map Regex.upper
  | .lower => t.map Regex.lower
  | _ => t

/-- The text of a replacement for a match: `lasting` is the change of case that lasts, `once` one
for the next character only. -/
def replacementText (m : Regex.Match) (lasting once : CaseShift) : List Piece → Text
  | [] => []
  | .shift .upperNext :: rest => replacementText m lasting .upperNext rest
  | .shift .lowerNext :: rest => replacementText m lasting .lowerNext rest
  | .shift shift :: rest => replacementText m shift .none rest
  | .text t :: rest => piece t rest
  | .group n :: rest => piece (((m.groups.get? n).map (·.2)).getD []) rest
where
  /-- A piece of text in the right case, and the rest behind it. -/
  piece (t : Text) (rest : List Piece) : Text :=
    match shifted lasting t with
    | [] => replacementText m lasting once rest
    | u :: more =>
      let first := match once with
        | .upperNext => Regex.upper u
        | .lowerNext => Regex.lower u
        | _ => u
      first :: (more ++ replacementText m lasting .none rest)

/-- Replaces matches from a cursor on: `count` were found before, `last` is where the one before
ended, and `done` tells whether any was replaced. -/
def substituteFrom (r : Regex) (sub : Substitution) (c : Regex.Cursor) (count : Nat)
    (last : Option Nat) (made : Bool) : (budget : Nat) → Text × Bool
  | 0 => (c.rest, made)
  | budget + 1 =>
    match Regex.searchFrom sub.pattern.mode r c (c.rest.length + 1) with
    | none => (c.rest, made)
    | some m =>
      let before := c.rest.take (m.start.position - c.position)
      if m.text.isEmpty && last = some m.start.position then
        -- Nothing is matched directly behind a match.
        match m.start.rest with
        | [] => (before, made)
        | u :: _ =>
          let (more, made) := substituteFrom r sub m.start.next count none made budget
          (before ++ u :: more, made)
      else
        let count := count + 1
        let replaces := sub.number ≤ count
        let shown := if replaces then replacementText m .none .none sub.replacement else m.text
        let stop := m.stop
        let made := made || replaces
        if replaces && !sub.global then (before ++ shown ++ stop.rest, made)
        else if m.text.isEmpty then
          match stop.rest with
          | [] => (before ++ shown, made)
          | u :: _ =>
            let (more, made) := substituteFrom r sub stop.next count none made budget
            (before ++ shown ++ u :: more, made)
        else
          let (more, made) := substituteFrom r sub stop count (some stop.position) made budget
          (before ++ shown ++ more, made)

/-- Replaces matches in a text, and tells whether there were any. -/
def substitute (r : Regex) (sub : Substitution) (t : Text) : Text × Bool :=
  substituteFrom r sub (.front t) 0 none false (t.length + 2)

/-! ## Commands -/

/-- Where a script goes on after a command. -/
inductive Onward where
  | next
  | to (place : Nat)
  /-- With the next line; the pattern space is printed first unless it was deleted. -/
  | cycle (prints : Bool)
  /-- With the same pattern space from the start. -/
  | restart
  | quit (prints : Bool) (status : Nat)
  deriving DecidableEq

/-- A line break. -/
def newline : TextUnit := .scalar '\n'

/-- Reads the next line, behind the pattern space or in its place. -/
def readLine (g : Setting) (s : State) (behind : Bool) : Except Stop (Option State) :=
  match s.lines with
  | [] => if g.closed then .ok none else .error .needsMore
  | (line, broken) :: rest =>
    let s := s.flush g.separator
    .ok (some { s with
      pattern := if behind then s.pattern ++ newline :: line else line
      line := s.line + 1
      lines := rest
      broken
      changed := false })

/-- Carries a command at a place out. -/
def act (g : Setting) (place : Nat) (command : Command) (s : State) :
    Except Stop (Onward × State) :=
  match command.action with
  | .block _ | .nothing => .ok (.next, s)
  | .number => .ok (.next, s.print '\n' (Text.ofNat s.line) true)
  | .append text => .ok (.next, { s with queue := s.queue ++ [(text, false)] })
  | .insert text => .ok (.next, s.printRaw g.separator text)
  | .change text =>
    let inside := match s.ranges.get? place with
      | some (.active _) => !command.negated
      | _ => false
    .ok (.cycle false, if inside then s else s.printRaw g.separator text)
  | .jump target => .ok (.to target, s)
  | .jumpIf target =>
    .ok (if s.changed then .to target else .next, { s with changed := false })
  | .jumpUnless target =>
    .ok (if s.changed then .next else .to target, { s with changed := false })
  | .delete => .ok (.cycle false, s)
  | .deleteFirst =>
    if s.pattern.contains newline then
      .ok (.restart, { s with pattern := (s.pattern.dropWhile (· != newline)).drop 1 })
    else .ok (.cycle false, s)
  | .get => .ok (.next, { s with pattern := s.hold })
  | .getMore => .ok (.next, { s with pattern := s.pattern ++ newline :: s.hold })
  | .hold => .ok (.next, { s with hold := s.pattern })
  | .holdMore => .ok (.next, { s with hold := s.hold ++ newline :: s.pattern })
  | .exchange => .ok (.next, { s with pattern := s.hold, hold := s.pattern })
  | .list => .ok (.next, s.print '\n' (showText s.pattern) true)
  | .next =>
    if s.lines.isEmpty && g.closed then .ok (.quit true 0, s)
    else do
      -- The line is printed only when the next one is there.
      let printed := if g.script.quiet then s else s.printPattern g.separator
      match ← readLine g printed false with
      | some s => return (.next, s)
      | none => return (.quit true 0, s)
  | .nextMore => do
    match ← readLine g s true with
    | some s => return (.next, s)
    | none => return (.quit true 0, s)
  | .print => .ok (.next, s.printPattern g.separator)
  | .printFirst => .ok (.next, s.print g.separator (s.pattern.takeWhile (· != newline)) true)
  | .quit status => .ok (.quit true status, s)
  | .quitSilently status => .ok (.quit false status, s)
  | .readFile file =>
    .ok (.next, { s with queue := s.queue ++ [((g.sources.lookup file).getD [], true)] })
  | .writeFile file => .ok (.next, s.writeTo g.separator file s.pattern)
  | .writeFirst file =>
    .ok (.next, s.writeTo g.separator file (s.pattern.takeWhile (· != newline)))
  | .substitute sub =>
    match s.regex? sub.pattern with
    | none => .error (.fault "no previous regular expression")
    | some r =>
      let (text, made) := substitute r sub s.pattern
      let s := { s with lastRegex := some r }
      if !made then .ok (.next, s)
      else
        let s := { s with pattern := text, changed := true }
        let s := if sub.print > 0 then s.printPattern g.separator else s
        .ok (.next, match sub.file with
          | some file => s.writeTo g.separator file s.pattern
          | none => s)
  | .mapChars pairs =>
    .ok (.next, { s with pattern := s.pattern.map fun u => (pairs.lookup u).getD u })
  | .name => .ok (.next, s.print '\n' (Text.ofString "-") true)
  | .clear => .ok (.next, { s with pattern := [] })

/-! ## Cycles -/

/-- The state at the end of a cycle. -/
def finishLine (g : Setting) (prints : Bool) (s : State) : State :=
  (if prints && !g.script.quiet then s.printPattern g.separator else s).flush g.separator

/-- Runs a script from a place on, in at most `budget` steps. -/
def runFrom (g : Setting) : (budget : Nat) → (place : Nat) → State → Stop × State
  | 0, _, s => (.fault "too many steps", s)
  | budget + 1, place, s =>
    let nextLine (s : State) : Stop × State :=
      match readLine g s false with
      | .error stop => (stop, s)
      | .ok none => (.ended 0, s)
      | .ok (some s) => runFrom g budget 0 s
    match g.script.commands[place]? with
    | none => nextLine (finishLine g true s)
    | some command =>
      match applies g place s command.scope with
      | .error stop => (stop, s)
      | .ok (counts, s) =>
        if counts = command.negated then
          match command.action with
          | .block stop => runFrom g budget (stop + 1) s
          | _ => runFrom g budget (place + 1) s
        else
          match act g place command s with
          | .error stop => (stop, s)
          | .ok (.next, s) => runFrom g budget (place + 1) s
          | .ok (.to target, s) => runFrom g budget target s
          | .ok (.cycle prints, s) => nextLine (finishLine g prints s)
          | .ok (.restart, s) => runFrom g budget 0 (s.flush g.separator)
          | .ok (.quit prints status, s) =>
            (.ended status, if prints then finishLine g true s else s)

/-- Runs a script on lines. -/
def run (g : Setting) (lines : List (Text × Bool)) : Stop × State :=
  match readLine g { lines } false with
  | .error stop => (stop, { lines })
  | .ok none => (.ended 0, { lines })
  | .ok (some s) => runFrom g 10000000 0 s

/-- What a script has printed. -/
def State.output (s : State) : Octets :=
  Octets.ofText s.printed.reverse.flatten

end SfcProxy.Tool.Sed
