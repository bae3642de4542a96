import SfcProxy.Tool.Sed.Script

/-!
# Except Fault (editing × List Char) scripts

Commands stand on lines of their own or between semicolons. A fault is told with the number of
characters that were read before it was found.

## Main definitions

* `Sed.Fault`: what is wrong with a script
* `Sed.readScript`: reads a script
-/

namespace SfcProxy.Tool.Sed

/-- A fault: what is wrong, and how many characters are left behind the place where it was found.
A fault in the script as a whole has no place. -/
structure Fault where
  message : List Char
  left : Option Nat
  deriving DecidableEq

/-- A fault at a place. -/
def faultAt {α : Type} (message : String) (rest : List Char) : Except Fault α :=
  .error ⟨message.toList, some rest.length⟩

/-- A blank inside a line. -/
def isBlank (c : Char) : Bool :=
  c == ' ' || (c != '\n' && 9 ≤ c.toNat && c.toNat ≤ 13)

/-- A blank or a line break. -/
def isSpace (c : Char) : Bool :=
  c == ' ' || (9 ≤ c.toNat && c.toNat ≤ 13)

/-! ## Delimited parts -/

/-- The character that an escape letter stands for. -/
def escapeLetter? : Char → Option Char
  | 'a' => some '\x07'
  | 'f' => some '\x0c'
  | 'n' => some '\n'
  | 'r' => some '\r'
  | 't' => some '\t'
  | 'v' => some '\x0b'
  | _ => none

/-- Reads up to a delimiter; `read` holds what was read, last first, and `inSet` tells whether a
set of characters is open. Without a delimiter there is nothing. -/
def delimitedFrom (delimiter : Char) (isRegex : Bool) (inSet : Bool) (read : List Char) :
    List Char → Option (List Char × List Char)
  | [] => none
  | '\n' :: rest => if isRegex then none else delimitedFrom delimiter isRegex inSet ('\n' :: read) rest
  | '\\' :: c :: rest =>
    if inSet then
      if c = 'n' then delimitedFrom delimiter isRegex inSet ('\n' :: read) rest
      else if c = ']' then delimitedFrom delimiter isRegex false (']' :: '\\' :: read) rest
      else delimitedFrom delimiter isRegex inSet (c :: '\\' :: read) rest
    else if c = delimiter && (isRegex || c ≠ '&') then
      delimitedFrom delimiter isRegex inSet (c :: read) rest
    else if isRegex && c = '\n' then delimitedFrom delimiter isRegex inSet ('\n' :: read) rest
    else delimitedFrom delimiter isRegex inSet (c :: '\\' :: read) rest
  | c :: rest =>
    if c = delimiter && !inSet then some (read.reverse, rest)
    else
      let opens := isRegex && !inSet && c = '['
      let closes := inSet && c = ']' && !(read.head? = some '[' || ['^', '['].isPrefixOf read)
      delimitedFrom delimiter isRegex ((inSet || opens) && !closes) (c :: read) rest

/-- Reads up to a delimiter. -/
def delimited (delimiter : Char) (isRegex : Bool) (cs : List Char) :
    Option (List Char × List Char) :=
  delimitedFrom delimiter isRegex false [] cs

/-- A regular expression with the escapes of single characters carried out. -/
def plainEscapes : List Char → List Char
  | '\\' :: c :: rest =>
    match escapeLetter? c with
    | some e => e :: plainEscapes rest
    | none => '\\' :: c :: plainEscapes rest
  | c :: rest => c :: plainEscapes rest
  | [] => []

/-- The pattern that a regular expression stands for. -/
def pattern (extended : Bool) (mode : Regex.Mode) (written rest : List Char) :
    Except Fault Pattern :=
  if written.isEmpty then .ok ⟨none, mode, 0⟩
  else
    match Regex.read extended (plainEscapes written) with
    | .ok (r, groups) => .ok ⟨some r, mode, groups⟩
    | .error fault => .error ⟨fault.message.toList, some rest.length⟩

/-! ## Addresses -/

/-- A number at the front. -/
def number? (cs : List Char) : Option (Nat × List Char) :=
  let digits := cs.takeWhile Char.isDigit
  if digits.isEmpty then none else some (Octets.digitsValue 10 digits, cs.drop digits.length)

/-- The flags behind the regular expression of an address. -/
def addressFlags (mode : Regex.Mode) : List Char → Regex.Mode × List Char
  | 'I' :: rest => addressFlags { mode with ignoreCase := true } rest
  | 'M' :: rest => addressFlags { mode with lines := true } rest
  | cs => (mode, cs)

/-- The regular expression of an address behind its opening delimiter. -/
def matchingAddress (extended : Bool) (delimiter : Char) (cs : List Char) :
    Except Fault (Option Address × List Char) :=
  match delimited delimiter true cs with
  | none => faultAt "unterminated address regex" []
  | some (written, rest) => do
    let (mode, rest) := addressFlags {} rest
    let p ← pattern extended mode written rest
    return (some (.matching p), rest)

/-- Reads an address, if there is one. -/
def address (extended : Bool) (cs : List Char) : Except Fault (Option Address × List Char) :=
  match cs with
  | '$' :: rest => .ok (some .last, rest)
  | '/' :: rest => matchingAddress extended '/' rest
  | '\\' :: delimiter :: rest => matchingAddress extended delimiter rest
  | _ =>
    match number? cs with
    | none => .ok (none, cs)
    | some (first, rest) =>
      match rest.dropWhile isBlank with
      | '~' :: more =>
        let (step, more) := (number? (more.dropWhile isBlank)).getD (0, more)
        .ok (some (if step = 0 then .line first else .step first step), more)
      | _ => .ok (some (.line first), rest)

/-- Reads the lines that a command counts for. -/
def scope (extended : Bool) (cs : List Char) : Except Fault (Scope × List Char) := do
  let (first, rest) ← address extended cs
  match first with
  | none => return (.all, rest)
  | some start =>
    match rest.dropWhile isSpace with
    | ',' :: more =>
      let more := more.dropWhile isSpace
      match more with
      | '+' :: digits =>
        match number? digits with
        | some (n, rest) => return (.range start (.further n), rest)
        | none => faultAt "expected number" (digits.drop 1)
      | '~' :: digits =>
        match number? digits with
        | some (n, rest) => return (.range start (.multiple n), rest)
        | none => faultAt "expected number" (digits.drop 1)
      | _ => do
        match ← address extended more with
        | (some stop, rest) => return (.range start (.at stop), rest)
        | (none, rest) => faultAt "unexpected `,'" (rest.drop 1)
    | _ => return (.one start, rest)

/-! ## Parts of commands -/

/-- The end of a command. -/
def commandEnd (cs : List Char) : Except Fault (List Char) :=
  match cs.dropWhile isBlank with
  | [] => .ok []
  | '\n' :: rest | ';' :: rest => .ok rest
  | '}' :: rest => .ok ('}' :: rest)
  | '#' :: rest => .ok ('#' :: rest)
  | _ :: rest => faultAt "extra characters after command" rest

/-- The pieces of a replacement; `text` holds the text so far, last first. -/
def replacementFrom (text : List Char) : List Char → List Piece
  | [] => flush text
  | '\\' :: c :: rest =>
    if c.isDigit then flush text ++ .group (c.toNat - '0'.toNat) :: replacementFrom [] rest
    else
      match shift? c with
      | some s => flush text ++ .shift s :: replacementFrom [] rest
      | none => replacementFrom ((escapeLetter? c).getD c :: text) rest
  | '&' :: rest => flush text ++ .group 0 :: replacementFrom [] rest
  | c :: rest => replacementFrom (c :: text) rest
where
  /-- The text that was read as a piece. -/
  flush (text : List Char) : List Piece :=
    if text.isEmpty then [] else [.text (Text.ofChars text.reverse)]
  /-- The change of case that a letter stands for. -/
  shift? : Char → Option CaseShift
    | 'U' => some .upper
    | 'L' => some .lower
    | 'E' => some .none
    | 'u' => some .upperNext
    | 'l' => some .lowerNext
    | _ => none

/-- The rest of a line and what follows it. -/
def restOfLine (cs : List Char) : List Char × List Char :=
  let line := cs.takeWhile (· != '\n')
  (line, cs.drop (line.length + 1))

/-- The name of a file at the end of a line. -/
def fileName (cs : List Char) : Except Fault (Octets × List Char) :=
  let (name, rest) := restOfLine (cs.dropWhile isBlank)
  if name.isEmpty then faultAt "missing filename in r/R/w/W commands" rest
  else .ok (Octets.ofBytes (Utf8.encodeChars name), rest)

/-- The flags of a substitution. -/
structure Flags where
  global : Bool := false
  print : Nat := 0
  number : Option Nat := none
  mode : Regex.Mode := {}
  file : Option Octets := none

/-- Reads the flags of a substitution, at most `budget`. -/
def flags (f : Flags) : (budget : Nat) → List Char → Except Fault (Flags × List Char)
  | 0, cs => .ok (f, cs)
  | budget + 1, cs =>
    match cs with
    | 'g' :: rest =>
      if f.global then faultAt "multiple `g' options to `s' command" rest
      else flags { f with global := true } budget rest
    | 'p' :: rest =>
      if f.print > 0 then faultAt "multiple `p' options to `s' command" rest
      else flags { f with print := 1 } budget rest
    | 'i' :: rest | 'I' :: rest => flags { f with mode := { f.mode with ignoreCase := true } } budget rest
    | 'm' :: rest | 'M' :: rest => flags { f with mode := { f.mode with lines := true } } budget rest
    | 'w' :: rest => do
      let (file, rest) ← fileName rest
      return ({ f with file := some file }, rest)
    | [] => .ok (f, [])
    | '\n' :: rest | ';' :: rest => .ok (f, rest)
    | '}' :: _ | '#' :: _ => .ok (f, cs)
    | c :: rest =>
      if isBlank c then flags f budget rest
      else
        match number? cs with
        | some (0, rest) => faultAt "number option to `s' command may not be zero" rest
        | some (n, rest) =>
          if f.number.isSome then faultAt "multiple number options to `s' command" rest
          else flags { f with number := some n } budget rest
        | none => faultAt "unknown option to `s'" rest

/-- The greatest group that a replacement refers to. -/
def greatestGroup (pieces : List Piece) : Nat :=
  pieces.foldl (fun n p => match p with
    | .group m => max n m
    | _ => n) 0

/-- Reads a substitution behind its letter. -/
def substitution (extended : Bool) (cs : List Char) : Except Fault (Substitution × List Char) :=
  let unterminated : Except Fault (Substitution × List Char) := faultAt "unterminated `s' command" []
  match cs with
  | [] => unterminated
  | delimiter :: cs =>
    match delimited delimiter true cs with
    | none => unterminated
    | some (written, rest) =>
      match delimited delimiter false rest with
      | none => unterminated
      | some (replacement, rest) => do
        let (f, rest) ← flags {} (rest.length + 1) rest
        let p ← pattern extended f.mode written rest
        let pieces := replacementFrom [] replacement
        let greatest := greatestGroup pieces
        if p.regex.isSome && greatest > p.groups then
          .error ⟨"invalid reference \\".toList ++ Octets.ofNat greatest
            ++ " on `s' command's RHS".toList, some rest.length⟩
        return (⟨p, pieces, f.global, f.print, f.number.getD 1, f.file⟩, rest)

/-- The characters of one side of a map of characters. -/
def charMapSide : List Char → List Char
  | '\\' :: c :: rest =>
    if c = '\\' then '\\' :: charMapSide rest
    else
      match escapeLetter? c with
      | some e => e :: charMapSide rest
      | none => '\\' :: c :: charMapSide rest
  | c :: rest => c :: charMapSide rest
  | [] => []

/-- Reads a map of characters behind its letter. -/
def charMap (cs : List Char) : Except Fault (List (TextUnit × TextUnit) × List Char) :=
  let unterminated : Except Fault (List (TextUnit × TextUnit) × List Char) := faultAt "unterminated `y' command" []
  match cs with
  | [] => unterminated
  | delimiter :: cs =>
    match delimited delimiter false cs with
    | none => unterminated
    | some (source, rest) =>
      match delimited delimiter false rest with
      | none => unterminated
      | some (target, rest) =>
        let source := charMapSide source
        let target := charMapSide target
        if source.length ≠ target.length then
          faultAt "strings for `y' command are different lengths" rest
        else do
          let rest ← commandEnd rest
          return ((Text.ofChars source).zip (Text.ofChars target), rest)

/-- The lines of a text up to a line break without a backslash; `read` holds what was read, last
first. -/
def textFrom (read : List Char) : List Char → List Char × List Char
  | [] => (read.reverse, [])
  | '\n' :: rest => (read.reverse, rest)
  | '\\' :: c :: rest => textFrom ((escapeLetter? c).getD c :: read) rest
  | '\\' :: [] => (read.reverse, [])
  | c :: rest => textFrom (c :: read) rest

/-- Reads the text of a command behind its letter. -/
def commandText (cs : List Char) : Except Fault (Text × List Char) :=
  let plain (cs : List Char) : Except Fault (Text × List Char) :=
    let (text, rest) := textFrom [] cs
    .ok (Text.ofChars (text ++ ['\n']), rest)
  match cs.dropWhile isBlank with
  | [] => faultAt "expected \\ after `a', `c' or `i'" []
  | '\\' :: rest =>
    match rest.dropWhile isBlank with
    | '\n' :: more => if more.isEmpty then .ok ([], []) else plain more
    | [] => .ok ([], [])
    | _ => plain rest
  | cs => plain cs

/-- A label behind a command. -/
def label (cs : List Char) : List Char × List Char :=
  let cs := cs.dropWhile isBlank
  let name := cs.takeWhile fun c => !isSpace c && c != ';' && c != '}'
  (name, cs.drop name.length)

/-- A status behind a command. -/
def status (cs : List Char) : Nat × List Char :=
  (number? (cs.dropWhile isBlank)).getD (0, cs)

/-! ## Commands -/

/-- Which jump a command makes. -/
inductive JumpKind where
  | always
  | onChange
  | onNoChange
  deriving DecidableEq

/-- A command whose targets are not known yet. -/
inductive Draft where
  | action (action : Action)
  | opening
  | closing
  | label (name : List Char)
  | jump (kind : JumpKind) (name : List Char)
  deriving DecidableEq

/-- Actions without anything behind their letter. -/
def plainAction? : Char → Option Action
  | '=' => some .number
  | 'd' => some .delete
  | 'D' => some .deleteFirst
  | 'g' => some .get
  | 'G' => some .getMore
  | 'h' => some .hold
  | 'H' => some .holdMore
  | 'x' => some .exchange
  | 'n' => some .next
  | 'N' => some .nextMore
  | 'p' => some .print
  | 'P' => some .printFirst
  | 'z' => some .clear
  | 'F' => some .name
  | _ => none

/-- Reads what a command does. -/
def draft (extended : Bool) (scope : Scope) (cs : List Char) : Except Fault (Draft × List Char) :=
  let jump (kind : JumpKind) (cs : List Char) : Except Fault (Draft × List Char) := do
    let (name, rest) := label cs
    let rest ← commandEnd rest
    return (.jump kind name, rest)
  let isAll := scope = .all
  match cs with
  | [] => faultAt "missing command" []
  | '{' :: rest => .ok (.opening, rest)
  | '}' :: rest => do
    if !isAll then faultAt "\x7d doesn't want any addresses" rest
    let rest ← commandEnd rest
    return (.closing, rest)
  | ':' :: rest =>
    if !isAll then faultAt ": doesn't want any addresses" rest
    else
      let (name, rest) := label rest
      if name.isEmpty then faultAt "\":\" lacks a label" rest
      else .ok (.label name, rest)
  | 'b' :: rest => jump .always rest
  | 't' :: rest => jump .onChange rest
  | 'T' :: rest => jump .onNoChange rest
  | 'a' :: rest => do
    let (text, rest) ← commandText rest
    return (.action (.append text), rest)
  | 'i' :: rest => do
    let (text, rest) ← commandText rest
    return (.action (.insert text), rest)
  | 'c' :: rest => do
    let (text, rest) ← commandText rest
    return (.action (.change text), rest)
  | 'l' :: rest => do
    let (_, rest) := status rest
    return (.action .list, ← commandEnd rest)
  | 'q' :: rest => do
    let (n, rest) := status rest
    return (.action (.quit n), ← commandEnd rest)
  | 'Q' :: rest => do
    let (n, rest) := status rest
    return (.action (.quitSilently n), ← commandEnd rest)
  | 'r' :: rest => do
    let (file, rest) ← fileName rest
    return (.action (.readFile file), rest)
  | 'w' :: rest => do
    let (file, rest) ← fileName rest
    return (.action (.writeFile file), rest)
  | 'W' :: rest => do
    let (file, rest) ← fileName rest
    return (.action (.writeFirst file), rest)
  | 's' :: rest => do
    let (s, rest) ← substitution extended rest
    return (.action (.substitute s), rest)
  | 'y' :: rest => do
    let (pairs, rest) ← charMap rest
    return (.action (.mapChars pairs), rest)
  | c :: rest =>
    match plainAction? c with
    | some action => do
      return (.action action, ← commandEnd rest)
    | none => .error ⟨"unknown command: `".toList ++ [c, '\''], some rest.length⟩

/-- Checks the lines that a command counts for. -/
def checkScope (scope : Scope) (draft : Draft) (rest : List Char) : Except Fault Unit :=
  match scope with
  | .one (.line 0) => faultAt "invalid usage of line address 0" rest
  | .range (.line 0) (.at (.matching _)) => .ok ()
  | .range (.line 0) _ => faultAt "invalid usage of line address 0" rest
  | .range _ _ =>
    match draft with
    | .action (.quit _) | .action (.quitSilently _) => faultAt "command only uses one address" rest
    | _ => .ok ()
  | _ => .ok ()

/-- Reads commands, at most `budget`. -/
def drafts (extended : Bool) : (budget : Nat) → List Char →
    Except Fault (List (Scope × Bool × Draft))
  | 0, _ => .ok []
  | budget + 1, cs =>
    match cs.dropWhile fun c => isSpace c || c == ';' with
    | [] => .ok []
    | '#' :: rest => drafts extended budget (restOfLine rest).2
    | cs => do
      let (scope, rest) ← scope extended cs
      let rest := rest.dropWhile isSpace
      let (negated, rest) := match rest with
        | '!' :: rest => (true, rest.dropWhile isSpace)
        | _ => (false, rest)
      if rest.head? = some '!' then faultAt "multiple `!'s" (rest.drop 1)
      if rest.head? = some '#' && scope ≠ .all then
        faultAt "comments don't accept any addresses" (rest.drop 1)
      checkScope scope .opening (rest.drop 1)
      let (d, rest) ← draft extended scope rest
      checkScope scope d rest
      return (scope, negated, d) :: (← drafts extended budget rest)

/-! ## Targets -/

/-- The place where the block that is opened last ends, counting from `place`; `depth` blocks are
open. -/
def blockEnd? (place depth : Nat) : List Draft → Option Nat
  | [] => none
  | .opening :: rest => blockEnd? (place + 1) (depth + 1) rest
  | .closing :: rest => if depth = 0 then some place else blockEnd? (place + 1) (depth - 1) rest
  | _ :: rest => blockEnd? (place + 1) depth rest

/-- The deepest excess of closings over openings is none. -/
def balanced (depth : Nat) : List Draft → Bool
  | [] => true
  | .opening :: rest => balanced (depth + 1) rest
  | .closing :: rest => depth > 0 && balanced (depth - 1) rest
  | _ :: rest => balanced depth rest

/-- What a draft does at its place. -/
def settle (all : List Draft) (place : Nat) : Draft → Except Fault Action
  | .action a => .ok a
  | .closing | .label _ => .ok .nothing
  | .opening =>
    match blockEnd? (place + 1) 0 (all.drop (place + 1)) with
    | some stop => .ok (.block stop)
    | none => .error ⟨"unmatched `\x7b'".toList, none⟩
  | .jump kind name =>
    let target? := if name.isEmpty then some all.length else all.findIdx? (· = .label name)
    match target? with
    | none => .error ⟨"can't find label for jump to `".toList ++ name ++ ['\''], none⟩
    | some target =>
      .ok (match kind with
        | .always => .jump target
        | .onChange => .jumpIf target
        | .onNoChange => .jumpUnless target)

/-- Reads a script. -/
def readScript (extended : Bool) (cs : List Char) : Except Fault Script := do
  let read ← drafts extended (cs.length + 1) cs
  let all := read.map fun (_, _, d) => d
  if !balanced 0 all then faultAt "unexpected `\x7d'" []
  let commands ← (read.zipIdx).mapM fun ((scope, negated, d), place) => do
    return (⟨scope, negated, ← settle all place d⟩ : Command)
  return ⟨commands, ['#', 'n', '\n'].isPrefixOf cs || cs = ['#', 'n']⟩

end SfcProxy.Tool.Sed
