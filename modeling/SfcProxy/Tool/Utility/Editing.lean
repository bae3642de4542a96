import SfcProxy.Tool.Sed.Reader
import SfcProxy.Tool.Sed.Run

/-!
# Editing and searching

The utilities that edit lines by scripts and that search for lines.

## Main definitions

* `Utility.sed`: edits lines by a script
* `Utility.grep`: passes on the lines that match
-/

namespace SfcProxy.Tool.Utility

open Act

/-! ## `sed` -/

/-- How `sed` is called. -/
def sedUsage : String :=
  "Usage: sed [OPTION]... \x7bscript-only-if-no-other-script\x7d [input-file]...\n"

/-- The options of `sed`. -/
def sedOptions : List Options.Spec :=
  [⟨"n", "quiet", .none⟩, ⟨"n", "silent", .none⟩, ⟨"e", "expression", .required⟩,
    ⟨"f", "file", .required⟩, ⟨"E", "regexp-extended", .none⟩, ⟨"r", "", .none⟩,
    ⟨"i", "in-place", .optional⟩, ⟨"s", "separate", .none⟩, ⟨"u", "unbuffered", .none⟩,
    ⟨"z", "null-data", .none⟩, ⟨"l", "line-length", .required⟩, ⟨"posix", "posix", .none⟩,
    ⟨"debug", "debug", .none⟩, ⟨"sandbox", "sandbox", .none⟩,
    ⟨"follow-symlinks", "follow-symlinks", .none⟩]

/-- Complains about a fault in a script. -/
def sedFault (name : Octets) (script : List Char) (fault : Sed.Fault) : Act Nat := do
  let place (n : Nat) : Octets :=
    "-e expression #1, char ".toList ++ Octets.ofNat n ++ ": ".toList
  let message := Octets.ofBytes (Utf8.encodeChars fault.message)
  match fault.left with
  | some left =>
    grumble name (place (script.length - left) ++ message)
    return 1
  | none =>
    if "unmatched".toList.isPrefixOf fault.message then
      grumble name (place 0 ++ message)
      return 1
    else
      grumble name message
      return 4

/-- The lines of a content as a script sees them. While more may come, a line without a break is
not there yet. -/
def sedLines (separator : Char) (closed : Bool) (content : Octets) : List (Text × Bool) :=
  let pieces := content.split (· == separator)
  let whole := pieces.dropLast.map fun piece => (piece.text, true)
  match pieces.getLast? with
  | none | some [] => whole
  | some piece => if closed then whole ++ [(piece.text, false)] else whole

/-- Empties or makes the files that a script writes. -/
def createTargets : List Octets → Act Unit
  | [] => return ()
  | file :: rest => do
    if file ≠ "/dev/stdout".toList then
      match ← ask (.openFile file .write) with
      | .ok stream => ask (.close stream)
      | .error _ => return ()
    createTargets rest

/-- Adds what a script has written to its files. -/
def writeTargets : List (Octets × Text) → Act Unit
  | [] => return ()
  | (file, text) :: rest => do
    match ← ask (.openFile file .append) with
    | .ok stream =>
      put stream (Octets.ofText text)
      ask (.close stream)
    | .error _ => return ()
    writeTargets rest

/-- The contents of the files that a script reads; those that cannot be read are left out. -/
def readSources : List Octets → Act (List (Octets × Text))
  | [] => return []
  | file :: rest => do
    let more ← readSources rest
    match ← readOperand file with
    | .ok content => return (file, content.text) :: more
    | .error _ => return more

/-- Runs a script on the input as it comes, until it ends; `read` holds the input so far. -/
def sedInput (g : Sed.Setting) (read : Octets) : (budget : Nat) → Act (Sed.Stop × Sed.State)
  | 0 => return Sed.run { g with closed := true } []
  | budget + 1 => do
    let attempt := Sed.run g (sedLines g.separator g.closed read)
    match attempt with
    | (.needsMore, _) => do
      match ← ask (.read input 4096) with
      | .ok (b :: bytes) => sedInput g (read ++ Octets.ofBytes (b :: bytes)) budget
      | _ => return Sed.run { g with closed := true } (sedLines g.separator true read)
    | _ => return attempt

/-- Contents joined into one; a break is added where one lacks it. -/
def joinContents (separator : Char) : List Octets → Octets
  | [] => []
  | [content] => content
  | content :: rest =>
    let gap := if content.getLast?.any (· != separator) then [separator] else []
    content ++ gap ++ joinContents separator rest

/-- The contents of the operands of `sed`. -/
def readEdited (name : Octets) : List Octets → Act (List Octets × Bool)
  | [] => return ([], true)
  | file :: rest => do
    match ← openOperand file with
    | .error cause =>
      grumble name ("can't read ".toList ++ file ++ ": ".toList ++ causeText cause)
      let (more, _) ← readEdited name rest
      return (more, false)
    | .ok stream =>
      match ← readToEnd stream with
      | .ok content =>
        closeOperand stream
        let (more, well) ← readEdited name rest
        return (content :: more, well)
      | .error .isDirectory =>
        grumble name ("couldn't edit ".toList ++ file ++ ": not a regular file".toList)
        let (more, _) ← readEdited name rest
        return (more, false)
      | .error cause =>
        grumble name ("read error on ".toList ++ file ++ ": ".toList ++ causeText cause)
        let (more, _) ← readEdited name rest
        return (more, false)

/-- The end of `sed`: prints and writes what a script has come to. -/
def sedFinish (name : Octets) (well : Bool) (stop : Sed.Stop) (s : Sed.State) : Act Nat := do
  writeTargets s.written
  let status ← emitLast name s.output (if well then 0 else 2)
  match stop with
  | .ended 0 => return status
  | .ended n => return n
  | .needsMore => return status
  | .fault message =>
    grumble name ("-e expression #1, char 0: ".toList ++ message.toList)
    return 1

/-- Edits files in place, one after the other. -/
def sedInPlace (name : Octets) (g : Sed.Setting) (status : Nat) : List Octets → Act Nat
  | [] => return status
  | file :: rest => do
    match ← readOperand file with
    | .error cause =>
      grumble name ("can't read ".toList ++ file ++ ": ".toList ++ causeText cause)
      sedInPlace name g 4 rest
    | .ok content =>
      let (stop, s) := Sed.run g (sedLines g.separator true content)
      match ← ask (.openFile file .write) with
      | .ok stream =>
        put stream s.output
        ask (.close stream)
      | .error _ => return 4
      match stop with
      | .ended 0 => sedInPlace name g status rest
      | .ended n => return n
      | _ => return 1

/-- The scripts that options bring, one below the other. -/
def scriptOptions : List (String × Option Octets) → Act (Except SystemCause (List Octets))
  | [] => return .ok []
  | (key, value) :: rest => do
    match ← scriptOptions rest with
    | .error cause => return .error cause
    | .ok more =>
      if key = "e" then return .ok (value.getD [] :: more)
      else if key = "f" then
        match ← readOperand (value.getD []) with
        | .ok content => return .ok ((if content.endsInLine then content else content.dropLast) :: more)
        | .error cause => return .error cause
      else return .ok more

/-- Edits its input by a script. -/
def sed : Utility := fun name arguments => do
  match Options.read sedOptions false arguments with
  | .error message =>
    grumble name message
    complain sedUsage.toList
    return 1
  | .ok r =>
    match ← scriptOptions r.given with
    | .error cause =>
      fail 1 name ("couldn't open file ".toList ++ (r.value? "f").getD [] ++ ": ".toList ++ causeText cause)
    | .ok given =>
      -- Without a script among the options the first operand is the script.
      let given? := if given.isEmpty then none else some (List.intercalate ['\n'] given)
      match given?, r.operands with
      | none, [] =>
        complain sedUsage.toList
        return 1
      | _, _ =>
        let written : Octets := given?.getD (r.operands.headD [])
        let files := if given?.isSome then r.operands else r.operands.tail
        let script := Utf8.decodeLossy written.bytes
        match Sed.readScript (r.has "E" || r.has "r") script with
        | .error fault => sedFault name script fault
        | .ok parsed =>
          let parsed := { parsed with quiet := parsed.quiet || r.has "n" }
          createTargets parsed.targets
          let g : Sed.Setting :=
            { script := parsed
              closed := true
              separator := if r.has "z" then '\x00' else '\n'
              sources := ← readSources parsed.sources }
          if r.has "i" then
            if files.isEmpty then fail 4 name "no input files".toList
            else sedInPlace name g 0 files
          else if files.isEmpty || files = [['-']] then
            let (stop, s) ← sedInput { g with closed := false } [] budget
            sedFinish name true stop s
          else
            let (contents, well) ← readEdited name files
            let (stop, s) := Sed.run g (sedLines g.separator true (joinContents g.separator contents))
            sedFinish name well stop s

/-! ## `grep` -/

/-- How `grep` matches a line. -/
structure LineTest where
  patterns : List Regex
  mode : Regex.Mode
  wholeLine : Bool
  wholeWord : Bool

/-- A match is a word of its own. -/
def isWord (m : Regex.Match) : Bool :=
  !m.start.before.any Regex.isWordUnit && !m.stop.rest.head?.any Regex.isWordUnit

/-- The first match of any pattern from a cursor on; the longest of those that start first. -/
def LineTest.find (t : LineTest) (c : Regex.Cursor) : (budget : Nat) → Option Regex.Match
  | 0 => none
  | budget + 1 =>
    let here := t.patterns.filterMap (Regex.matchAt t.mode · c)
    let here := if t.wholeLine then here.filter fun m => m.start.before.isNone && m.stop.rest.isEmpty
      else if t.wholeWord then here.filter isWord else here
    match here with
    | m :: more => some (more.foldl (fun a b => if a.text.length < b.text.length then b else a) m)
    | [] => if c.rest.isEmpty then none else t.find c.next budget

/-- A line matches. -/
def LineTest.accepts (t : LineTest) (line : Text) : Bool :=
  if t.wholeLine then
    t.patterns.any fun r => (Regex.ends t.mode r (.front line)).any (·.rest.isEmpty)
      || (Regex.matchAt t.mode r (.front line)).any (·.stop.rest.isEmpty)
  else (t.find (.front line) (line.length + 1)).isSome

/-- All matches in a line from a cursor on that take something. -/
def LineTest.parts (t : LineTest) (c : Regex.Cursor) : (budget : Nat) → List Text
  | 0 => []
  | budget + 1 =>
    match t.find c (c.rest.length + 1) with
    | none => []
    | some m =>
      if m.text.isEmpty then if c.rest.isEmpty then [] else t.parts m.stop.next budget
      else m.text :: t.parts m.stop budget

/-- What `grep` prints of a file: its lines with their numbers that are chosen. -/
def grepLines (t : LineTest) (inverted : Bool) (lines : List Octets) : List (Nat × Octets) :=
  (lines.zipIdx 1).filterMap fun (line, n) =>
    if t.accepts line.text != inverted then some (n, line) else none

/-- The options of `grep`. -/
def grepOptions : List Options.Spec :=
  [⟨"E", "extended-regexp", .none⟩, ⟨"F", "fixed-strings", .none⟩, ⟨"G", "basic-regexp", .none⟩,
    ⟨"e", "regexp", .required⟩, ⟨"f", "file", .required⟩, ⟨"i", "ignore-case", .none⟩,
    ⟨"y", "", .none⟩, ⟨"v", "invert-match", .none⟩, ⟨"w", "word-regexp", .none⟩,
    ⟨"x", "line-regexp", .none⟩, ⟨"c", "count", .none⟩, ⟨"l", "files-with-matches", .none⟩,
    ⟨"L", "files-without-match", .none⟩, ⟨"m", "max-count", .required⟩,
    ⟨"o", "only-matching", .none⟩, ⟨"q", "quiet", .none⟩, ⟨"q", "silent", .none⟩,
    ⟨"s", "no-messages", .none⟩, ⟨"b", "byte-offset", .none⟩, ⟨"H", "with-filename", .none⟩,
    ⟨"h", "no-filename", .none⟩, ⟨"n", "line-number", .none⟩, ⟨"a", "text", .none⟩,
    ⟨"A", "after-context", .required⟩, ⟨"B", "before-context", .required⟩,
    ⟨"C", "context", .required⟩, ⟨"color", "color", .optional⟩, ⟨"color", "colour", .optional⟩]

/-- The regular expression that matches characters as they are. -/
def fixed (cs : List Char) : Regex :=
  cs.foldr (fun c r => if r = .empty then .one (.unit (.scalar c))
    else .seq (.one (.unit (.scalar c))) r) .empty

/-- The lines that surround chosen ones, marked by whether they are chosen. -/
def inContext (before after total : Nat) (chosen : List Nat) : List (Nat × Bool) :=
  (List.range' 1 total).filterMap fun n =>
    if chosen.contains n then some (n, true)
    else if chosen.any fun m => (n < m && m ≤ n + before) || (m < n && n ≤ m + after) then
      some (n, false)
    else none

/-- What `grep` prints of a content. -/
def grepShow (t : LineTest) (r : Options.Reading) (label : Octets) (content : Octets) :
    Octets × Bool :=
  let lines := content.lines
  let chosen := grepLines t (r.has "v") lines
  let chosen := match (r.value? "m").bind Octets.toNat? with
    | some n => chosen.take n
    | none => chosen
  let front (mark : Char) (n : Nat) : Octets :=
    (if label.isEmpty then [] else label ++ [mark])
      ++ (if r.has "n" then Octets.ofNat n ++ [mark] else [])
  let labelLine : Octets := label ++ ['\n']
  let shown : Octets :=
    if r.has "q" then []
    else if r.has "l" then if chosen.isEmpty then [] else labelLine
    else if r.has "L" then if chosen.isEmpty then labelLine else []
    else if r.has "c" then
      (if label.isEmpty then [] else label ++ [':']) ++ Octets.ofNat chosen.length ++ ['\n']
    else if r.has "o" then
      if r.has "v" then []
      else chosen.flatMap fun (n, line) =>
        (t.parts (.front line.text) (line.length + 1)).flatMap fun part =>
          front ':' n ++ Octets.ofText part ++ ['\n']
    else
      let amount (key : String) : Nat :=
        (((r.value? key).bind Octets.toNat?).getD (((r.value? "C").bind Octets.toNat?).getD 0))
      let near := inContext (amount "B") (amount "A") lines.length (chosen.map (·.1))
      -- With lines around the chosen ones, groups that do not touch are set apart.
      let wide := amount "A" + amount "B" > 0
      let (shown, _) := near.foldl (fun (shown, last) (n, isChosen) =>
        let gap := if wide && last ≠ 0 && last + 1 ≠ n then "--\n".toList else []
        (shown ++ gap ++ front (if isChosen then ':' else '-') n
          ++ ((lines.drop (n - 1)).headD []) ++ ['\n'], n)) (([] : Octets), 0)
      shown
  (shown, !chosen.isEmpty)

/-- Searches files one after the other. -/
def grepFiles (name : Octets) (t : LineTest) (r : Options.Reading) (labelled : Bool)
    (said : Octets) (found failed : Bool) : List Octets → Act Nat
  | [] => do
    let status := if failed && !(r.has "q" && found) then 2 else if found then 0 else 1
    emitLast name said status
  | file :: rest => do
    match ← readOperand file with
    | .error cause =>
      if !r.has "s" then grumbleAbout name file cause
      grepFiles name t r labelled said found true rest
    | .ok content =>
      let title := if file = ['-'] then "(standard input)".toList else file
      let label := if labelled || r.has "l" || r.has "L" then title else []
      let (shown, matched) := grepShow t r label content
      let counts := if r.has "L" then !matched else matched
      grepFiles name t r labelled (said ++ shown) (found || counts) failed rest

/-- Passes on the lines that match. -/
def grep : Utility := fun name arguments => do
  let misused (message : Octets) : Act Nat := do
    complain message
    complain ("Usage: ".toList ++ name ++ " [OPTION]... PATTERNS [FILE]...\n".toList ++ hint name)
    return 2
  match Options.read grepOptions false arguments with
  | .error message => misused (name ++ ": ".toList ++ message ++ ['\n'])
  | .ok r =>
    let given := r.values "e"
    if given.isEmpty && r.operands.isEmpty then misused []
    else
      let written := if given.isEmpty then [r.operands.headD []] else given
      let files := if given.isEmpty then r.operands.tail else r.operands
      let patterns := Octets.split (· == '\n') (List.intercalate ['\n'] written)
      let read (s : Octets) : Except Regex.Fault Regex :=
        let cs := Utf8.decodeLossy s.bytes
        if r.has "F" then .ok (fixed cs) else (Regex.read (r.has "E") cs).map (·.1)
      match patterns.mapM read with
      | .error fault => fail 2 name fault.message.toList
      | .ok patterns =>
        let t : LineTest := ⟨patterns, { ignoreCase := r.has "i" || r.has "y" }, r.has "x", r.has "w"⟩
        let labelled := (files.length > 1 || r.has "H") && !r.has "h"
        grepFiles name t r labelled [] false false (orInput files)

end SfcProxy.Tool.Utility
