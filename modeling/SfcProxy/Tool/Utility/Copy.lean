import SfcProxy.Tool.Utility.Basic

/-!
# Copying utilities

Utilities that pass on all or part of their input as it comes.

## Main definitions

* `Utility.cat`: passes on its files
* `Utility.tee`: passes its input on to several places
* `Utility.head`, `Utility.tail`: pass on the beginning or the end
-/

namespace SfcProxy.Tool.Utility

open Act

/-! ## Numbered lines -/

/-- How `cat` shows its input. -/
structure View where
  numberAll : Bool
  numberFilled : Bool
  squeeze : Bool
  ends : Bool
  tabs : Bool
  nonprinting : Bool
  deriving DecidableEq

/-- Where `cat` stands: the number of the last numbered line, the number of empty lines directly
before, and whether a line begins. -/
structure ViewState where
  line : Nat
  blanks : Nat
  fresh : Bool
  deriving DecidableEq

/-- A byte in a form that can be printed. -/
def visible (c : Char) : Octets :=
  let n := c.toNat
  let caret (n : Nat) : Octets := if n = 127 then "^?".toList else ['^', Char.ofNat (n + 64)]
  if c = '\n' || c = '\t' then [c]
  else if n < 32 || n = 127 then caret n
  else if n < 128 then [c]
  else
    let low := n - 128
    'M' :: '-' :: if low < 32 || low = 127 then caret low else [Char.ofNat low]

/-- The number of a line as `cat` writes it. -/
def lineNumber (n : Nat) : Octets :=
  let digits := Octets.ofNat n
  List.replicate (6 - digits.length) ' ' ++ digits ++ ['\t']

/-- A character as a view shows it, at most one line number in front of it. -/
def View.showChar (v : View) (s : ViewState) (c : Char) : Octets × ViewState :=
  if c = '\n' then
    if s.fresh && v.squeeze && s.blanks ≥ 1 then ([], s)
    else
      let numbered := s.fresh && v.numberAll && !v.numberFilled
      let number := if numbered then lineNumber (s.line + 1) else []
      let mark := if v.ends then ['$'] else []
      (number ++ mark ++ ['\n'],
        ⟨if numbered then s.line + 1 else s.line, if s.fresh then s.blanks + 1 else 0, true⟩)
  else
    let numbered := s.fresh && (v.numberAll || v.numberFilled)
    let number := if numbered then lineNumber (s.line + 1) else []
    let shown :=
      if c = '\t' then if v.tabs then "^I".toList else [c]
      else if v.nonprinting then visible c
      else [c]
    (number ++ shown, ⟨if numbered then s.line + 1 else s.line, 0, false⟩)

/-- Characters as a view shows them. -/
def View.show (v : View) (s : ViewState) (cs : Octets) : Octets × ViewState :=
  let (shown, s) := cs.foldl (fun (shown, s) c =>
    let (piece, s) := v.showChar s c
    (piece.reverse ++ shown, s)) (([] : Octets), s)
  (shown.reverse, s)

/-- The view without any changes. -/
def View.isPlain (v : View) : Bool :=
  !(v.numberAll || v.numberFilled || v.squeeze || v.ends || v.tabs || v.nonprinting)

/-! ## `cat` -/

/-- Passes a stream on piece by piece; the state of the view comes back, or why reading failed. -/
def copyStream (name : Octets) (v : View) (stream : Nat) (s : ViewState) :
    (budget : Nat) → Act (Except SystemCause ViewState)
  | 0 => return .ok s
  | budget + 1 => do
    match ← ask (.read stream pieceSize) with
    | .error cause => return .error cause
    | .ok [] => return .ok s
    | .ok bytes =>
      let (shown, s) := if v.isPlain then (Octets.ofBytes bytes, s)
        else v.show s (Octets.ofBytes bytes)
      if ← emit name shown then copyStream name v stream s budget else exit 1

/-- Passes files on one after the other. -/
def copyOperands (name : Octets) (v : View) (s : ViewState) (status : Nat) :
    List Octets → Act Nat
  | [] => return status
  | file :: rest => do
    match ← openOperand file with
    | .error cause =>
      grumbleAbout name file cause
      copyOperands name v s 1 rest
    | .ok stream =>
      let outcome ← copyStream name v stream s budget
      closeOperand stream
      match outcome with
      | .ok s => copyOperands name v s status rest
      | .error cause =>
        grumbleAbout name file cause
        copyOperands name v s 1 rest

/-- Passes its files on to the output. -/
def cat : Utility :=
  withOptions
    [⟨"A", "show-all", .none⟩, ⟨"b", "number-nonblank", .none⟩, ⟨"e", "", .none⟩,
      ⟨"E", "show-ends", .none⟩, ⟨"n", "number", .none⟩, ⟨"s", "squeeze-blank", .none⟩,
      ⟨"t", "", .none⟩, ⟨"T", "show-tabs", .none⟩, ⟨"u", "", .none⟩,
      ⟨"v", "show-nonprinting", .none⟩] 1 fun name r => do
    if (← ask (.kind output)).isNone then
      fail 1 name ("standard output: ".toList ++ causeText .badDescriptor)
    else
      let v : View :=
        { numberAll := r.has "n"
          numberFilled := r.has "b"
          squeeze := r.has "s"
          ends := r.has "E" || r.has "A" || r.has "e"
          tabs := r.has "T" || r.has "A" || r.has "t"
          nonprinting := r.has "v" || r.has "A" || r.has "e" || r.has "t" }
      copyOperands name v ⟨0, 0, true⟩ 0 (orInput r.operands)

/-! ## `tee` -/

/-- Opens the files of `tee`; whether all could be opened is told too. -/
def openTargets (name : Octets) (mode : OpenMode) : List Octets → Act (List Nat × Bool)
  | [] => return ([], true)
  | file :: rest => do
    match ← ask (.openFile file mode) with
    | .ok stream =>
      let (more, well) ← openTargets name mode rest
      return (stream :: more, well)
    | .error cause =>
      grumbleAbout name file cause
      let (more, _) ← openTargets name mode rest
      return (more, false)

/-- Writes octets to several streams. -/
def putAll (s : Octets) : List Nat → Act Unit
  | [] => return ()
  | stream :: rest => do
    put stream s
    putAll s rest

/-- Passes the input on to several streams. -/
def spread (streams : List Nat) : (budget : Nat) → Act Unit
  | 0 => return ()
  | budget + 1 => do
    match ← ask (.read input pieceSize) with
    | .ok (b :: bytes) =>
      putAll (Octets.ofBytes (b :: bytes)) streams
      spread streams budget
    | _ => return ()

/-- Passes its input on to the output and to files. -/
def tee : Utility :=
  withOptions
    [⟨"a", "append", .none⟩, ⟨"i", "ignore-interrupts", .none⟩, ⟨"p", "", .none⟩,
      ⟨"output-error", "output-error", .optional⟩] 1 fun name r => do
    let mode := if r.has "a" then .append else .write
    let (streams, well) ← openTargets name mode r.operands
    spread (output :: streams) budget
    return if well then 0 else 1

/-! ## `head` and `tail` -/

/-- What part of a file is passed on, counted in lines or in bytes. -/
structure Portion where
  inBytes : Bool
  /-- The count is taken from the other end. -/
  fromOther : Bool
  count : Nat
  /-- What ends a line. -/
  lineEnd : Char
  deriving DecidableEq

/-- A file between single quotes. -/
def named (file : Octets) : Octets :=
  '\'' :: file ++ ['\'']

/-- The lines at the front of octets with their breaks, at most `count`, and how many there
were. -/
def frontLines (lineEnd : Char) : (count : Nat) → Octets → Octets × Nat
  | 0, _ => ([], 0)
  | _ + 1, [] => ([], 0)
  | count + 1, s =>
    let line := s.takeWhile (· != lineEnd)
    if line.length = s.length then (line, 0)
    else
      let (more, n) := frontLines lineEnd count (s.drop (line.length + 1))
      (line ++ lineEnd :: more, n + 1)

/-- Octets cut behind each line. -/
def brokenLines (lineEnd : Char) (s : Octets) : List Octets :=
  match (s.split (· == lineEnd)).reverse with
  | [] => []
  | last :: before =>
    let whole := before.reverse.map (· ++ [lineEnd])
    if last.isEmpty then whole else whole ++ [last]

/-- The part of a whole content. -/
def Portion.front (p : Portion) (s : Octets) : Octets :=
  match p.inBytes, p.fromOther with
  | true, false => s.take p.count
  | true, true => s.take (s.length - p.count)
  | false, false => (frontLines p.lineEnd p.count s).1
  | false, true =>
    let lines := brokenLines p.lineEnd s
    (lines.take (lines.length - p.count)).flatten

/-- The part of a whole content at its end. -/
def Portion.back (p : Portion) (s : Octets) : Octets :=
  match p.inBytes, p.fromOther with
  | true, false => s.drop (s.length - p.count)
  | true, true => s.drop (p.count - 1)
  | false, false =>
    let lines := brokenLines p.lineEnd s
    (lines.drop (lines.length - p.count)).flatten
  | false, true => ((brokenLines p.lineEnd s).drop (p.count - 1)).flatten

/-- The front is complete. -/
def Portion.isComplete (p : Portion) (read : Octets) : Bool :=
  !p.fromOther &&
    if p.inBytes then p.count ≤ read.length
    else p.count ≤ (frontLines p.lineEnd p.count read).2

/-- Reads a stream until its front is complete. -/
def readFront (p : Portion) (stream : Nat) (read : Octets) :
    (budget : Nat) → Act (Except SystemCause Octets)
  | 0 => return .ok read
  | budget + 1 => do
    if p.isComplete read then return .ok (p.front read)
    -- Nothing beyond the front is taken from a file or where bytes are counted.
    let most := match ← ask (.kind stream) with
      | some (.file _) => 1
      | _ => if p.inBytes && !p.fromOther then min 8192 (p.count - read.length) else 8192
    match ← ask (.read stream most) with
    | .error cause => return .error cause
    | .ok [] => return .ok (p.front read)
    | .ok bytes => readFront p stream (read ++ Octets.ofBytes bytes) budget

/-- The title of a file among several. -/
def title (isFirst : Bool) (file : Octets) : Octets :=
  (if isFirst then [] else ['\n']) ++ "==> ".toList
    ++ (if file = ['-'] then "standard input".toList else file) ++ " <==\n".toList

/-- Passes on a part of each file. -/
def portions (name : Octets) (take : Nat → Act (Except SystemCause Octets)) (titled : Bool)
    (isFirst : Bool) (said : Octets) (status : Nat) : List Octets → Act Nat
  | [] => emitLast name said status
  | file :: rest => do
    match ← openOperand file with
    | .error cause =>
      grumble name
        ("cannot open ".toList ++ named file ++ " for reading: ".toList ++ causeText cause)
      portions name take titled isFirst said 1 rest
    | .ok stream =>
      let part ← take stream
      closeOperand stream
      let heading := if titled then title isFirst file else []
      match part with
      | .ok part => portions name take titled false (said ++ heading ++ part) status rest
      | .error cause =>
        grumble name ("error reading ".toList ++ named file ++ ": ".toList ++ causeText cause)
        portions name take titled false (said ++ heading) 1 rest

/-- The options that `head` and `tail` share. -/
def portionOptions : List Options.Spec :=
  [⟨"c", "bytes", .required⟩, ⟨"n", "lines", .required⟩, ⟨"q", "quiet", .none⟩,
    ⟨"q", "silent", .none⟩, ⟨"v", "verbose", .none⟩, ⟨"z", "zero-terminated", .none⟩]

/-- The part that the last of the counting options asks for. -/
def portion (other : Char) (r : Options.Reading) : Except Octets Portion :=
  let lineEnd := if r.has "z" then '\x00' else '\n'
  match r.given.reverse.find? fun (key, _) => key = "c" || key = "n" with
  | none => .ok ⟨false, false, 10, lineEnd⟩
  | some (key, value) =>
    let written := value.getD []
    let fromOther := written.head? = some other
    let signed := written.head?.any fun c => c == '-' || c == '+'
    let digits := if signed then written.drop 1 else written
    match count? digits with
    | some n => .ok ⟨key = "c", fromOther, n, lineEnd⟩
    | none =>
      let what := if key = "c" then "bytes" else "lines"
      .error ("invalid number of ".toList ++ what.toList ++ ": ".toList
        ++ quoted (if other = '-' && fromOther then digits else written))

/-- The letters behind a count that stands directly behind a sign, written as options; `digits`
are those of the count with its sign. -/
def spellLetters (digits letters : Octets) : List Octets :=
  let unit := letters.reverse.find? "bkmc".toList.contains
  let count := match unit with
    | some 'c' => "-c".toList ++ digits
    | some c => "-c".toList ++ digits ++ [c]
    | none => "-n".toList ++ digits
  count :: (letters.filter "qvz".toList.contains).map fun c => ['-', c]

/-- Arguments in which a count that stands directly behind a sign is written as an option. A plus
sign counts from the other end, where this is possible. -/
def spellCount (allowPlus : Bool) : List Octets → List Octets
  | (sign :: c :: rest) :: more =>
    let digits := (c :: rest).takeWhile Char.isDigit
    let letters := (c :: rest).drop digits.length
    let signed := sign = '-' || (allowPlus && sign = '+' && more.length ≤ 1)
    if signed && !digits.isEmpty && letters.all "bkmclqvz".toList.contains then
      spellLetters (if sign = '+' then sign :: digits else digits) letters ++ more
    else (sign :: c :: rest) :: more
  | arguments => arguments

/-- Passes on parts of its files. -/
def portionUtility (other : Char) (take : Portion → Nat → Act (Except SystemCause Octets)) :
    Utility := fun name arguments =>
  withOptions portionOptions 1 (fun name r =>
    match portion other r with
    | .error message => fail 1 name message
    | .ok p =>
      let files := orInput r.operands
      let titled := r.has "v" || (files.length > 1 && !r.has "q")
      portions name (take p) titled true [] 0 files) name (spellCount (other = '+') arguments)

/-- Passes on the beginning of its files. -/
def head : Utility :=
  portionUtility '-' fun p stream => readFront p stream [] budget

/-- Passes on the end of its files. -/
def tail : Utility :=
  portionUtility '+' fun p stream => do
    return (← readToEnd stream).map p.back

end SfcProxy.Tool.Utility
