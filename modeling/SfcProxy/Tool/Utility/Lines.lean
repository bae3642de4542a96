import SfcProxy.Tool.Regex.Reader
import SfcProxy.Tool.Utility.Sorting

/-!
# Utilities on lines

Utilities that count, choose, number or rearrange lines.

## Main definitions

* `Utility.wc`: counts
* `Utility.uniq`: joins neighbours that are equal
* `Utility.cut`: chooses bytes or fields
* `Utility.tac`, `Utility.rev`: reverse the lines or what stands in them
* `Utility.nl`, `Utility.paste`, `Utility.fold`: lay lines out
-/

namespace SfcProxy.Tool.Utility

open Act

/-- Octets behind as many blanks as make them a number of octets wide. -/
def padLeft (width : Nat) (s : Octets) : Octets :=
  List.replicate (width - s.length) ' ' ++ s

/-! ## `wc` -/

/-- The number of words. -/
def wordCount (s : Octets) : Nat :=
  ((s.split isSpace).filter (!·.isEmpty)).length

/-- The number of characters. -/
def charCount (s : Octets) : Nat :=
  (s.text.filter (!·.isSurrogate)).length

/-- The length of the longest line, where a tab reaches to the next multiple of eight. -/
def longestLine (s : Octets) : Nat :=
  (s.lines.map fun line => line.text.foldl (fun n u =>
    if u = .scalar '\t' then n + 8 - n % 8
    else if u.codePoint < 32 || u.isSurrogate then n else n + 1) 0).foldl max 0

/-- The counts that `wc` has, in its order, with the keys of their options. -/
def counts (s : Octets) : List (String × Nat) :=
  [("l", (s.filter (· == '\n')).length), ("w", wordCount s), ("m", charCount s), ("c", s.length),
    ("L", longestLine s)]

/-- One line of counts. -/
def countLine (width : Nat) (keys : List String) (values : List (String × Nat)) (file : Octets) :
    Octets :=
  let chosen := values.filter fun (key, _) => keys.contains key
  let numbers := chosen.map fun (_, n) => padLeft width (Octets.ofNat n)
  List.intercalate [' '] numbers ++ (if file.isEmpty then [] else ' ' :: file) ++ ['\n']

/-- Sums of counts; of the longest lines the longest counts. -/
def totals (all : List (List (String × Nat))) : List (String × Nat) :=
  (counts []).map fun (key, _) =>
    let values := all.map fun c => (c.lookup key).getD 0
    (key, if key = "L" then values.foldl max 0 else values.foldl (· + ·) 0)

/-- The content of an operand of `wc`, what stands behind it, and its complaint. -/
def measure (name file : Octets) : Act (Option (Octets × StreamKind) × Bool) := do
  match ← openOperand file with
  | .error cause =>
    grumbleAbout name file cause
    return (none, false)
  | .ok stream =>
    let kind ← ask (.kind stream)
    let content ← readToEnd stream
    closeOperand stream
    match content with
    | .ok content => return (some (content, kind.getD .pipe), true)
    | .error cause =>
      grumbleAbout name file cause
      return (some ([], .directory), false)

/-- Measures all operands. -/
def measureAll (name : Octets) : List Octets → Act (List (Octets × Octets × StreamKind) × Bool)
  | [] => return ([], true)
  | file :: rest => do
    let (content, well) ← measure name file
    let (more, wells) ← measureAll name rest
    return ((content.map fun c => (file, c)).toList ++ more, well && wells)

/-- The width of the numbers of `wc`: that of the sum of the sizes of all files, but at least
seven where something else is read. -/
def countWidth (kinds : List StreamKind) : Nat :=
  let total := kinds.foldl (fun n k => match k with
    | .file size => n + size
    | _ => n) 0
  let least := if kinds.all fun k => match k with
    | .file _ => true
    | _ => false then 1 else 7
  max least (Octets.ofNat total).length

/-- Counts lines, words, characters and bytes. -/
def wc : Utility :=
  withOptions
    [⟨"c", "bytes", .none⟩, ⟨"m", "chars", .none⟩, ⟨"l", "lines", .none⟩, ⟨"w", "words", .none⟩,
      ⟨"L", "max-line-length", .none⟩] 1 fun name r => do
    let asked := ["l", "w", "m", "c", "L"].filter r.has
    let keys := if asked.isEmpty then ["l", "w", "c"] else asked
    let (contents, well) ← measureAll name (orInput r.operands)
    let single := r.operands.length ≤ 1 && keys.length = 1
    let width := if single then 1 else countWidth (contents.map fun (_, _, kind) => kind)
    let measured := contents.map fun (file, content, _) =>
      (if r.operands.isEmpty then [] else file, counts content)
    let lines := measured.flatMap fun (file, values) => countLine width keys values file
    let total := if r.operands.length > 1 then
      countLine width keys (totals (measured.map (·.2))) "total".toList else []
    emitLast name (lines ++ total) (if well then 0 else 1)

/-! ## `uniq` -/

/-- What `uniq` compares lines by. -/
structure Sameness where
  fields : Nat
  chars : Nat
  width : Option Nat
  ignoreCase : Bool
  deriving DecidableEq

/-- The part of a line that is compared. -/
def Sameness.view (s : Sameness) (line : Octets) : Octets :=
  let rest := (Sorting.dropFields none s.fields line).drop s.chars
  let rest := match s.width with
    | some n => rest.take n
    | none => rest
  if s.ignoreCase then rest.map Char.toUpper else rest

/-- Runs of neighbours that are the same. -/
def runs (s : Sameness) : List Octets → List (List Octets)
  | [] => []
  | line :: rest =>
    match runs s rest with
    | [] => [[line]]
    | run :: more =>
      if run.head?.any fun other => s.view line = s.view other then (line :: run) :: more
      else [line] :: run :: more

/-- Writes the result of a utility to a file, or to the output. -/
def deliverTo (name : Octets) (target : Option Octets) (result : Octets) (status : Nat) :
    Act Nat := do
  match target with
  | none => emitLast name result status
  | some ['-'] => emitLast name result status
  | some file =>
    match ← ask (.openFile file .write) with
    | .error cause =>
      grumbleAbout name file cause
      return 1
    | .ok stream =>
      put stream result
      return status

/-- Joins neighbouring lines that are the same. -/
def uniq : Utility :=
  withOptions
    [⟨"c", "count", .none⟩, ⟨"d", "repeated", .none⟩, ⟨"u", "unique", .none⟩,
      ⟨"i", "ignore-case", .none⟩, ⟨"f", "skip-fields", .required⟩, ⟨"s", "skip-chars", .required⟩,
      ⟨"w", "check-chars", .required⟩, ⟨"D", "all-repeated", .optional⟩,
      ⟨"z", "zero-terminated", .none⟩] 1 fun name r =>
    let number (key : String) (what : String) : Except Octets (Option Nat) :=
      match r.value? key with
      | none => .ok none
      | some s =>
        match count? s with
        | some n => .ok (some n)
        | none => .error (s ++ ": invalid number of ".toList ++ what.toList)
    let sameness : Except Octets Sameness := do
      let fields ← number "f" "fields to skip"
      let chars ← number "s" "bytes to skip"
      let width ← number "w" "bytes to compare"
      return ⟨fields.getD 0, chars.getD 0, width, r.has "i"⟩
    match sameness, r.operands with
    | .error message, _ => fail 1 name message
    | _, _ :: _ :: extra :: _ => misuse 1 name ("extra operand ".toList ++ quoted extra)
    | .ok s, operands => do
      let source := operands.headD ['-']
      match ← readOperand source with
      | .error cause =>
        grumbleAbout name source cause
        return 1
      | .ok content =>
        let lineEnd := if r.has "z" then '\x00' else '\n'
        let pieces := content.split (· == lineEnd)
        -- Behind the last line end stands no line.
        let lines := if pieces.getLast? = some [] then pieces.dropLast else pieces
        let kept := (runs s lines).filter fun run =>
          (!(r.has "d" || r.has "D") || run.length > 1) && (!r.has "u" || run.length = 1)
        let shown := kept.flatMap fun run =>
          let lines := if r.has "D" then run else run.take 1
          lines.flatMap fun line =>
            (if r.has "c" then padLeft 7 (Octets.ofNat run.length) ++ [' '] else [])
              ++ line ++ [lineEnd]
        deliverTo name operands.tail.head? shown 0

/-! ## `cut` -/

/-- A range of positions, which may be open at its end. -/
abbrev PositionRange := Nat × Option Nat

/-- Some range holds a position. -/
def inRanges (ranges : List PositionRange) (n : Nat) : Bool :=
  ranges.any fun (low, high) => low ≤ n && high.all (n ≤ ·)

/-- Reads one range of a list. -/
def range? (fields : Bool) (s : Octets) : Except Octets PositionRange :=
  let what := if fields then "field" else "byte/character"
  let invalid := if fields then "invalid field value " else "invalid byte/character position "
  let numbered := if fields then "fields are numbered from 1"
    else "byte/character positions are numbered from 1"
  let number (t : Octets) : Except Octets Nat :=
    match t.toNat? with
    | some 0 => .error numbered.toList
    | some n => .ok n
    | none => .error (invalid.toList ++ quoted t)
  match s.split (· == '-') with
  | [one] => do
    if one.isEmpty then .error numbered.toList
    let n ← number one
    return (n, some n)
  | [[], []] => .error "invalid range with no endpoint: -".toList
  | [[], high] => do
    return (1, some (← number high))
  | [low, []] => do
    return (← number low, none)
  | [low, high] => do
    let low ← number low
    let high ← number high
    if high < low then .error "invalid decreasing range".toList
    return (low, some high)
  | _ => .error ("invalid ".toList ++ what.toList ++ " range".toList)

/-- Reads a list of ranges. -/
def ranges? (fields : Bool) (s : Octets) : Except Octets (List PositionRange) :=
  (s.split fun c => c == ',' || c == ' ' || c == '\t').mapM (range? fields)

/-- Members whose positions, from 1 on, satisfy a test. -/
def choose {α : Type} (test : Nat → Bool) (members : List α) : List α :=
  (members.zipIdx 1).filterMap fun (a, n) => if test n then some a else none

/-- The runs of bytes of a line whose positions satisfy a test, `between` standing between runs
that are apart. -/
def chooseRuns (test : Nat → Bool) (between : Octets) (line : Octets) : Octets :=
  let (chosen, _) := (line.zipIdx 1).foldl (fun (chosen, last) (c, n) =>
    if !test n then (chosen, last)
    else
      let gap := if last ≠ 0 && last + 1 ≠ n then between.reverse else []
      (c :: (gap ++ chosen), n)) (([] : Octets), 0)
  chosen.reverse

/-- What `cut` does to a line; nothing if the line is left out. -/
def cutLine (fields : Bool) (test : Nat → Bool) (delimiter : Char) (between : Octets)
    (onlyDelimited : Bool) (line : Octets) : Option Octets :=
  if !fields then some (chooseRuns test between line)
  else
    let parts := line.split (· == delimiter)
    if parts.length = 1 then if onlyDelimited then none else some line
    else some (List.intercalate between (choose test parts))

/-- Chooses bytes or fields of lines. -/
def cut : Utility :=
  withOptions
    [⟨"b", "bytes", .required⟩, ⟨"c", "characters", .required⟩, ⟨"f", "fields", .required⟩,
      ⟨"d", "delimiter", .required⟩, ⟨"n", "", .none⟩, ⟨"s", "only-delimited", .none⟩,
      ⟨"output-delimiter", "output-delimiter", .required⟩, ⟨"complement", "complement", .none⟩,
      ⟨"z", "zero-terminated", .none⟩] 1 fun name r =>
    let lists := r.given.filter fun (key, _) => key = "b" || key = "c" || key = "f"
    let fields := r.has "f"
    let delimiter := (r.value? "d").getD ['\t']
    match lists with
    | [] => misuse 1 name "you must specify a list of bytes, characters, or fields".toList
    | _ :: _ :: _ => misuse 1 name "only one list may be specified".toList
    | [(_, list)] =>
      if delimiter.length > 1 then
        misuse 1 name "the delimiter must be a single character".toList
      else if !fields && r.has "d" then
        misuse 1 name
          "an input delimiter may be specified only when operating on fields".toList
      else if !fields && r.has "s" then
        misuse 1 name ("suppressing non-delimited lines makes sense\n" ++
          "\tonly when operating on fields").toList
      else
        match ranges? fields (list.getD []) with
        | .error message => misuse 1 name message
        | .ok ranges =>
          let test (n : Nat) : Bool := inRanges ranges n != r.has "complement"
          let separator := delimiter.headD '\x00'
          let between := (r.value? "output-delimiter").getD (if fields then [separator] else [])
          filterEach name r.operands fun content =>
            Octets.unlines (content.lines.filterMap
              (cutLine fields test separator between (r.has "s")))

/-! ## Reversing -/

/-- Octets cut behind each separator, or before it; `piece` holds the current one, last first. -/
def cutAround (separator : Octets) (before : Bool) (piece : Octets) : (budget : Nat) → Octets →
    List Octets
  | 0, _ => [piece.reverse]
  | _, [] => if piece.isEmpty then [] else [piece.reverse]
  | budget + 1, c :: rest =>
    if separator.isPrefixOf (c :: rest) then
      let behind := (c :: rest).drop separator.length
      if before then
        let pieces := cutAround separator before separator.reverse budget behind
        if piece.isEmpty then pieces else piece.reverse :: pieces
      else (piece.reverse ++ separator) :: cutAround separator before [] budget behind
    else cutAround separator before (c :: piece) budget rest

/-- Passes files on, each with its pieces in reverse order. -/
def reversePieces (name : Octets) (pieces : Octets → List Octets) (said : Octets)
    (status : Nat) : List Octets → Act Nat
  | [] => emitLast name said status
  | file :: rest => do
    match ← readOperand file with
    | .error cause =>
      grumble name ("failed to open ".toList ++ '\'' :: file ++ "' for reading: ".toList
        ++ causeText cause)
      reversePieces name pieces said 1 rest
    | .ok content =>
      reversePieces name pieces (said ++ (pieces content).reverse.flatten) status rest

/-- Passes its files on with their lines in reverse order. -/
def tac : Utility :=
  withOptions [⟨"b", "before", .none⟩, ⟨"r", "regex", .none⟩, ⟨"s", "separator", .required⟩] 1
    fun name r =>
    let separator := match r.value? "s" with
      | none => ['\n']
      | some [] => ['\x00']
      | some s => s
    reversePieces name (fun content => cutAround separator (r.has "b") [] content.length content)
      [] 0 (orInput r.operands)

/-- A line with its characters in reverse order. -/
def reverseLine (line : Octets) : Octets :=
  Octets.ofText line.text.reverse

/-- Passes its files on with each line reversed. -/
def rev : Utility :=
  withOptions [⟨"0", "zero", .none⟩] 1 fun name r =>
    filterEach name r.operands fun content =>
      let reversed := content.lines.map reverseLine
      let all := Octets.unlines reversed
      if content.endsInLine then all.dropLast else all

/-! ## Layout -/

/-- A number as `nl` writes it. -/
def layoutNumber (format : Octets) (width : Nat) (n : Int) : Octets :=
  let digits := Octets.ofInt n
  match String.ofList format with
  | "ln" => digits ++ List.replicate (width - digits.length) ' '
  | "rz" =>
    let sign := if n < 0 then ['-'] else []
    let body := Octets.ofNat n.natAbs
    sign ++ List.replicate (width - sign.length - body.length) '0' ++ body
  | _ => padLeft width digits

/-- Numbers lines. -/
def nl : Utility :=
  withOptions
    [⟨"b", "body-numbering", .required⟩, ⟨"n", "number-format", .required⟩,
      ⟨"s", "number-separator", .required⟩, ⟨"v", "starting-line-number", .required⟩,
      ⟨"i", "line-increment", .required⟩, ⟨"w", "number-width", .required⟩,
      ⟨"p", "no-renumber", .none⟩] 1 fun name r =>
    let style := (r.value? "b").getD ['t']
    let numbered (line : Octets) : Bool := match style with
      | ['a'] => true
      | ['t'] => !line.isEmpty
      | 'p' :: pattern =>
        match Regex.read false (Utf8.decodeLossy (Octets.bytes pattern)) with
        | .ok (regex, _) => (Regex.search {} regex line.text).isSome
        | .error _ => false
      | _ => false
    let separator := (r.value? "s").getD ['\t']
    let width := ((r.value? "w").bind Octets.toNat?).getD 6
    let start : Int := ((r.value? "v").bind Octets.toNat?).getD 1
    let increment : Int := ((r.value? "i").bind Octets.toNat?).getD 1
    let format := (r.value? "n").getD "rn".toList
    filter name r.operands fun content =>
      ((content.lines.foldl (fun (shown, n) line =>
        if numbered line then
          ((layoutNumber format width n ++ separator ++ line) :: shown, n + increment)
        else ((List.replicate (width + separator.length) ' ' ++ line) :: shown, n))
        (([] : List Octets), start)).1).reverse.flatMap (· ++ ['\n'])

/-- The delimiters that a list for `paste` stands for. -/
def pasteDelimiters : Octets → List Octets
  | '\\' :: c :: rest =>
    (match c with
      | 'n' => ['\n']
      | 't' => ['\t']
      | '\\' => ['\\']
      | '0' => []
      | c => [c]) :: pasteDelimiters rest
  | c :: rest => [c] :: pasteDelimiters rest
  | [] => []

/-- Pieces joined by delimiters that are used in turn. -/
def joinInTurn (delimiters : List Octets) (turn : Nat) : List Octets → Octets
  | [] => []
  | [piece] => piece
  | piece :: rest =>
    let delimiter := (delimiters.drop (turn % delimiters.length)).headD []
    piece ++ delimiter ++ joinInTurn delimiters (turn + 1) rest

/-- Rows of columns of lines, as many as the longest column has. -/
def rows (columns : List (List Octets)) : List (List Octets) :=
  (List.range ((columns.map List.length).foldl max 0)).map fun i =>
    columns.map fun column => (column.drop i).headD []

/-- The members of a list at every position that leaves a rest. -/
def everyNth (count rest : Nat) (lines : List Octets) : List Octets :=
  (lines.zipIdx).filterMap fun (line, i) => if i % count = rest then some line else none

/-- The columns of files; those that stand for the input share its lines. -/
def columnsOf (contents : List (Octets × Octets)) : List (List Octets) :=
  let isInput (file : Octets × Octets) : Bool := file.1 = ['-']
  let shared := Octets.lines ((contents.filter isInput).flatMap (·.2))
  let count := (contents.filter isInput).length
  contents.zipIdx.map fun (file, i) =>
    if isInput file then everyNth count ((contents.take i).filter isInput).length shared
    else file.2.lines

/-- Joins lines of its files. -/
def paste : Utility :=
  withOptions
    [⟨"d", "delimiters", .required⟩, ⟨"s", "serial", .none⟩, ⟨"z", "zero-terminated", .none⟩] 1
    fun name r => do
    let delimiters := pasteDelimiters ((r.value? "d").getD ['\t'])
    let delimiters := if delimiters.isEmpty then [[]] else delimiters
    let (contents, well) ← readOperands name (orInput r.operands)
    let table := if r.has "s" then contents.map fun (_, content) => content.lines
      else rows (columnsOf contents)
    let joined := table.map (joinInTurn delimiters 0)
    emitLast name (Octets.unlines joined) (if well then 0 else 1)

/-- A line broken into pieces of a width; `piece` holds the current one, last first. With
`atBlanks` a piece ends behind its last blank. -/
def foldLine (width : Nat) (atBlanks : Bool) (piece : Octets) : Octets → List Octets
  | [] => [piece.reverse]
  | c :: rest =>
    if piece.length < width then foldLine width atBlanks (c :: piece) rest
    else
      let tail := if atBlanks then piece.takeWhile (· != ' ') else []
      if atBlanks && tail.length < piece.length then
        (piece.drop tail.length).reverse :: foldLine width atBlanks (c :: tail) rest
      else piece.reverse :: foldLine width atBlanks [c] rest

/-- Breaks lines that are too long. -/
def fold : Utility :=
  withOptions
    [⟨"b", "bytes", .none⟩, ⟨"s", "spaces", .none⟩, ⟨"w", "width", .required⟩] 1 fun name r =>
    let written := (r.value? "w").getD "80".toList
    match Octets.toNat? written with
    | none | some 0 => fail 1 name ("invalid number of columns: ".toList ++ quoted written)
    | some width =>
      filterEach name r.operands fun content =>
        let folded := Octets.unlines (content.lines.flatMap (foldLine width (r.has "s") []))
        if content.endsInLine then folded.dropLast else folded

end SfcProxy.Tool.Utility
