import SfcProxy.Tool.Regex.Reader
import SfcProxy.Tool.Utility.Copy
import SfcProxy.Tool.Utility.Sorting
import SfcProxy.Tool.Utility.Testing

/-!
# Everyday utilities

Utilities that print, test, wait, count, take names apart, and move files around.

## Main definitions

* `Utility.echo`, `Utility.printf`: print their arguments
* `Utility.test`, `Utility.bracket`: test their arguments
* `Utility.sleep`: waits
* `Utility.seq`, `Utility.expr`: compute
* `Utility.basename`, `Utility.dirname`: take names apart
* `Utility.mkdir`, `Utility.rm`, `Utility.touch`: change files
-/

namespace SfcProxy.Tool.Utility

open Act

/-- A utility that only has a status. -/
def constant (status : Nat) : Utility := fun _ _ => return status

/-! ## Printing -/

/-- The options in front of what `echo` prints: whether the line is ended and whether escapes are
carried out. -/
def echoOptions (line escapes : Bool) : List Octets → Bool × Bool × List Octets
  | ('-' :: c :: letters) :: rest =>
    if (c :: letters).all "neE".toList.contains then
      let escapes := (c :: letters).foldl (fun e l =>
        if l = 'e' then true else if l = 'E' then false else e) escapes
      echoOptions (line && !(c :: letters).contains 'n') escapes rest
    else (line, escapes, ('-' :: c :: letters) :: rest)
  | rest => (line, escapes, rest)

/-- Prints its arguments in one line. -/
def echo : Utility := fun name arguments =>
  let (line, escapes, words) := echoOptions true false arguments
  let joined := List.intercalate [' '] words
  let (text, stopped) := if escapes then Printing.unescape true joined else (joined, false)
  emitLast name (if line && !stopped then text ++ ['\n'] else text) 0

/-- How `printf` words its complaints. -/
def printfDialect : Printing.Dialect where
  knowsMore := true
  fractionDigits := 64
  wording
    | .notNumeric argument => quoted argument ++ ": expected a numeric value".toList
    | .notConverted argument => quoted argument ++ ": value not completely converted".toList
    | .outOfRange argument => quoted argument ++ ": Numerical result out of range".toList
    | .badDirective directive => directive ++ ": invalid conversion specification".toList
    | .missingFormat => "%: invalid conversion specification".toList
    | .excess argument =>
      "warning: ignoring excess arguments, starting with ".toList ++ quoted argument

/-- Complains about several things. -/
def grumbleAll (name : Octets) : List Octets → Act Unit
  | [] => return ()
  | message :: rest => do
    grumble name message
    grumbleAll name rest

/-- Prints a format with its arguments. -/
def printf : Utility := fun name arguments => do
  match if arguments.head? = some "--".toList then arguments.tail else arguments with
  | [] => misuse 1 name "missing operand".toList
  | format :: rest => do
    let printed := Printing.print printfDialect format rest
    let harmless (c : Printing.Complaint) : Bool := match c with
      | .excess _ => true
      | _ => false
    let well ← emit name printed.text
    grumbleAll name (printed.complaints.map printfDialect.wording)
    return if well && printed.complaints.all harmless then 0 else 1

/-- Prints a line again and again. -/
def yesFrom (block : Octets) : (budget : Nat) → Act Nat
  | 0 => return 0
  | budget + 1 => do
    match ← ask (.write output block.bytes) with
    | .ok () => yesFrom block budget
    | .error _ => return 1

/-- Prints a line for ever. -/
def yes : Utility :=
  withOptions [] 1 fun _ r =>
    let line := (if r.operands.isEmpty then ['y'] else List.intercalate [' '] r.operands) ++ ['\n']
    yesFrom (List.replicate (8192 / line.length + 1) line).flatten budget

/-! ## Testing and waiting -/

/-- The wording of a fault of an expression. -/
def testFault : Testing.Fault → Octets
  | .illegalNumber word => "invalid integer ".toList ++ quoted word
  | .unexpected word => "extra argument ".toList ++ quoted word
  | .argumentExpected operator => "missing argument after ".toList ++ quoted operator
  | .unclosed => "')' expected".toList

/-- Tests its arguments. -/
def test : Utility := fun name arguments => do
  match Testing.evaluate (← ask .files) arguments with
  | .ok holds => return if holds then 0 else 1
  | .error fault => fail 2 name (testFault fault)

/-- Tests its arguments up to a closing bracket. -/
def bracket : Utility := fun name arguments =>
  if arguments.getLast? = some [']'] then test name arguments.dropLast
  else fail 2 name ("missing ".toList ++ quoted [']'])

/-- The microseconds that an interval lasts, with a suffix for its unit. -/
def interval? (s : Octets) : Option Nat :=
  let whole := s.takeWhile Char.isDigit
  let rest := s.drop whole.length
  let fraction := if rest.head? = some '.' then (rest.drop 1).takeWhile Char.isDigit else []
  let rest := if rest.head? = some '.' then rest.drop (fraction.length + 1) else rest
  let unit? : Option Nat := match rest with
    | [] | ['s'] => some 1
    | ['m'] => some 60
    | ['h'] => some 3600
    | ['d'] => some 86400
    | _ => none
  if whole.isEmpty && fraction.isEmpty then none
  else
    unit?.map fun unit =>
      let micros := (fraction ++ List.replicate 6 '0').take 6
      (Octets.digitsValue 10 whole * 1000000 + Octets.digitsValue 10 micros) * unit

/-- Waits for some time. -/
def sleep : Utility :=
  withOptions [] 1 fun name r => do
    if r.operands.isEmpty then misuse 1 name "missing operand".toList
    else
      match r.operands.find? fun s => (interval? s).isNone with
      | some bad => misuse 1 name ("invalid time interval ".toList ++ quoted bad)
      | none => do
        ask (.sleep ((r.operands.filterMap interval?).foldl (· + ·) 0))
        return 0

/-! ## Computing -/

/-- A decimal number as an integer with a number of places. -/
def decimal? (s : Octets) : Option (Int × Nat) :=
  let body := if s.head?.any fun c => c == '-' || c == '+' then s.drop 1 else s
  let whole := body.takeWhile Char.isDigit
  let rest := body.drop whole.length
  let fraction := rest.drop 1
  if whole.isEmpty && fraction.isEmpty || rest.head?.any (· != '.') || fraction.any (!·.isDigit)
  then none
  else
    let n : Int := Octets.digitsValue 10 (whole ++ fraction)
    some (if s.head? = some '-' then -n else n, fraction.length)

/-- A decimal number with a number of places. -/
def showDecimal (n : Int) (scale : Nat) : Octets :=
  let digits := Octets.ofNat n.natAbs
  let digits := List.replicate (scale + 1 - digits.length) '0' ++ digits
  let whole := digits.take (digits.length - scale)
  (if n < 0 then ['-'] else []) ++ whole
    ++ if scale = 0 then [] else '.' :: digits.drop (digits.length - scale)

/-- Numbers from a first one in steps up to a last one. -/
def progression (first step last : Int) : List Int :=
  if step = 0 then []
  else
    let count := if step > 0 then (last - first).fdiv step + 1 else (first - last).fdiv (-step) + 1
    (List.range count.toNat).map fun (i : Nat) => first + step * (i : Int)

/-- Prints numbers. -/
def seq : Utility := fun name arguments =>
  -- A negative number is no option.
  let isNumber (s : Octets) : Bool := (decimal? s).isSome
  let options := arguments.takeWhile fun s => s.head? = some '-' && !isNumber s
  let specs : List Options.Spec :=
    [⟨"s", "separator", .required⟩, ⟨"w", "equal-width", .none⟩, ⟨"f", "format", .required⟩]
  let usable := if options.isEmpty then .ok ⟨[], arguments⟩ else Options.read specs true arguments
  match usable with
  | .error message => misuse 1 name message
  | .ok r =>
    match r.operands.find? (!isNumber ·) with
    | some bad => misuse 1 name ("invalid floating point argument: ".toList ++ quoted bad)
    | none =>
      let numbers := r.operands.filterMap decimal?
      let scale := (numbers.dropLast.map (·.2)).foldl max 0
      let scaled := numbers.map fun (n, s) =>
        if s ≤ scale then n * Int.pow 10 (scale - s) else n.fdiv (Int.pow 10 (s - scale))
      let separator := (r.value? "s").getD ['\n']
      let print (first step last : Int) : Act Nat :=
        let shown := (progression first step last).map (showDecimal · scale)
        let width := if r.has "w" then (shown.map List.length).foldl max 0 else 0
        let shown := shown.map fun s =>
          if s.head? = some '-' then '-' :: (List.replicate (width - s.length) '0' ++ s.drop 1)
          else List.replicate (width - s.length) '0' ++ s
        let joined := List.intercalate separator shown
        emitLast name (if shown.isEmpty then [] else joined ++ ['\n']) 0
      match scaled with
      | [] => misuse 1 name "missing operand".toList
      | [last] => print 1 1 last
      | [first, last] => print first (Int.pow 10 scale) last
      | [first, step, last] =>
        if step = 0 then
          misuse 1 name
            ("invalid Zero increment value: ".toList ++ quoted ((r.operands.drop 1).headD []))
        else print first step last
      | _ => misuse 1 name ("extra operand ".toList ++ quoted ((r.operands.drop 3).headD []))

/-- The value of an expression is nothing: the empty text or zero. -/
def isNull (s : Octets) : Bool :=
  s.isEmpty || s = ['0'] || s.all (· == '0')

/-- The integer that a text is. -/
def integer? (s : Octets) : Option Int :=
  match s with
  | '-' :: digits => (Octets.toNat? digits).map fun n => -(n : Int)
  | digits => (Octets.toNat? digits).map fun n => (n : Int)

/-- The values of a comparison. -/
def compared (operator a b : Octets) : Bool :=
  let order : Int := match integer? a, integer? b with
    | some x, some y => if x < y then -1 else if y < x then 1 else 0
    | _, _ => Sorting.compareBytes a b
  match String.ofList operator with
  | "<" => order < 0
  | "<=" => order ≤ 0
  | "=" | "==" => order = 0
  | "!=" => order ≠ 0
  | ">=" => order ≥ 0
  | _ => order > 0

/-- How strongly operators of `expr` bind, weakest first. -/
def expressionLevels : List (List String) :=
  [["|"], ["&"], ["<", "<=", "=", "==", "!=", ">=", ">"], ["+", "-"], ["*", "/", "%"], [":"]]

/-- The value of an operator of `expr`. -/
def applyOperator (operator a b : Octets) : Except Octets Octets :=
  let numbers (f : Int → Int → Except Octets Int) : Except Octets Octets :=
    match integer? a, integer? b with
    | some x, some y => (f x y).map Octets.ofInt
    | _, _ => .error "non-integer argument".toList
  match String.ofList operator with
  | "|" => .ok (if !isNull a then a else if !isNull b then b else ['0'])
  | "&" => .ok (if isNull a || isNull b then ['0'] else a)
  | "+" => numbers fun x y => .ok (x + y)
  | "-" => numbers fun x y => .ok (x - y)
  | "*" => numbers fun x y => .ok (x * y)
  | "/" => numbers fun x y => if y = 0 then .error "division by zero".toList else .ok (x.tdiv y)
  | "%" => numbers fun x y => if y = 0 then .error "division by zero".toList else .ok (x.tmod y)
  | ":" =>
    match Regex.read false (Utf8.decodeLossy b.bytes) with
    | .error fault => .error fault.message.toList
    | .ok (r, groups) =>
      match Regex.matchAt {} r (.front a.text) with
      | none => .ok (if groups = 0 then ['0'] else [])
      | some m =>
        .ok (if groups = 0 then Octets.ofNat m.text.length
          else Octets.ofText (((m.groups.get? 1).map (·.2)).getD []))
  | _ => .ok (if compared operator a b then ['1'] else ['0'])

/-- Reads and evaluates an expression whose operators bind at least as strongly as the given
levels, in at most `budget` steps. -/
def expression : (budget : Nat) → (levels : List (List String)) → List Octets →
    Except Octets (Octets × List Octets)
  | 0, _, _ => .error "syntax error".toList
  | budget + 1, [], words =>
    match words with
    | [] => .error "syntax error: missing argument".toList
    | ['('] :: rest => do
      let (value, rest) ← expression budget expressionLevels rest
      match rest with
      | [')'] :: rest => return (value, rest)
      | _ => .error "syntax error: expecting ')'".toList
    | word :: rest =>
      match String.ofList word, rest with
      | "length", s :: rest => .ok (Octets.ofNat s.text.length, rest)
      | "index", s :: chars :: rest =>
        let place := (s.text.findIdx? chars.text.contains).map (· + 1)
        .ok (Octets.ofNat (place.getD 0), rest)
      | "match", s :: pattern :: rest => do
        return (← applyOperator [':'] s pattern, rest)
      | "substr", s :: start :: size :: rest =>
        match integer? start, integer? size with
        | some start, some size =>
          if start < 1 || size < 1 then .ok ([], rest)
          else .ok (Octets.ofText ((s.text.drop (start.toNat - 1)).take size.toNat), rest)
        | _, _ => .ok ([], rest)
      | "+", s :: rest => .ok (s, rest)
      | _, _ => .ok (word, rest)
  | budget + 1, level :: levels, words => do
    let (first, rest) ← expression budget levels words
    more budget level levels first rest
where
  /-- Goes on with further operators of one level. -/
  more : (budget : Nat) → List String → List (List String) → Octets → List Octets →
      Except Octets (Octets × List Octets)
    | 0, _, _, value, rest => .ok (value, rest)
    | budget + 1, level, levels, value, rest =>
      match rest with
      | [] => .ok (value, [])
      | operator :: rest' =>
        if level.contains (String.ofList operator) then
          if rest'.isEmpty then
            .error ("syntax error: missing argument after ".toList ++ quoted operator)
          else do
            let (second, rest) ← expression budget levels rest'
            more budget level levels (← applyOperator operator value second) rest
        else .ok (value, rest)

/-- Evaluates an expression. -/
def expr : Utility := fun name arguments =>
  if arguments.isEmpty then misuse 2 name "missing operand".toList
  else
    match expression (20 * arguments.length + 20) expressionLevels arguments with
    | .error message => fail 2 name message
    | .ok (_, extra :: _) =>
      fail 2 name ("syntax error: unexpected argument ".toList ++ quoted extra)
    | .ok (value, []) => emitLast name (value ++ ['\n']) (if isNull value then 1 else 0)

/-! ## Names -/

/-- A name without slashes at its end, but for a slash alone. -/
def trimSlashes (s : Octets) : Octets :=
  let trimmed := (s.reverse.dropWhile (· == '/')).reverse
  if trimmed.isEmpty && !s.isEmpty then ['/'] else trimmed

/-- The last part of a name. -/
def baseName (s : Octets) : Octets :=
  let trimmed := trimSlashes s
  if trimmed = ['/'] then trimmed else (trimmed.reverse.takeWhile (· != '/')).reverse

/-- A name without its last part. -/
def directoryName (s : Octets) : Octets :=
  let trimmed := trimSlashes s
  if trimmed = ['/'] then trimmed
  else if !trimmed.contains '/' then ['.']
  else trimSlashes ((trimmed.reverse.dropWhile (· != '/')).reverse)

/-- A name without a suffix, unless it is nothing else. -/
def withoutSuffix (s suffix : Octets) : Octets :=
  if s ≠ suffix && suffix.reverse.isPrefixOf s.reverse then s.take (s.length - suffix.length) else s

/-- Prints the last parts of names. -/
def basename : Utility :=
  withOptions [⟨"a", "multiple", .none⟩, ⟨"s", "suffix", .required⟩, ⟨"z", "zero", .none⟩] 1
    fun name r =>
    if r.operands.isEmpty then misuse 1 name "missing operand".toList
    else if r.has "a" || r.has "s" then
      let suffix := (r.value? "s").getD []
      emitLast name (Octets.unlines (r.operands.map fun s => withoutSuffix (baseName s) suffix)) 0
    else
      match r.operands with
      | [s] => emitLast name (baseName s ++ ['\n']) 0
      | [s, suffix] => emitLast name (withoutSuffix (baseName s) suffix ++ ['\n']) 0
      | _ => misuse 1 name ("extra operand ".toList ++ quoted ((r.operands.drop 2).headD []))

/-- Prints names without their last parts. -/
def dirname : Utility :=
  withOptions [⟨"z", "zero", .none⟩] 1 fun name r =>
    if r.operands.isEmpty then misuse 1 name "missing operand".toList
    else emitLast name (Octets.unlines (r.operands.map directoryName)) 0

/-- Prints the working directory. -/
def pwd : Utility := fun name _ => do
  let tree ← ask .files
  emitLast name (Octets.ofText (Path.text ⟨.root, tree.cwd⟩) ++ ['\n']) 0

/-! ## Files -/

/-- Carries something out for each of several files; each complaint makes the status 1. -/
def eachFile (act : Octets → Act Bool) (status : Nat) : List Octets → Act Nat
  | [] => return status
  | file :: rest => do
    let well ← act file
    eachFile act (if well then status else 1) rest

/-- Makes directories. -/
def mkdir : Utility :=
  withOptions
    [⟨"p", "parents", .none⟩, ⟨"m", "mode", .required⟩, ⟨"v", "verbose", .none⟩] 1 fun name r =>
    if r.operands.isEmpty then misuse 1 name "missing operand".toList
    else
      eachFile (fun file => do
        let path := Path.ofText file.text
        let made ← ask (.change fun tree =>
          if r.has "p" then
            match tree.makeDirectories path with
            | (tree, none) => .ok tree
            | (_, some (.system cause _)) => .error cause
            | (_, some _) => .error .notFound
          else
            match tree.makeDirectory path with
            | .ok tree => .ok tree
            | .error (.system cause _) => .error cause
            | .error _ => .error .notFound)
        match made with
        | .ok () =>
          if r.has "v" then say (name ++ ": created directory '".toList ++ file ++ "'\n".toList)
          return true
        | .error cause =>
          grumble name ("cannot create directory ".toList ++ quoted file ++ ": ".toList
            ++ causeText cause)
          return false) 0 r.operands

/-- Removes files. -/
def rm : Utility :=
  withOptions
    [⟨"r", "recursive", .none⟩, ⟨"R", "", .none⟩, ⟨"f", "force", .none⟩, ⟨"i", "", .none⟩,
      ⟨"d", "dir", .none⟩, ⟨"v", "verbose", .none⟩] 1 fun name r =>
    if r.operands.isEmpty && !r.has "f" then misuse 1 name "missing operand".toList
    else
      eachFile (fun file => do
        let removed ← ask (.change fun tree => do
          match ← tree.find file with
          | (_, .directory) =>
            if r.has "r" || r.has "R" then
              let (location, _) ← tree.find file
              return tree.remove location
            else .error .isDirectory
          | (location, _) => return tree.remove location)
        match removed with
        | .ok () =>
          if r.has "v" then say ("removed '".toList ++ file ++ "'\n".toList)
          return true
        | .error .notFound =>
          if r.has "f" then return true
          grumble name ("cannot remove '".toList ++ file ++ "': ".toList ++ causeText .notFound)
          return false
        | .error cause =>
          grumble name ("cannot remove '".toList ++ file ++ "': ".toList ++ causeText cause)
          return false) 0 r.operands

/-- Makes files that do not exist. -/
def touch : Utility :=
  withOptions
    [⟨"a", "", .none⟩, ⟨"c", "no-create", .none⟩, ⟨"m", "", .none⟩, ⟨"d", "date", .required⟩,
      ⟨"r", "reference", .required⟩, ⟨"t", "", .required⟩] 1 fun name r =>
    if r.operands.isEmpty then misuse 1 name "missing file operand".toList
    else
      eachFile (fun file => do
        let made ← ask (.change fun tree => do
          match ← tree.place file with
          | (location, none) =>
            return if r.has "c" then tree else tree.put location (.file [] false)
          | _ => return tree)
        match made with
        | .ok () => return true
        | .error cause =>
          grumble name ("cannot touch '".toList ++ file ++ "': ".toList ++ causeText cause)
          return false) 0 r.operands

/-- Copies or moves what stands at one location to another one. -/
def transfer (moves : Bool) (source target : Location) (node : FileNode) (tree : FileTree) :
    FileTree :=
  let below := tree.below source
  let kept := if moves then tree.remove source else tree
  below.foldl (fun tree (path, node) => tree.put (target ++ path) node) (kept.put target node)

/-- Copies or moves a file to another name, or into a directory; fails with a message. -/
def transferTo (moves recursive : Bool) (source target : Octets) (tree : FileTree) :
    Except Octets FileTree :=
  let about (what : String) (file : Octets) (cause : SystemCause) : Octets :=
    what.toList ++ named file ++ ": ".toList ++ causeText cause
  match tree.find source with
  | .error cause => .error (about "cannot stat " source cause)
  | .ok (origin, node) =>
    if node = .directory && !moves && !recursive then
      .error ("-r not specified; omitting directory ".toList ++ named source)
    else
      match tree.place target with
      | .error cause =>
        .error (if moves then
          "cannot move ".toList ++ named source ++ " to ".toList ++ named target ++ ": ".toList
            ++ causeText cause
          else about "cannot create regular file " target cause)
      | .ok (location, there) =>
        let location := if there = some .directory then location ++ origin.getLast?.toList
          else location
        if location = origin then
          .error (named source ++ " and ".toList ++ named target
            ++ " are the same file".toList)
        else .ok (transfer moves origin location node tree)

/-- Copies or moves files. -/
def transferUtility (moves : Bool) : Utility :=
  withOptions
    [⟨"f", "force", .none⟩, ⟨"p", "", .none⟩, ⟨"r", "recursive", .none⟩, ⟨"R", "", .none⟩,
      ⟨"a", "archive", .none⟩, ⟨"n", "no-clobber", .none⟩, ⟨"u", "update", .none⟩] 1
    fun name r => do
    match r.operands.reverse with
    | [] => misuse 1 name "missing file operand".toList
    | [s] => misuse 1 name ("missing destination file operand after ".toList ++ named s)
    | target :: sources =>
      let recursive := r.has "r" || r.has "R" || r.has "a"
      let fault? := match (← ask .files).find target with
        | .ok (_, .directory) => none
        | .ok _ => some (causeText .notDirectory)
        | .error cause => some (causeText cause)
      match fault?, sources with
      | some fault, _ :: _ :: _ =>
        fail 1 name ("target ".toList ++ named target ++ ": ".toList ++ fault)
      | _, _ =>
        eachFile (fun source => do
          match transferTo moves recursive source target (← ask .files) with
          | .ok tree =>
            let _ ← ask (.change fun _ => .ok tree)
            return true
          | .error message =>
            grumble name message
            return false) 0 sources.reverse

/-- Copies files. -/
def cp : Utility := transferUtility false

/-- Moves files. -/
def mv : Utility := transferUtility true

/-- Prints the names in directories. -/
def ls : Utility :=
  withOptions
    [⟨"a", "all", .none⟩, ⟨"A", "almost-all", .none⟩, ⟨"1", "", .none⟩, ⟨"r", "reverse", .none⟩,
      ⟨"d", "directory", .none⟩] 2 fun name r => do
    let tree ← ask .files
    let operands := if r.operands.isEmpty then [['.']] else r.operands
    let missing := operands.filter fun s => (tree.find s).toOption.isNone
    grumbleAll name (missing.map fun s =>
      "cannot access '".toList ++ s ++ "': ".toList ++ causeText .notFound)
    let found := operands.filterMap fun s => ((tree.find s).toOption).map fun (l, n) => (s, l, n)
    let order (names : List Octets) : List Octets :=
      let sorted := names.mergeSort fun a b => Sorting.compareBytes a b ≤ 0
      if r.has "r" then sorted.reverse else sorted
    let isPlain (n : FileNode) : Bool := n ≠ .directory || r.has "d"
    let plain := order ((found.filter fun (_, _, n) => isPlain n).map (·.1))
    let listings := (found.filter fun (_, _, n) => !isPlain n).map fun (s, l, _) =>
      let names := ((tree.names l).map Octets.ofText).filter fun s =>
        r.has "a" || r.has "A" || s.head? ≠ some '.'
      (s, order (names ++ if r.has "a" then [['.'], "..".toList] else []))
    let titled := operands.length > 1
    let blocks := listings.map fun (s, names) =>
      (if titled then s ++ ":\n".toList else []) ++ Octets.unlines names
    let all := (if plain.isEmpty then [] else [Octets.unlines plain]) ++ blocks
    emitLast name (List.intercalate ['\n'] all) (if missing.isEmpty then 0 else 2)

end SfcProxy.Tool.Utility
