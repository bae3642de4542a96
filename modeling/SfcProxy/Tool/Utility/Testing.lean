import SfcProxy.Tool.Lookup

/-!
# Tests

The expressions that test texts, numbers and files. Which words are operators depends on how many
words follow them, so an expression is read as it is evaluated.

## Main definitions

* `Testing.Operator`: the operators
* `Testing.Fault`: what is wrong with an expression
* `Testing.evaluate`: whether an expression holds
-/

namespace SfcProxy.Tool.Testing

/-- What an operator does. -/
inductive Operator where
  | unary (text : String)
  | binary (text : String)
  | not
  | and
  | or
  | left
  | right
  deriving DecidableEq

/-- The operator that a word is. -/
def operator? (word : Octets) : Option Operator :=
  let text := String.ofList word
  if ["-n", "-z", "-e", "-f", "-d", "-r", "-w", "-x", "-s", "-L", "-h", "-b", "-c", "-p", "-S",
      "-t", "-u", "-g", "-k", "-O", "-G"].contains text then some (.unary text)
  else if ["=", "!=", "<", ">", "-eq", "-ne", "-gt", "-ge", "-lt", "-le", "-nt", "-ot",
      "-ef"].contains text then some (.binary text)
  else
    match text with
    | "!" => some .not
    | "-a" => some .and
    | "-o" => some .or
    | "(" => some .left
    | ")" => some .right
    | _ => none

/-- What is wrong with an expression. -/
inductive Fault where
  | illegalNumber (word : Octets)
  | unexpected (word : Octets)
  | argumentExpected (operator : Octets)
  | unclosed
  deriving DecidableEq

/-- The word at the front is an operator that takes one argument, but stands for itself: nothing
follows it, or a binary operator with an argument does. -/
def isOperand : List Octets → Bool
  | [_] => true
  | _ :: second :: third :: _ =>
    match operator? second with
    | some (.binary _) => third ≠ [')']
    | _ => false
  | _ => false

/-- The operator at the front of words, if it is one there. -/
def front? (words : List Octets) : Option Operator :=
  match words with
  | [] => none
  | word :: rest =>
    match operator? word with
    | some (.unary text) => if isOperand words then none else some (.unary text)
    | some .left => if rest.isEmpty then none else some .left
    | other => other

/-- The number that a word is. -/
def number (word : Octets) : Except Fault Int :=
  let isBlank (c : Char) : Bool := c == ' ' || (9 ≤ c.toNat && c.toNat ≤ 13)
  let (negative, digits) := match word.dropWhile isBlank with
    | '-' :: rest => (true, rest)
    | '+' :: rest => (false, rest)
    | rest => (false, rest)
  let used := digits.takeWhile Char.isDigit
  if used.isEmpty || !(digits.drop used.length).all isBlank then .error (.illegalNumber word)
  else
    let n : Int := Octets.digitsValue 10 used
    let n := if negative then -n else n
    if n < -9223372036854775808 || n > 9223372036854775807 then .error (.illegalNumber word)
    else .ok n

/-- Whether a file has a property. -/
def fileHas (tree : FileTree) (property : String) (name : Octets) : Bool :=
  let device := "/dev/".toList.isPrefixOf name
  match property, tree.find name with
  | "-e", .ok _ | "-r", .ok _ | "-w", .ok _ | "-O", .ok _ | "-G", .ok _ => true
  | "-f", .ok (_, .file _ _) => true
  | "-d", .ok (_, .directory) => true
  | "-s", .ok (_, .file bytes _) => !bytes.isEmpty
  | "-s", .ok (_, .directory) => true
  | "-x", .ok (_, .directory) => true
  | "-x", .ok (_, .file _ executable) => executable
  | "-e", .error _ | "-r", .error _ | "-w", .error _ | "-c", .error _ =>
    device && name = "/dev/null".toList
  | _, _ => false

/-- What an operator says about one argument. -/
def holdsOf (tree : FileTree) (operator : String) (word : Octets) : Except Fault Bool :=
  match operator with
  | "-n" => .ok !word.isEmpty
  | "-z" => .ok word.isEmpty
  | "-t" => do
    let _ ← number word
    return false
  | property => .ok (fileHas tree property word)

/-- One octet sequence comes before another. -/
def before : Octets → Octets → Bool
  | _, [] => false
  | [], _ :: _ => true
  | a :: as, b :: bs => a.toNat < b.toNat || (a == b && before as bs)

/-- What an operator says about two arguments. -/
def holdsBetween (tree : FileTree) (operator : String) (a b : Octets) : Except Fault Bool :=
  let numbers (f : Int → Int → Bool) : Except Fault Bool := do
    return f (← number a) (← number b)
  match operator with
  | "=" => .ok (a = b)
  | "!=" => .ok (a ≠ b)
  | "<" => .ok (before a b)
  | ">" => .ok (before b a)
  | "-eq" => numbers (· == ·)
  | "-ne" => numbers (· != ·)
  | "-gt" => numbers (· > ·)
  | "-ge" => numbers (· ≥ ·)
  | "-lt" => numbers (· < ·)
  | "-le" => numbers (· ≤ ·)
  | "-ef" =>
    match tree.find a, tree.find b with
    | .ok (x, _), .ok (y, _) => .ok (x = y)
    | _, _ => .ok false
  | _ => .ok false

/-- The words of an operator. -/
def Operator.word : Operator → Octets
  | unary text | binary text => text.toList
  | not => ['!']
  | and => "-a".toList
  | or => "-o".toList
  | left => ['(']
  | right => [')']

mutual

/-- An expression between words joined by `-o`; the first operator is given. The words that come
back start with the last one that was used. -/
def disjunction (tree : FileTree) : (budget : Nat) → Option Operator → List Octets →
    Except Fault (Bool × List Octets)
  | 0, _, words => .ok (false, words)
  | budget + 1, operator, words => do
    let (first, words) ← conjunction tree budget operator words
    match front? (words.drop 1) with
    | some .or => do
      let (more, words) ← disjunction tree budget (front? (words.drop 2)) (words.drop 2)
      return (first || more, words)
    | _ => return (first, words)

/-- An expression between words joined by `-a`. -/
def conjunction (tree : FileTree) : (budget : Nat) → Option Operator → List Octets →
    Except Fault (Bool × List Octets)
  | 0, _, words => .ok (false, words)
  | budget + 1, operator, words => do
    let (first, words) ← negation tree budget operator words
    match front? (words.drop 1) with
    | some .and => do
      let (more, words) ← conjunction tree budget (front? (words.drop 2)) (words.drop 2)
      return (first && more, words)
    | _ => return (first, words)

/-- An expression behind any number of negations. -/
def negation (tree : FileTree) : (budget : Nat) → Option Operator → List Octets →
    Except Fault (Bool × List Octets)
  | 0, _, words => .ok (false, words)
  | budget + 1, operator, words =>
    if operator = some .not then do
      let (holds, words) ← negation tree budget (front? (words.drop 1)) (words.drop 1)
      return (!holds, words)
    else primary tree budget operator words

/-- An expression without operators around it. -/
def primary (tree : FileTree) : (budget : Nat) → Option Operator → List Octets →
    Except Fault (Bool × List Octets)
  | 0, _, words => .ok (false, words)
  | budget + 1, operator, words =>
    match words with
    | [] => .ok (false, [])
    | word :: rest =>
      match operator with
      | some .left =>
        let inner := front? rest
        if inner = some .right then .ok (false, rest)
        else do
          let (holds, words) ← disjunction tree budget inner rest
          if front? (words.drop 1) = some .right then return (holds, words.drop 1)
          else .error .unclosed
      | some (.unary text) =>
        match rest with
        | [] => .error (.argumentExpected text.toList)
        | argument :: _ => do
          return (← holdsOf tree text argument, rest)
      | _ =>
        match rest with
        | second :: more =>
          match operator? second with
          | some (.binary text) =>
            match more with
            | [] => .error (.argumentExpected text.toList)
            | third :: _ => do
              return (← holdsBetween tree text word third, more)
          | _ => .ok (!word.isEmpty, words)
        | [] => .ok (!word.isEmpty, words)

end

/-- Whether the expression that words make up holds. -/
def evaluate (tree : FileTree) (words : List Octets) : Except Fault Bool := do
  let isBinary (word : Octets) : Bool := match operator? word with
    | some (.binary _) => true
    | _ => false
  let bracketed := words.head? = some ['('] && words.getLast? = some [')']
  let three := words.length = 3
  let (operator, words) :=
    if three && ((words.drop 1).head?.any isBinary) then (none, words)
    else if (three || words.length = 4) && bracketed then
      let inner := words.tail.dropLast
      (front? inner, inner)
    else if (three || words.length = 4) && words.head? = some ['!'] then (some .not, words)
    else (front? words, words)
  let (holds, left) ← disjunction tree (8 * words.length + 8) operator words
  match left with
  | word :: _ :: _ => .error (.unexpected word)
  | _ => return holds

end SfcProxy.Tool.Testing
