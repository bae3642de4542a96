import SfcProxy.Tool.Shell.Syntax
import SfcProxy.Tool.Utility.Printing

/-!
# Arithmetic of the shell

Expressions over integers of 64 bits with variables, which expressions may also set. An expression
is evaluated as it is read; parts that do not count are read only.

## Main definitions

* `Arithmetic.Fault`: what is wrong with an expression
* `Arithmetic.evaluate`: the value of an expression, and the variables that it sets
-/

namespace SfcProxy.Tool.Arithmetic

/-- What is wrong with an expression. -/
inductive Fault where
  | expecting (what : String)
  | divisionByZero
  | illegalNumber (text : Octets)
  deriving DecidableEq

/-- The wording of a fault of an expression. -/
def Fault.message (expression : Octets) : Fault → Octets
  | expecting what =>
    "arithmetic expression: expecting ".toList ++ what.toList ++ ": \"".toList ++ expression ++ ['"']
  | divisionByZero =>
    "arithmetic expression: division by zero: \"".toList ++ expression ++ ['"']
  | illegalNumber text => "Illegal number: ".toList ++ text

/-- An integer of 64 bits. -/
def wrap (n : Int) : Int :=
  n.bmod 18446744073709551616

/-- Where evaluation stands: the rest of the expression, and the variables that were set, last
first. -/
structure State where
  rest : Octets
  assigned : List (Octets × Int)

/-- A step of evaluation. -/
abbrev Step := StateT State (Except Fault)

/-- The blanks between the parts of an expression. -/
def isBlank (c : Char) : Bool :=
  c == ' ' || c == '\t' || c == '\n'

/-- The rest behind blanks. -/
def rest : Step Octets := do
  let s ← get
  let cs := s.rest.dropWhile isBlank
  set { s with rest := cs }
  return cs

/-- Passes over characters. -/
def skip (n : Nat) : Step Unit :=
  modify fun s => { s with rest := s.rest.drop n }

/-- The binary operators by how strongly they bind, weakest first. -/
def levels : List (List String) :=
  [["||"], ["&&"], ["|"], ["^"], ["&"], ["==", "!="], ["<=", ">=", "<", ">"], ["<<", ">>"],
    ["+", "-"], ["*", "/", "%"]]

/-- All operators, longer ones first. -/
def operators : List String :=
  ["<<=", ">>=", "||", "&&", "==", "!=", "<=", ">=", "<<", ">>", "+=", "-=", "*=", "/=", "%=",
    "&=", "^=", "|=", "=", "<", ">", "+", "-", "*", "/", "%", "&", "^", "|", "!", "~", "?", ":",
    "(", ")"]

/-- The operator at the front of the rest. -/
def operator? : Step (Option String) := do
  let cs ← rest
  return operators.find? fun t => t.toList.isPrefixOf cs

/-- One for what holds and zero for what does not. -/
def truth (b : Bool) : Int :=
  if b then 1 else 0

/-- The bits of two integers combined. -/
def bits (f : Nat → Nat → Nat) (a b : Int) : Int :=
  wrap (f (a % 18446744073709551616).toNat (b % 18446744073709551616).toNat)

/-- The value of an operator. -/
def apply (operator : String) (a b : Int) : Except Fault Int :=
  match operator with
  | "|" => .ok (bits (· ||| ·) a b)
  | "^" => .ok (bits (· ^^^ ·) a b)
  | "&" => .ok (bits (· &&& ·) a b)
  | "==" => .ok (truth (a == b))
  | "!=" => .ok (truth (a != b))
  | "<=" => .ok (truth (a ≤ b))
  | ">=" => .ok (truth (a ≥ b))
  | "<" => .ok (truth (a < b))
  | ">" => .ok (truth (a > b))
  | "<<" => .ok (wrap (a * Int.pow 2 (b % 64).toNat))
  | ">>" => .ok (wrap (a.fdiv (Int.pow 2 (b % 64).toNat)))
  | "+" => .ok (wrap (a + b))
  | "-" => .ok (wrap (a - b))
  | "*" => .ok (wrap (a * b))
  | "/" => if b = 0 then .error .divisionByZero else .ok (wrap (a.tdiv b))
  | "%" => if b = 0 then .error .divisionByZero else .ok (wrap (a.tmod b))
  | _ => .ok b

/-- The value of a variable: nothing counts as zero, and what is no number is a fault. -/
def valueOf (lookup : Octets → Option Octets) (name : Octets) : Step Int := do
  match (← get).assigned.lookup name with
  | some n => return n
  | none =>
    match lookup name with
    | none | some [] => return 0
    | some text =>
      let (n, left, found) := Printing.readNumber text
      if !found || !left.all isBlank then throw (.illegalNumber text)
      return wrap n

mutual

/-- Evaluates a choice or what binds more strongly; with `live` off nothing counts. -/
def choice (lookup : Octets → Option Octets) : (budget : Nat) → (live : Bool) → Step Int
  | 0, _ => throw (.expecting "EOF")
  | budget + 1, live => do
    let test ← binary lookup budget live levels
    if (← operator?) = some "?" then do
      skip 1
      let first ← assignment lookup budget (live && test ≠ 0)
      if (← operator?) ≠ some ":" then throw (.expecting "':'")
      skip 1
      let second ← choice lookup budget (live && test = 0)
      return if test ≠ 0 then first else second
    else return test

/-- Evaluates operators of the given levels. -/
def binary (lookup : Octets → Option Octets) : (budget : Nat) → (live : Bool) →
    List (List String) → Step Int
  | 0, _, _ => throw (.expecting "EOF")
  | budget + 1, live, [] => unary lookup budget live
  | budget + 1, live, level :: more => do
    let first ← binary lookup budget live more
    further lookup budget live level more first

/-- Goes on with further operators of one level. -/
def further (lookup : Octets → Option Octets) : (budget : Nat) → (live : Bool) → List String →
    List (List String) → Int → Step Int
  | 0, _, _, _, _ => throw (.expecting "EOF")
  | budget + 1, live, level, more, first => do
    match ← operator? with
    | none => return first
    | some op =>
      if !level.contains op then return first
      skip op.length
      if op = "&&" then do
        let second ← binary lookup budget (live && first ≠ 0) more
        further lookup budget live level more (truth (first ≠ 0 && second ≠ 0))
      else if op = "||" then do
        let second ← binary lookup budget (live && first = 0) more
        further lookup budget live level more (truth (first ≠ 0 || second ≠ 0))
      else do
        let second ← binary lookup budget live more
        let value ← match apply op first second with
          | .ok n => pure n
          | .error fault => if live then throw fault else pure 0
        further lookup budget live level more value

/-- Evaluates signs in front of a number, a variable or parentheses. -/
def unary (lookup : Octets → Option Octets) : (budget : Nat) → (live : Bool) → Step Int
  | 0, _ => throw (.expecting "EOF")
  | budget + 1, live => do
    match ← operator? with
    | some "-" => do
      skip 1
      return wrap (-(← unary lookup budget live))
    | some "+" => do
      skip 1
      unary lookup budget live
    | some "!" => do
      skip 1
      return truth ((← unary lookup budget live) = 0)
    | some "~" => do
      skip 1
      return -(← unary lookup budget live) - 1
    | some "(" => do
      skip 1
      let value ← assignment lookup budget live
      if (← operator?) ≠ some ")" then throw (.expecting "')'")
      skip 1
      return value
    | some _ => throw (.expecting "primary")
    | none => do
      let cs ← rest
      match cs with
      | c :: _ =>
        if c.isDigit then do
          let (n, left, _) := Printing.readNumber cs
          skip (cs.length - left.length)
          return wrap n
        else if Shell.isNameStart c then do
          let name := cs.takeWhile Shell.isNameChar
          skip name.length
          if live then valueOf lookup name else return 0
        else throw (.expecting "primary")
      | [] => throw (.expecting "primary")

/-- Evaluates an assignment or what binds more strongly. -/
def assignment (lookup : Octets → Option Octets) : (budget : Nat) → (live : Bool) → Step Int
  | 0, _ => throw (.expecting "EOF")
  | budget + 1, live => do
    let start ← get
    let cs ← rest
    let name := cs.takeWhile Shell.isNameChar
    let assigns ← if Shell.isName name then do
        skip name.length
        pure (← operator?)
      else pure none
    let set' (n : Int) : Step Int := do
      if live then modify fun s => { s with assigned := (name, n) :: s.assigned }
      return n
    match assigns with
    | some "=" => do
      skip 1
      set' (← assignment lookup budget live)
    | some op =>
      if ["+=", "-=", "*=", "/=", "%=", "&=", "^=", "|=", "<<=", ">>="].contains op then do
        skip op.length
        let old ← if live then valueOf lookup name else pure 0
        let change ← assignment lookup budget live
        match apply (String.ofList op.toList.dropLast) old change with
        | .ok n => set' n
        | .error fault => if live then throw fault else return 0
      else do
        set start
        choice lookup budget live
    | none => do
      set start
      choice lookup budget live

end

/-- The value of an expression, and the variables that it sets, in order. -/
def evaluate (lookup : Octets → Option Octets) (expression : Octets) :
    Except Fault (Int × List (Octets × Int)) := do
  if expression.all isBlank then return (0, [])
  let (value, s) ← assignment lookup (30 * expression.length + 100) true ⟨expression, []⟩
  if !s.rest.all isBlank then throw (.expecting "EOF")
  return (value, s.assigned.reverse)

end SfcProxy.Tool.Arithmetic
