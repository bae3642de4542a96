import SfcProxy.Text.Octets

/-!
# Options of utilities

Utilities take options by letter or by word. Letters may be joined behind one hyphen, words may be
shortened as long as they stay unambiguous, and options may stand behind operands. Everything
behind two hyphens is an operand.

## Main definitions

* `Options.Spec`: an option that a utility has
* `Options.Reading`: the options and operands of a command
* `Options.read`: reads arguments
-/

namespace SfcProxy.Tool.Options

/-- Whether an option takes an argument. -/
inductive Arity where
  | none
  | required
  /-- The argument has to follow directly. -/
  | optional
  deriving DecidableEq

/-- An option: its key, which is its letter unless it has none, its word, which may be empty, and
whether it takes an argument. -/
structure Spec where
  key : String
  word : String
  arity : Arity
  deriving DecidableEq

/-- The options that were given with their arguments, in order, and the operands. -/
structure Reading where
  given : List (String × Option Octets)
  operands : List Octets
  deriving DecidableEq

namespace Reading

/-- An option was given. -/
def has (r : Reading) (key : String) : Bool :=
  r.given.any (·.1 = key)

/-- The argument of an option that was given last. -/
def value? (r : Reading) (key : String) : Option Octets :=
  (r.given.reverse.find? (·.1 = key)).bind (·.2)

/-- The arguments of an option. -/
def values (r : Reading) (key : String) : List Octets :=
  (r.given.filter (·.1 = key)).filterMap (·.2)

end Reading

/-- The wording about a letter. -/
def aboutLetter (what : String) (c : Char) : Octets :=
  what.toList ++ " -- '".toList ++ [c] ++ ['\'']

/-- The wording about an option that is written out. -/
def aboutWord (before : String) (word : Octets) (after : String) : Octets :=
  before.toList ++ " '".toList ++ word ++ ['\''] ++ after.toList

/-- Reads the letters behind one hyphen; `next` is the following argument, and tells whether it
was used. -/
def readLetters (specs : List Spec) (next : Option Octets) :
    Octets → Except Octets (List (String × Option Octets) × Bool)
  | [] => .ok ([], false)
  | c :: rest =>
    match specs.find? (·.key = String.singleton c) with
    | none => .error (aboutLetter "invalid option" c)
    | some spec =>
      match spec.arity with
      | .none => do
        let (more, used) ← readLetters specs next rest
        return ((spec.key, none) :: more, used)
      | .optional => .ok ([(spec.key, if rest.isEmpty then none else some rest)], false)
      | .required =>
        if !rest.isEmpty then .ok ([(spec.key, some rest)], false)
        else
          match next with
          | some value => .ok ([(spec.key, some value)], true)
          | none => .error (aboutLetter "option requires an argument" c)

/-- The option that a word stands for. -/
def findWord (specs : List Spec) (word written : Octets) : Except Octets Spec :=
  match specs.find? fun s => s.word.toList = word && !word.isEmpty with
  | some spec => .ok spec
  | none =>
    match specs.filter fun s => word.isPrefixOf s.word.toList && !s.word.isEmpty with
    | [] => .error (aboutWord "unrecognized option" written "")
    | spec :: more =>
      if more.all (·.key = spec.key) then .ok spec
      else
        let choices := (spec :: more).flatMap fun s => " '--".toList ++ s.word.toList ++ ['\'']
        .error (aboutWord "option" written " is ambiguous; possibilities:" ++ choices)

/-- Reads an option that is written as a word. -/
def readWord (specs : List Spec) (next : Option Octets) (written : Octets) :
    Except Octets ((String × Option Octets) × Bool) := do
  let name := written.takeWhile (· != '=')
  let value := if name.length < written.length then some (written.drop (name.length + 1)) else none
  let dashed (s : Octets) : Octets := '-' :: '-' :: s
  let spec ← findWord specs name (dashed written)
  match spec.arity, value with
  | .none, some _ =>
    .error (aboutWord "option" (dashed spec.word.toList) " doesn't allow an argument")
  | .required, none =>
    match next with
    | some value => return ((spec.key, some value), true)
    | none => .error (aboutWord "option" (dashed spec.word.toList) " requires an argument")
  | _, value => return ((spec.key, value), false)

/-- Reads arguments. With `strict`, the first operand ends the options. -/
def read (specs : List Spec) (strict : Bool) : List Octets → Except Octets Reading
  | [] => .ok ⟨[], []⟩
  | ['-', '-'] :: rest => .ok ⟨[], rest⟩
  | ('-' :: '-' :: word) :: rest => do
    let (option, used) ← readWord specs rest.head? word
    let reading ← match used, rest with
      | true, _ :: rest => read specs strict rest
      | _, rest => read specs strict rest
    return { reading with given := option :: reading.given }
  | ('-' :: c :: letters) :: rest => do
    let (options, used) ← readLetters specs rest.head? (c :: letters)
    let reading ← match used, rest with
      | true, _ :: rest => read specs strict rest
      | _, rest => read specs strict rest
    return { reading with given := options ++ reading.given }
  | operand :: rest => do
    if strict then return ⟨[], operand :: rest⟩
    let reading ← read specs strict rest
    return { reading with operands := operand :: reading.operands }

end SfcProxy.Tool.Options
