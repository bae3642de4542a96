import SfcProxy.Tool.Shell.Arithmetic
import SfcProxy.Tool.Shell.State

/-!
# Expansion

What words come to: parameters give way to their values, commands to what they print, expressions
to their numbers. Where a word stands for several, the text that came in unquoted is parted into
fields, and fields that are patterns give way to the names of files.

## Main definitions

* `Expansion.Step`: expansion, which fails with a message
* `Expansion.parts`: the items that the parts of a word come to
* `Expansion.text`, `Expansion.pattern`: a word as one text, or as a pattern
* `Expansion.fields`: a word as fields
-/

namespace SfcProxy.Tool.Shell.Expansion

/-- Expansion works on a shell and may fail with a message. -/
abbrev Step := ExceptT Octets Work

/-- How a shell takes what a command prints. -/
abbrev Taking := Command → Work Octets

/-! ## Variables -/

/-- Sets a variable. -/
def assign (name value : Octets) : Step Unit := do
  if (← get).isFixed name then throw (name ++ ": is read only".toList)
  modify (·.set name value)

/-- The value of an expression as text. -/
def arithmetic (expression : Octets) : Step Octets := do
  match Arithmetic.evaluate (← get).value? expression with
  | .error fault => throw (fault.message expression)
  | .ok (value, assignments) =>
    assignments.forM fun (name, n) => assign name (Octets.ofInt n)
    return Octets.ofInt value

/-! ## Parameters -/

/-- A parameter stands for all arguments. -/
def isAll (name : Octets) : Bool :=
  name = ['@'] || name = ['*']

/-- The items of a parameter; nothing if it is not set. -/
def parameter? (s : State) (name : Octets) (quoted : Bool) : Option (List Item) :=
  if isAll name then
    if s.arguments.isEmpty then none else some (argumentItems s (name = ['*']) quoted)
  else (s.value? name).map fun value => Item.ofText value quoted (!quoted)

/-- The items of a parameter that may be missing only if the options allow it. -/
def valueItems (name : Octets) (quoted : Bool) : Step (List Item) := do
  let s ← get
  match parameter? s name quoted with
  | some items => return items
  | none =>
    if s.has 'u' && !isAll name then throw (name ++ ": parameter not set".toList)
    return []

/-- Items up to each cut, and what is behind the last one. -/
def pieces : List Item → List (List Item)
  | [] => [[]]
  | item :: rest =>
    match item, pieces rest with
    | .cut, all => [] :: all
    | item, piece :: more => (item :: piece) :: more
    | item, [] => [[item]]

/-- Items with each piece between cuts trimmed. -/
def trimmed (trim : Octets → Octets) (quoted : Bool) (items : List Item) : List Item :=
  List.intercalate [.cut] ((pieces items).map fun piece =>
    let marks := if piece.contains .mark then [.mark] else []
    marks ++ Item.ofText (trim (Item.text [] piece)) quoted (!quoted))

/-! ## Parts -/

mutual

/-- The items that a part comes to. With `inBraces` it stands behind the operation of a
parameter, where bare text may part fields. -/
def part (take : Taking) (inBraces : Bool) : Part → Step (List Item)
  | .text s quoted => return Item.ofText s quoted (inBraces && !quoted)
  | .quotes => return [.mark]
  | .parameter name operation word quoted => do
    let s ← get
    let items? := parameter? s name quoted
    let missing (orEmpty : Bool) : Bool := match items? with
      | none => true
      | some items => orEmpty && (Item.text [' '] items).isEmpty
    -- The word is expanded only where it counts, so that its commands run only then.
    match operation with
    | .plain => valueItems name quoted
    | .length => do
      let items ← valueItems name true
      return Item.ofText (Octets.ofNat (Item.text s.separators items).length) quoted (!quoted)
    | .fallback orEmpty =>
      if missing orEmpty then parts take true word else return items?.getD []
    | .alternative orEmpty =>
      if missing orEmpty then return [] else parts take true word
    | .assign orEmpty =>
      if missing orEmpty then do
        let value := Item.text s.separators (← parts take true word)
        if !isName name then throw (name ++ ": bad variable name".toList)
        assign name value
        return Item.ofText value quoted (!quoted)
      else return items?.getD []
    | .require orEmpty =>
      if missing orEmpty then do
        let message := Item.text s.separators (← parts take true word)
        let standard := if orEmpty then "parameter not set or null" else "parameter not set"
        throw (name ++ ": ".toList ++ if message.isEmpty then standard.toList else message)
      else return items?.getD []
    | .trimEnd longest => do
      let items ← valueItems name quoted
      let pattern := Pattern.ofGlyphs (Item.glyphs s.separators (← parts take false word))
      return trimmed (Pattern.trimEnd longest pattern) quoted items
    | .trimStart longest => do
      let items ← valueItems name quoted
      let pattern := Pattern.ofGlyphs (Item.glyphs s.separators (← parts take false word))
      return trimmed (Pattern.trimStart longest pattern) quoted items
    | .bad => throw "Bad substitution".toList
  | .command body quoted => do
    return Item.ofText (← take body) quoted (!quoted)
  | .arithmetic expression quoted => do
    let items ← parts take false expression
    return Item.ofText (← arithmetic (Item.text [' '] items)) quoted (!quoted)

/-- The items that parts come to. -/
def parts (take : Taking) (inBraces : Bool) : List Part → Step (List Item)
  | [] => return []
  | first :: rest => do
    let items ← part take inBraces first
    return items ++ (← parts take inBraces rest)

end

/-! ## Words -/

/-- The home at the front of a word, and what follows it. -/
def home? (s : State) (word : Word) : Option (Octets × Word) :=
  match word with
  | .text ('~' :: text) false :: rest =>
    if text.isEmpty && rest.isEmpty || text.head? = some '/' then
      (s.value? "HOME".toList).map fun home =>
        (home, if text.isEmpty then rest else .text text false :: rest)
    else none
  | _ => none

/-- The items that a word comes to. -/
def items (take : Taking) (word : Word) : Step (List Item) := do
  match home? (← get) word with
  | some (home, rest) => return Item.ofText home true false ++ (← parts take false rest)
  | none => parts take false word

/-- A word as one text. -/
def text (take : Taking) (word : Word) : Step Octets := do
  let found ← items take word
  return Item.text (← get).separators found

/-- A word as a pattern. -/
def pattern (take : Taking) (word : Word) : Step (List Pattern.Item) := do
  let found ← items take word
  return Pattern.ofGlyphs (Item.glyphs (← get).separators found)

/-- The texts that a field comes to: the names of the files that match it, or itself. -/
def names (field : List Item) : Step (List Octets) := do
  let glyphs := Item.glyphs [] field
  if (← get).has 'f' || !glyphs.any Pattern.isWild then return [glyphs.map (·.1)]
  return Pattern.files (← Work.ask .files) glyphs

/-- The texts that fields come to. -/
def namesOf : List (List Item) → Step (List Octets)
  | [] => return []
  | field :: rest => do
    let found ← names field
    return found ++ (← namesOf rest)

/-- A word as fields. -/
def fields (take : Taking) (word : Word) : Step (List Octets) := do
  let found ← items take word
  namesOf (Shell.fields (← get).separators found)

/-- Words as fields. -/
def fieldsOf (take : Taking) : List Word → Step (List Octets)
  | [] => return []
  | word :: rest => do
    let found ← fields take word
    return found ++ (← fieldsOf take rest)

end SfcProxy.Tool.Shell.Expansion
