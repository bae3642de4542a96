import SfcProxy.Markup.Element
import SfcProxy.Markup.Symbol
import SfcProxy.Text.Ranges

/-!
# Tokens that depend on the open elements

Names in tags, the ends of elements that have no end tag, raw text and comments are read with an
eye to the elements that are open, and reading them opens and closes elements. An outlook says
which of them may stand at a place.

## Main definitions

* `Outlook`: what is looked out for
* `Sighting`: such a token, with the elements that are open behind it
* `Outlook.read`: what is found at the front of a text
-/

namespace SfcProxy.Markup

/-- What is looked out for; comments are in every case. -/
inductive Outlook where
  /-- Any token, after a fault. -/
  | anything
  | comments
  /-- The end of an element. -/
  | elementEnd
  /-- The end of a tag that is an element of its own. -/
  | tagEnd
  /-- The name in a start tag. -/
  | startName
  /-- The text of a script or style element. -/
  | rawText
  /-- The name in an end tag. -/
  | endName
  deriving DecidableEq

/-- A token of `size` characters behind `skipped` blanks, and the elements open behind it,
innermost first. -/
structure Sighting where
  token : Token
  skipped : Nat
  size : Nat
  stack : List Element
  deriving DecidableEq

/-- The code points that are passed over before a name: the white space at which lines may be
broken. -/
def separators : Ranges :=
  [(0x9, 0xD), (0x20, 0x20), (0x1680, 0x1680), (0x2000, 0x2006), (0x2008, 0x200A),
   (0x2028, 0x2029), (0x205F, 0x205F), (0x3000, 0x3000)]

/-- A character is passed over before a name. -/
def isSeparator (c : Char) : Bool :=
  separators.has c.toNat

/-! ## Raw text -/

/-- The length of raw text in front of `delimiter`, of which `missing` is still to come. `mark`
characters lie before the attempt under way and `read` before the rest. The text ends with the
delimiter, with the source or at a null character. -/
def rawLength (delimiter missing : List Char) (mark read : Nat) : List Char → Nat
  | [] => mark
  | c :: rest =>
    if c = '\x00' then mark
    else
      match missing with
      | m :: more =>
        if upper c = m.toNat then
          if more.isEmpty then mark else rawLength delimiter more mark (read + 1) rest
        -- The character that does not fit is used up: the next attempt begins behind it.
        else rawLength delimiter delimiter (read + 1) (read + 1) rest
      | [] => mark

/-- What ends the text of an element. -/
def delimiterOf (element : Element) : List Char :=
  if element = .script then "</SCRIPT".toList else "</STYLE".toList

/-- The text of the innermost open element. -/
def rawText? (stack : List Element) (cs : List Char) : Option Sighting :=
  match stack with
  | [] => none
  | top :: _ =>
    let delimiter := delimiterOf top
    some ⟨.rawText, 0, rawLength delimiter delimiter 0 0 cs, stack⟩

/-! ## Comments -/

/-- The length of a comment from behind its opening up to and with the bracket that ends it, which
has at least two hyphens directly before it; `hyphens` stand directly before the text. -/
def commentLength? (hyphens : Nat) : List Char → Option Nat
  | [] => none
  | c :: rest =>
    if c = '\x00' then none
    else if c = '-' then (commentLength? (hyphens + 1) rest).map (· + 1)
    else if c = '>' ∧ 2 ≤ hyphens then some 1
    else (commentLength? 0 rest).map (· + 1)

/-! ## Ends of elements -/

/-- A tag closes the innermost open element without being its end tag. The text is that behind
the bracket of the tag, or what is left where no tag stands. -/
def closesTop (stack : List Element) (cs : List Char) : Bool :=
  match cs with
  | '/' :: rest =>
    let name := nameAt rest
    let element := Element.ofName (.ofChars name)
    if name.isEmpty && rest ≠ [] then false
    else stack.head? ≠ some element && stack.any fun other => other.sameKind element
  | cs =>
    match stack with
    | [] => false
    | top :: _ =>
      let name := nameAt cs
      let element := Element.ofName (.ofChars name)
      let ended := (cs.drop name.length).isEmpty
      top.isVoid || ((!name.isEmpty || ended)
        && (!top.mayContain element || (top.endsWithSource && ended)))

/-- The end of the innermost open element where it has no end tag. -/
def impliedEnd? (stack : List Element) (skipped : Nat) (cs : List Char) : Option Sighting :=
  if closesTop stack cs then some ⟨.impliedEnd, skipped, 0, stack.tail⟩ else none

/-! ## Names -/

/-- The token of a name in a start tag. -/
def startToken (element : Element) : Token :=
  if element = .script then .scriptName
  else if element = .style then .styleName
  else .startName

/-- The name in a start tag, which opens an element. -/
def startName? (stack : List Element) (skipped : Nat) (cs : List Char) : Option Sighting :=
  let name := nameAt cs
  let element := Element.ofName (.ofChars name)
  if name.isEmpty then none
  else some ⟨startToken element, skipped, name.length, element :: stack⟩

/-- The name in an end tag, which closes the innermost open element if it has that name. -/
def endName? (stack : List Element) (skipped : Nat) (cs : List Char) : Option Sighting :=
  let name := nameAt cs
  if name.isEmpty then none
  else if stack.head? = some (Element.ofName (.ofChars name)) then
    some ⟨.endName, skipped, name.length, stack.tail⟩
  else some ⟨.strayName, skipped, name.length, stack⟩

/-! ## Outlooks -/

namespace Outlook

/-- The ends of elements are looked out for. -/
def seesElementEnd : Outlook → Bool
  | anything | elementEnd => true
  | _ => false

/-- The end of a tag that is an element of its own is looked out for. -/
def seesTagEnd : Outlook → Bool
  | anything | tagEnd => true
  | _ => false

/-- What is found at the front of a text that does not start with a separator. -/
def find? (outlook : Outlook) (stack : List Element) (skipped : Nat) (cs : List Char) :
    Option Sighting :=
  match cs with
  | '<' :: '!' :: '-' :: '-' :: rest =>
    (commentLength? 0 rest).map fun n => ⟨.comment, skipped, 4 + n, stack⟩
  | '<' :: '!' :: _ => none
  | '<' :: rest => if outlook.seesElementEnd then impliedEnd? stack skipped rest else none
  | [] => if outlook.seesElementEnd then impliedEnd? stack skipped [] else none
  | '\x00' :: rest =>
    if outlook.seesElementEnd then impliedEnd? stack skipped ('\x00' :: rest) else none
  | '/' :: '>' :: _ =>
    if outlook.seesTagEnd then
      match stack with
      -- Without an open element the brackets are taken for a name.
      | [] => some ⟨.startName, skipped, 2, []⟩
      | _ :: below => some ⟨.selfClose, skipped, 2, below⟩
    else none
  | '/' :: _ => none
  | cs =>
    match outlook with
    | startName => startName? stack skipped cs
    | endName => endName? stack skipped cs
    | _ => none

/-- What is found at the front of a text, given the open elements. -/
def read (outlook : Outlook) (stack : List Element) (cs : List Char) : Option Sighting :=
  if outlook = rawText then rawText? stack cs
  else
    let skipped := (cs.takeWhile isSeparator).length
    outlook.find? stack skipped (cs.drop skipped)

end Outlook

end SfcProxy.Markup
