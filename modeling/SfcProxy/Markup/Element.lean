import SfcProxy.Text.Alphanumeric
import SfcProxy.Text.Casing

/-!
# Elements

Elements are told apart by their names in upper case, of which only the low byte of each code
point counts. The elements of the language have rules: a few never have content, and a few may
not contain certain others, so that the start of one ends the other. All other elements are
custom; they have no rules.

## Main definitions

* `Name`, `nameAt`: element names, and the name at the front of a text
* `Element`: an element as it is remembered while it is open
* `Element.isVoid`, `Element.mayContain`: the two rules of content
* `Element.sameKind`: what an end tag looks for among the open elements
* `remembered`: what is kept of a stack of open elements
-/

namespace SfcProxy.Markup

/-! ## Names -/

/-- A character of an element name: a letter or digit of any script, a hyphen or a colon. -/
def isNameChar (c : Char) : Bool :=
  if c.toNat < 0x80 then c.isAlphanum || c == '-' || c == ':' else Text.isAlphanumeric c.toNat

/-- The upper-case code point of a character. -/
def upper (c : Char) : Nat :=
  if c.toNat < 0x80 then c.toUpper.toNat else upperCodePoint c.toNat

/-- An element name: the low bytes of its code points in upper case. -/
abbrev Name := List UInt8

/-- The name that is spelled by a text. -/
def Name.ofChars (cs : List Char) : Name :=
  cs.map fun c => UInt8.ofNat (upper c)

/-- The name that is spelled by a string. -/
def Name.ofString (s : String) : Name :=
  Name.ofChars s.toList

/-- The characters of the element name at the front of a text; there may be none. -/
def nameAt (cs : List Char) : List Char :=
  cs.takeWhile isNameChar

/-! ## Elements -/

/-- The elements without content. -/
def voidNames : List Name :=
  ["AREA", "BASE", "BASEFONT", "BGSOUND", "BR", "COL", "COMMAND", "EMBED", "FRAME", "HR", "IMAGE",
    "IMG", "INPUT", "ISINDEX", "KEYGEN", "LINK", "MENUITEM", "META", "NEXTID", "PARAM", "SOURCE",
    "TRACK", "WBR"].map Name.ofString

/-- The further elements of the language. -/
def otherNames : List Name :=
  ["A", "ABBR", "ADDRESS", "ARTICLE", "ASIDE", "AUDIO", "B", "BDI", "BDO", "BLOCKQUOTE", "BODY",
    "BUTTON", "CANVAS", "CAPTION", "CITE", "CODE", "COLGROUP", "DATA", "DATALIST", "DD", "DEL",
    "DETAILS", "DFN", "DIALOG", "DIV", "DL", "DT", "EM", "FIELDSET", "FIGCAPTION", "FIGURE",
    "FOOTER", "FORM", "H1", "H2", "H3", "H4", "H5", "H6", "HEAD", "HEADER", "HGROUP", "HTML", "I",
    "IFRAME", "INS", "KBD", "LABEL", "LEGEND", "LI", "MAIN", "MAP", "MARK", "MATH", "MENU", "METER",
    "NAV", "NOSCRIPT", "OBJECT", "OL", "OPTGROUP", "OPTION", "OUTPUT", "P", "PICTURE", "PRE",
    "PROGRESS", "Q", "RB", "RP", "RT", "RTC", "RUBY", "S", "SAMP", "SCRIPT", "SECTION", "SELECT",
    "SLOT", "SMALL", "SPAN", "STRONG", "STYLE", "SUB", "SUMMARY", "SUP", "SVG", "TABLE", "TBODY",
    "TD", "TEMPLATE", "TEXTAREA", "TFOOT", "TH", "THEAD", "TIME", "TITLE", "TR", "U", "UL", "VAR",
    "VIDEO"].map Name.ofString

/-- An element as it is remembered while it is open. -/
inductive Element where
  /-- An element of the language. -/
  | known (name : Name)
  | custom (name : Name)
  /-- An element of which only that it is open is remembered. -/
  | forgotten
  deriving DecidableEq

namespace Element

/-- The element with a name. -/
def ofName (name : Name) : Element :=
  if voidNames.contains name || otherNames.contains name then known name else custom name

/-- The script element. -/
def script : Element := known (Name.ofString "SCRIPT")

/-- The style element. -/
def style : Element := known (Name.ofString "STYLE")

/-- Two elements are of one kind: they are the same element of the language, or both custom. -/
def sameKind : Element → Element → Bool
  | known a, known b => a == b
  | custom _, custom _ => true
  | _, _ => false

/-- The element has no content. -/
def isVoid : Element → Bool
  | known name => voidNames.contains name
  | _ => false

/-- The element ends with the source. -/
def endsWithSource : Element → Bool
  | known name => ["HTML", "HEAD", "BODY"].any fun n => Name.ofString n == name
  | _ => false

/-- The elements that end a paragraph. -/
def paragraphEnders : List Name :=
  ["ADDRESS", "ARTICLE", "ASIDE", "BLOCKQUOTE", "DETAILS", "DIV", "DL", "FIELDSET", "FIGCAPTION",
    "FIGURE", "FOOTER", "FORM", "H1", "H2", "H3", "H4", "H5", "H6", "HEADER", "HR", "MAIN", "NAV",
    "OL", "P", "PRE", "SECTION"].map Name.ofString

/-- Groups of elements, each with those that end it by starting. -/
def exclusions : List (List Name × List Name) :=
  [(["LI"], ["LI"]),
    (["DT", "DD"], ["DT", "DD"]),
    (["RB", "RT", "RP"], ["RB", "RT", "RP"]),
    (["OPTGROUP"], ["OPTGROUP"]),
    (["TR"], ["TR"]),
    (["TD", "TH"], ["TD", "TH", "TR"])].map fun (parents, children) =>
      (parents.map Name.ofString, children.map Name.ofString)

/-- An element of the language may contain another element. -/
def nameMayContain (parent : Name) (child : Element) : Bool :=
  let childIn (names : List Name) : Bool := names.any fun name => child = known name
  if parent == Name.ofString "COLGROUP" then childIn [Name.ofString "COL"]
  else if parent == Name.ofString "P" then !childIn paragraphEnders
  else !exclusions.any fun (parents, children) => parents.contains parent && childIn children

/-- An element may stand directly inside another. -/
def mayContain : Element → Element → Bool
  | known name, child => nameMayContain name child
  | _, _ => true

/-! ## Open elements -/

/-- The bytes that the memory of an element takes. -/
def weight : Element → Nat
  | custom name => 2 + min 255 name.length
  | _ => 1

/-- The element as far as it is remembered: the first 255 bytes of a custom name. -/
def clipped : Element → Element
  | custom name => custom (name.take 255)
  | element => element

end Element

/-- The elements, outermost first, that fit into memory of which `used` bytes are taken; the
elements from the first that does not fit on are forgotten. -/
def fitting (used : Nat) : List Element → List Element
  | [] => []
  | element :: inner =>
    if used + element.weight < 1024 then element.clipped :: fitting (used + element.weight) inner
    else (element :: inner).map fun _ => .forgotten

/-- What is remembered of the open elements, innermost first, from one token to the next. -/
def remembered (stack : List Element) : List Element :=
  (fitting 4 (stack.reverse.take 65535)).reverse

end SfcProxy.Markup
