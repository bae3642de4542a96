/-!
# Symbols

The tokens of markup, the phrases that are built of them, and the symbols of a tree, which are
these and the two that stand for faults. Some symbols are hidden: in their place a tree shows
their children.

## Main definitions

* `Token`: the tokens, in the order in which they are tried
* `Phrase`: what tokens are put together to
* `Symbol`: what stands at a node of a tree
* `Symbol.name`, `Symbol.isVisible`: how a tree shows a symbol
-/

namespace SfcProxy.Markup

/-- The tokens of markup. -/
inductive Token where
  | finish
  /-- The brackets `<!`. -/
  | declaration
  /-- What stands in a declaration behind its first word. -/
  | declarationText
  /-- The bracket `>`. -/
  | close
  /-- The first word of a document type declaration. -/
  | doctypeWord
  /-- The bracket `<`. -/
  | opening
  /-- The brackets `/>`. -/
  | selfClose
  /-- The brackets `</`. -/
  | endOpening
  | equals
  | attributeName
  /-- An attribute value without quotes. -/
  | bareValue
  /-- A character reference. -/
  | entity
  | apostrophe
  /-- What stands between apostrophes. -/
  | apostropheText
  | quote
  /-- What stands between quotes. -/
  | quoteText
  | text
  | startName
  /-- The name of a script element in its start tag. -/
  | scriptName
  /-- The name of a style element in its start tag. -/
  | styleName
  /-- The name in the end tag of the innermost open element. -/
  | endName
  /-- The name in an end tag that belongs to no open element. -/
  | strayName
  /-- An element ends without an end tag. -/
  | impliedEnd
  /-- The text of a script or style element. -/
  | rawText
  | comment
  deriving DecidableEq, Repr

/-- All tokens but the end of the source, in the order in which they are tried. -/
def Token.all : List Token :=
  [.declaration, .declarationText, .close, .doctypeWord, .opening, .selfClose, .endOpening,
    .equals, .attributeName, .bareValue, .entity, .apostrophe, .apostropheText, .quote, .quoteText,
    .text, .startName, .scriptName, .styleName, .endName, .strayName, .impliedEnd, .rawText,
    .comment]

/-- What tokens are put together to. -/
inductive Phrase where
  | document
  | doctype
  | element
  | scriptElement
  | styleElement
  | startTag
  | scriptStartTag
  | styleStartTag
  | selfClosingTag
  | endTag
  /-- An end tag that belongs to no open element. -/
  | strayEndTag
  | attribute
  /-- An attribute value with its quotes. -/
  | quotedValue
  /-- A run of nodes. -/
  | nodes
  /-- A run of attributes. -/
  | attributes
  deriving DecidableEq, Repr

/-- What stands at a node of a tree. -/
inductive Symbol where
  | token (token : Token)
  | phrase (phrase : Phrase)
  /-- A stretch that fits nowhere. -/
  | fault
  /-- A part of such a stretch while it still grows. -/
  | faultRun
  deriving DecidableEq, Repr

/-- The name of a token in a tree. -/
def Token.name : Token → String
  | finish => "end"
  | declaration => "<!"
  | declarationText => "doctype_token1"
  | close => ">"
  | doctypeWord => "doctype"
  | opening => "<"
  | selfClose => "/>"
  | endOpening => "</"
  | equals => "="
  | attributeName => "attribute_name"
  | bareValue | apostropheText | quoteText => "attribute_value"
  | entity => "entity"
  | apostrophe => "'"
  | quote => "\""
  | text => "text"
  | startName | scriptName | styleName | endName => "tag_name"
  | strayName => "erroneous_end_tag_name"
  | impliedEnd => "_implicit_end_tag"
  | rawText => "raw_text"
  | comment => "comment"

namespace Symbol

/-- A tree shows the symbol, not its children in its place. -/
def isVisible : Symbol → Bool
  | token .finish | token .declarationText | token .impliedEnd => false
  | phrase .nodes | phrase .attributes => false
  | faultRun => false
  | _ => true

/-- The symbol is one of those for faults. -/
def isFaulty : Symbol → Bool
  | fault | faultRun => true
  | _ => false

/-- The symbol weighs something where it stands in a fault. -/
def weighsInFault : Symbol → Bool
  | token .scriptName | token .styleName => false
  | s => s.isVisible

/-- The place of a symbol in the order of symbols: first the tokens, then the phrases. -/
def rank : Symbol → Nat
  | token .finish => 0
  | token t => 1 + Token.all.findIdx (· == t)
  | phrase p => 25 + p.ctorIdx
  | faultRun => 0xFFFE
  | fault => 0xFFFF

end Symbol

end SfcProxy.Markup
