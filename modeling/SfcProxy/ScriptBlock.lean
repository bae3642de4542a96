import SfcProxy.Markup.Attribute
import SfcProxy.Text.Utf8

/-!
# Script blocks

A script block is the content of a script element together with its place in the component file.
Lines and columns count from one, and columns count bytes.

## Main definitions

* `Position`: a place in a source text
* `ScriptBlock`: content, place and attributes
* `ScriptBlock.sourceText`: the text of the block as a module of its own
* `ScriptBlock.lineOffset`: the number of lines of the component before that text
-/

namespace SfcProxy

/-- A place in a source text; lines and columns count from one, columns in bytes. -/
structure Position where
  line : Int
  column : Int
  deriving DecidableEq

/-- The place behind a text. -/
def Position.after (before : List Char) : Position where
  line := before.count '\n' + 1
  column := (Utf8.encodeChars (before.reverse.takeWhile (· != '\n')).reverse).length + 1

/-- The content of a script element, where it starts and ends, and its attributes in order. -/
structure ScriptBlock where
  content : List Char
  start : Position
  finish : Position
  attributes : List (List Char × Markup.Attribute)
  deriving DecidableEq

namespace ScriptBlock

/-- The attribute with a name. -/
def attribute? (block : ScriptBlock) (name : String) : Option Markup.Attribute :=
  (block.attributes.find? (·.1 = name.toList)).map (·.2)

/-- The language that the block is written in, if it states one. -/
def lang? (block : ScriptBlock) : Option (List Char) :=
  (block.attribute? "lang").bind Markup.Attribute.text?

/-- The block is a setup script. -/
def isSetup (block : ScriptBlock) : Bool :=
  ((block.attribute? "setup").map Markup.Attribute.isOn).getD false

/-- The content without the line break behind the start tag. -/
def sourceText (block : ScriptBlock) : List Char :=
  match block.content with
  | '\r' :: '\n' :: rest => rest
  | '\n' :: rest => rest
  | content => content

/-- The number of lines of the component before the first line of the source text. -/
def lineOffset (block : ScriptBlock) : Int :=
  if block.sourceText = block.content then block.start.line - 1 else block.start.line

end ScriptBlock

end SfcProxy
