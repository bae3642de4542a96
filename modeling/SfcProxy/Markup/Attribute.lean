import SfcProxy.Markup.Document

/-!
# Attributes

The attributes of a start tag, in the order in which they are first named.

## Main definitions

* `Attribute`: the value of an attribute
* `Attribute.distinct`: attributes without repetitions
* `Node.attributes`: the attributes of a start tag
-/

namespace SfcProxy.Markup

/-- The value of an attribute: a text, or a switch where no text is given. -/
inductive Attribute where
  | text (value : List Char)
  | switch (on : Bool)
  deriving DecidableEq

namespace Attribute

/-- The text of an attribute that has one. -/
def text? : Attribute → Option (List Char)
  | text value => some value
  | switch _ => none

/-- The attribute is switched on: it has a text that is not empty, or none and is on. -/
def isOn : Attribute → Bool
  | text value => !value.isEmpty
  | switch on => on

/-- The attribute with a text as written; an empty text only switches it on. -/
def ofWritten (value : List Char) : Attribute :=
  if value.isEmpty then switch true else text value

/-- Gives an attribute a value: in its place if it is there, else at the end. -/
def set {α : Type} [DecidableEq α] (name : α) (value : Attribute) :
    List (α × Attribute) → List (α × Attribute)
  | [] => [(name, value)]
  | (other, old) :: rest =>
    if other = name then (name, value) :: rest else (other, old) :: set name value rest

/-- Attributes without repetitions: a name keeps its first place and its last value. -/
def distinct {α : Type} [DecidableEq α] (attributes : List (α × Attribute)) :
    List (α × Attribute) :=
  attributes.foldl (fun kept (name, value) => set name value kept) []

end Attribute

namespace Node

/-- The value that a part of an attribute gives it. -/
def attributeValue? (source : List Char) (part : Node) : Option Attribute :=
  match part.tree.symbol with
  | .token .bareValue | .token .apostropheText | .token .quoteText =>
    some (.ofWritten (part.text source))
  | .phrase .quotedValue =>
    let inner := part.children.find? fun n => n.isToken .apostropheText || n.isToken .quoteText
      || n.isToken .bareValue
    some ((inner.map fun n => .text (n.text source)).getD (.switch true))
  | _ => none

/-- The name and value of an attribute; one without a name counts for nothing. -/
def attribute? (source : List Char) (n : Node) : Option (List Char × Attribute) :=
  let names := n.children.filter fun part => part.isToken .attributeName
  let values := n.children.filterMap (attributeValue? source)
  match (names.getLast?.map fun part => part.text source).getD [] with
  | [] => none
  | name => some (name, values.getLast?.getD (.switch true))

/-- The attributes of a start tag. -/
def attributes (source : List Char) (tag : Node) : List (List Char × Attribute) :=
  Attribute.distinct ((tag.children.filter fun n => n.isPhrase .attribute).filterMap (attribute? source))

end Node

end SfcProxy.Markup
