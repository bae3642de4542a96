import SfcProxy.Markup.Lexicon
import SfcProxy.Markup.Outlook

/-!
# The states of reading

Markup is read from left to right. A state says what has been read of the phrases under way, and
with the next token decides what is done: a token is taken in, or a phrase is complete. The states
inside an element are those of the document with one difference in what may follow, so they are
told apart by a level.

## Main definitions

* `State`: what has been read of the phrases under way
* `State.shift?`: the state behind a token
* `State.reduction?`: the phrase that is complete before a token
* `State.goto?`: the state behind a phrase
* `State.action?`: what is done with a token
* `State.lexicon`, `State.outlook`: which tokens are looked for
-/

namespace SfcProxy.Markup

/-- Where a node stands: in the document itself or in an element. -/
inductive Level where
  | top
  | inner
  deriving DecidableEq

/-- The two elements whose content is text without markup. -/
inductive RawKind where
  | script
  | style
  deriving DecidableEq

/-- The start tags: those of elements with raw text cannot be elements of their own. -/
inductive TagKind where
  | plain
  | raw
  deriving DecidableEq

/-- What may stand behind a phrase. -/
inductive Follow where
  | node (level : Level)
  | tagPart (kind : TagKind)
  /-- The text of a script or style element, or its end tag. -/
  | rawText
  deriving DecidableEq

/-- What has been read of the phrases under way. -/
inductive State where
  /-- What was read fits nowhere. -/
  | fault
  | start
  /-- A run of nodes of the document. -/
  | nodes
  /-- Two runs of nodes. -/
  | moreNodes (level : Level)
  /-- The start tag of an element at a level. -/
  | opened (level : Level)
  /-- A start tag and a run of nodes. -/
  | filled (level : Level)
  /-- The start tag of an element with raw text. -/
  | rawOpened (kind : RawKind) (level : Level)
  /-- Such a tag and the text. -/
  | rawFilled (kind : RawKind) (level : Level)
  /-- The whole document. -/
  | finished
  /-- All parts of a phrase. -/
  | built (phrase : Phrase) (size : Nat) (follow : Follow)
  /-- The bracket of a start tag. -/
  | tagOpen (level : Level)
  /-- A bracket and a name. -/
  | tagNamed (level : Level)
  /-- A bracket, a name and a run of attributes. -/
  | tagFilled (level : Level)
  | rawTagNamed (kind : RawKind)
  | rawTagFilled (kind : RawKind)
  /-- Two runs of attributes. -/
  | moreAttributes (kind : TagKind)
  | attributeName (kind : TagKind)
  /-- A name and an equals sign. -/
  | attributeEquals (kind : TagKind)
  | apostrophe (kind : TagKind)
  | apostropheText (kind : TagKind)
  | quote (kind : TagKind)
  | quoteText (kind : TagKind)
  /-- The bracket of an end tag inside an element at a level. -/
  | endOpen (level : Level)
  /-- The bracket of an end tag where no element can end. -/
  | strayOpen (level : Level)
  /-- The bracket of an end tag behind raw text. -/
  | rawEndOpen (level : Level)
  | endNamed (level : Level)
  | strayNamed (level : Level)
  /-- The bracket of a declaration. -/
  | declaration (level : Level)
  | doctypeWord (level : Level)
  | doctypeText (level : Level)
  deriving DecidableEq

/-- The phrase of an element with raw text. -/
def RawKind.element : RawKind → Phrase
  | script => .scriptElement
  | style => .styleElement

/-- The phrase of the start tag of an element with raw text. -/
def RawKind.startTag : RawKind → Phrase
  | script => .scriptStartTag
  | style => .styleStartTag

/-- A token can stand behind a phrase. -/
def Follow.admits : Follow → Token → Bool
  | node .top, t => t ∈ [.declaration, .opening, .endOpening, .finish, .text, .entity]
  | node .inner, t => t ∈ [.declaration, .opening, .endOpening, .impliedEnd, .text, .entity]
  | tagPart .plain, t => t ∈ [.close, .selfClose, .attributeName]
  | tagPart .raw, t => t ∈ [.close, .attributeName]
  | rawText, t => t ∈ [.endOpening, .rawText]

namespace State

/-! ## Content -/

/-- The level of the nodes that may come next, if there may be any. -/
def contentLevel? : State → Option Level
  | start | nodes | moreNodes .top => some .top
  | moreNodes .inner | opened _ | filled _ => some .inner
  | _ => none

/-- The state behind a node. -/
def behindNode? : State → Option State
  | start => some nodes
  | nodes => some (moreNodes .top)
  | moreNodes level => some (moreNodes level)
  | opened level => some (filled level)
  | filled _ => some (moreNodes .inner)
  | _ => none

/-- The state behind the bracket of an end tag. -/
def behindEndOpening? : State → Option State
  | start | nodes => some (strayOpen .top)
  | moreNodes level => some (strayOpen level)
  | opened level | filled level => some (endOpen level)
  | rawOpened _ level | rawFilled _ level => some (rawEndOpen level)
  | _ => none

/-- The state behind the end of an element, which its end tag is or which is implied. -/
def behindEnd? : State → Option State
  | opened level => some (built .element 2 (.node level))
  | filled level => some (built .element 3 (.node level))
  | _ => none

/-! ## Tokens -/

/-- The state behind a token. -/
def shift? : State → Token → Option State
  | s, .endOpening => s.behindEndOpening?
  | s, .text | s, .entity => s.behindNode?
  | s, .opening => s.contentLevel?.map tagOpen
  | s, .declaration => s.contentLevel?.map declaration
  | s, .impliedEnd => s.behindEnd?
  | rawOpened kind level, .rawText => some (rawFilled kind level)
  | tagOpen level, .startName => some (tagNamed level)
  | tagOpen _, .scriptName => some (rawTagNamed .script)
  | tagOpen _, .styleName => some (rawTagNamed .style)
  | tagNamed _, .close => some (built .startTag 3 (.node .inner))
  | tagFilled _, .close => some (built .startTag 4 (.node .inner))
  | tagNamed level, .selfClose => some (built .selfClosingTag 3 (.node level))
  | tagFilled level, .selfClose => some (built .selfClosingTag 4 (.node level))
  | rawTagNamed kind, .close => some (built kind.startTag 3 .rawText)
  | rawTagFilled kind, .close => some (built kind.startTag 4 .rawText)
  | tagNamed _, .attributeName | tagFilled _, .attributeName => some (attributeName .plain)
  | rawTagNamed _, .attributeName | rawTagFilled _, .attributeName => some (attributeName .raw)
  | moreAttributes kind, .attributeName => some (attributeName kind)
  | attributeName kind, .equals => some (attributeEquals kind)
  | attributeEquals kind, .bareValue => some (built .attribute 3 (.tagPart kind))
  | attributeEquals kind, .apostrophe => some (apostrophe kind)
  | attributeEquals kind, .quote => some (quote kind)
  | apostrophe kind, .apostrophe => some (built .quotedValue 2 (.tagPart kind))
  | apostrophe kind, .apostropheText => some (apostropheText kind)
  | apostropheText kind, .apostrophe => some (built .quotedValue 3 (.tagPart kind))
  | quote kind, .quote => some (built .quotedValue 2 (.tagPart kind))
  | quote kind, .quoteText => some (quoteText kind)
  | quoteText kind, .quote => some (built .quotedValue 3 (.tagPart kind))
  | endOpen level, .endName | rawEndOpen level, .endName => some (endNamed level)
  | endOpen _, .strayName => some (strayNamed .inner)
  | strayOpen level, .strayName => some (strayNamed level)
  | endNamed level, .close => some (built .endTag 3 (.node level))
  | strayNamed level, .close => some (built .strayEndTag 3 (.node level))
  | declaration level, .doctypeWord => some (doctypeWord level)
  | doctypeWord level, .declarationText => some (doctypeText level)
  | doctypeText level, .close => some (built .doctype 4 (.node level))
  | _, _ => none

/-- The phrase that is complete before a token, and the number of its parts. -/
def reduction? : State → Token → Option (Phrase × Nat)
  | built phrase size follow, t => if follow.admits t then some (phrase, size) else none
  | start, .finish => some (.document, 0)
  | nodes, .finish => some (.document, 1)
  | moreNodes level, t => if (Follow.node level).admits t then some (.nodes, 2) else none
  | moreAttributes kind, t =>
    if (Follow.tagPart kind).admits t then some (.attributes, 2) else none
  | attributeName kind, t =>
    if (Follow.tagPart kind).admits t then some (.attribute, 1) else none
  | _, _ => none

/-! ## Phrases -/

/-- The state behind a phrase. -/
def goto? : State → Phrase → Option State
  | start, .document => some finished
  | s, .doctype | s, .element | s, .scriptElement | s, .styleElement | s, .strayEndTag
  | s, .nodes => s.behindNode?
  | s, .startTag => s.contentLevel?.map opened
  | s, .scriptStartTag => s.contentLevel?.map (rawOpened .script)
  | s, .styleStartTag => s.contentLevel?.map (rawOpened .style)
  | s, .selfClosingTag => s.contentLevel?.map fun level => built .element 1 (.node level)
  | rawOpened kind level, .endTag => some (built kind.element 2 (.node level))
  | rawFilled kind level, .endTag => some (built kind.element 3 (.node level))
  | s, .endTag => s.behindEnd?
  | tagNamed level, .attribute | tagNamed level, .attributes => some (tagFilled level)
  | tagFilled _, .attribute | tagFilled _, .attributes => some (moreAttributes .plain)
  | rawTagNamed kind, .attribute | rawTagNamed kind, .attributes => some (rawTagFilled kind)
  | rawTagFilled _, .attribute | rawTagFilled _, .attributes => some (moreAttributes .raw)
  | moreAttributes kind, .attribute | moreAttributes kind, .attributes =>
    some (moreAttributes kind)
  | attributeEquals kind, .quotedValue => some (built .attribute 3 (.tagPart kind))
  | _, _ => none

/-! ## Actions -/

end State

/-- What is done with a token. -/
inductive Action where
  /-- The token is taken in. -/
  | shift (next : State)
  /-- The token is taken in without a change of state. -/
  | pass
  /-- A phrase is complete. -/
  | reduce (phrase : Phrase) (size : Nat)
  | accept
  /-- Reading has to be taken up again behind a fault. -/
  | recover
  deriving DecidableEq

namespace State

/-- The tokens with which reading can be taken up behind a fault; the others could be anything. -/
def resumesWith (t : Token) : Bool :=
  !(t ∈ [.declarationText, .attributeName, .bareValue, .apostropheText, .quoteText, .text])

/-- What is done with a token. Where a run of nodes or attributes goes on, the run so far is
put together first. -/
def action? (s : State) (t : Token) : Option Action :=
  if t = .comment then some .pass
  else if s = fault then if resumesWith t then some .recover else none
  else if s = finished then if t = .finish then some .accept else none
  else
    match s.reduction? t with
    | some (phrase, size) => some (.reduce phrase size)
    | none => (s.shift? t).map .shift

/-- The state behind a token, where it can be taken in. -/
def next? (s : State) (t : Token) : Option State :=
  if t = .comment then some s else s.shift? t

/-! ## Lexicons and outlooks -/

/-- The lexicon of a state. -/
def lexicon : State → Lexicon
  | start | nodes | moreNodes _ | opened _ | filled _ => .content
  | built _ _ (.node _) => .content
  | built _ _ (.tagPart _) => .tag
  | tagNamed _ | tagFilled _ | rawTagNamed _ | rawTagFilled _ | moreAttributes _
  | attributeName _ => .tag
  | attributeEquals _ => .value
  | apostrophe _ => .apostrophe
  | quote _ => .quote
  | doctypeWord _ => .declaration
  | _ => .bracket

/-- The outlook of a state. -/
def outlook : State → Outlook
  | fault => .anything
  | moreNodes .inner | opened _ | filled _ | built _ _ (.node .inner) => .elementEnd
  | built _ _ (.tagPart .plain) => .tagEnd
  | tagNamed _ | tagFilled _ | moreAttributes .plain | attributeName .plain => .tagEnd
  | tagOpen _ => .startName
  | rawOpened _ _ | built _ _ .rawText => .rawText
  | endOpen _ | rawEndOpen _ => .endName
  | _ => .comments

end State

end SfcProxy.Markup
