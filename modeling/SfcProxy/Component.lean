import SfcProxy.ScriptBlock

/-!
# Components

Of the scripts of a component file one is extracted: the last sound one that is no setup script
and is written in the wanted language. The faults of the file are reported beside it.

## Main definitions

* `SyntaxFault`: a fault with its place
* `Extraction`: the block and the faults
* `Component.extract`: the extraction from a component file
-/

namespace SfcProxy

/-- A fault of a component file and its place. -/
structure SyntaxFault where
  kind : Markup.FaultKind
  place : Position
  deriving DecidableEq

/-- The wording of a fault. -/
def SyntaxFault.message (fault : SyntaxFault) : Text :=
  Text.decimal fault.place.line ++ (":" : Text) ++ Text.decimal fault.place.column ++ (": " : Text)
    ++ match fault.kind with
      | .unexpected => ("syntax error" : Text)
      | .missing token => ("missing " : Text) ++ (token.name : Text)

/-- The block of a component file, if there is one, and the faults of the file. -/
structure Extraction where
  block : Option ScriptBlock
  faults : List SyntaxFault
  deriving DecidableEq

/-- All faults in one line. -/
def Extraction.summary (e : Extraction) : Text :=
  Text.join "; " (e.faults.map SyntaxFault.message)

namespace Component

/-- The block of a source between two numbers of characters. -/
def blockBetween (source : List Char) (start finish : Nat)
    (attributes : List (List Char × Markup.Attribute)) : ScriptBlock where
  content := (source.drop start).take (finish - start)
  start := .after (source.take start)
  finish := .after (source.take finish)
  attributes

/-- The block of a script element, if it has a start tag and a sound end tag. -/
def blockOf? (source : List Char) (script : Markup.Node) : Option ScriptBlock :=
  let startTag? := script.children.find? fun n =>
    n.isPhrase .startTag || n.isPhrase .scriptStartTag || n.isPhrase .styleStartTag
  let endTag? := script.children.find? fun n => n.isPhrase .endTag
  match startTag?, endTag? with
  | some startTag, some endTag =>
    if endTag.hasFault then none
    else some (blockBetween source startTag.finish endTag.start (startTag.attributes source))
  | _, _ => none

/-- The block of a script element, if it is the one that is looked for. -/
def candidate? (lang : Text) (source : List Char) (script : Markup.Node) : Option ScriptBlock :=
  (blockOf? source script).filter fun block =>
    !block.isSetup && block.lang?.map Text.ofChars = some lang

/-- The node of a document concerns its scripts: it is one, or it is a fault. -/
def concerns (n : Markup.Node) : Bool :=
  n.isPhrase .scriptElement || n.tree.facts.fault?.isSome

/-- A fault, located in a source. -/
def locate (source : List Char) (fault : Markup.Fault) : SyntaxFault :=
  ⟨fault.kind, .after (source.take fault.start)⟩

/-- The block in the wanted language and the faults of a component file. -/
def extract (lang : Text) (source : List Char) : Extraction :=
  let nodes := (Markup.document source).children
  let scripts := nodes.filter fun n => n.isPhrase .scriptElement
  { block := (scripts.filterMap (candidate? lang source)).getLast?
    faults := ((nodes.filter concerns).flatMap Markup.Node.faults).map (locate source) }

/-- The extraction from a text, which may hold no surrogates. -/
def extractText (lang source : Text) : Except Utf8.EncodeError Extraction :=
  match source.chars? with
  | some cs => .ok (extract lang cs)
  | none => .error (Utf8.firstRun source)

end Component

end SfcProxy
