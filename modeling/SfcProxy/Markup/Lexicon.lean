import SfcProxy.Markup.Symbol

/-!
# Lexicons

Which tokens can be read at a place depends on what stands before it, so there are several
lexicons. Each looks at the front of a text, behind blanks, for one of its tokens and takes the
longest. The tokens that depend on the open elements as well are not among them.

## Main definitions

* `Lexeme`: what a lexicon finds at the front of a text
* `Lexicon`: the lexicons
* `Lexicon.read`: what a lexicon finds
-/

namespace SfcProxy.Markup

/-! ## Characters -/

/-- The white space between tokens: the blank, and the controls from tab to carriage return. -/
def isBlank (c : Char) : Bool :=
  c == ' ' || ('\t' ≤ c && c ≤ '\r')

/-- A character of an attribute value without quotes. -/
def isValueChar (c : Char) : Bool :=
  !(isBlank c || c == '<' || c == '>' || c == '"' || c == '\'' || c == '=' || c == '\x00')

/-- A character of an attribute name. -/
def isAttributeChar (c : Char) : Bool :=
  isValueChar c && c != '/'

/-- A character inside a text. -/
def isTextChar (c : Char) : Bool :=
  !(c == '<' || c == '>' || c == '&' || c == '\x00')

/-- A hexadecimal digit. -/
def isHexDigit (c : Char) : Bool :=
  c.isDigit || ('a' ≤ c && c ≤ 'f') || ('A' ≤ c && c ≤ 'F')

/-! ## Lexemes -/

/-- What a lexicon finds at the front of a text, behind `skipped` blanks: a token of `size`
characters, or none, after looking at `size` characters. -/
structure Lexeme where
  token? : Option Token
  skipped : Nat
  size : Nat
  deriving DecidableEq

/-- The length of the longest prefix that ends with a character other than a blank. -/
def trimmedLength (cs : List Char) : Nat :=
  (cs.reverse.dropWhile isBlank).length

/-- The number of characters at the front that satisfy a test. -/
def countWhile (test : Char → Bool) (cs : List Char) : Nat :=
  (cs.takeWhile test).length

/-- The token and its length, or none and the characters that were looked at. -/
abbrev Found := Option Token × Nat

/-- The digits of a character reference, at most `limit`, and the semicolon that may follow;
`before` characters of it stand in front. -/
def referenceTail (before limit : Nat) (test : Char → Bool) (cs : List Char) : Found :=
  match min limit (countWhile test cs) with
  | 0 => (none, before)
  | n => (some .entity, before + n + if (cs.drop n).head? = some ';' then 1 else 0)

/-- A character reference, from behind its ampersand. -/
def reference : List Char → Found
  | '#' :: 'x' :: rest | '#' :: 'X' :: rest => referenceTail 3 6 isHexDigit rest
  | '#' :: rest => referenceTail 2 5 Char.isDigit rest
  | rest => referenceTail 1 30 Char.isAlpha rest

/-- A token that starts with `<`, from behind it. -/
def bracket : List Char → Found
  | '!' :: _ => (some .declaration, 2)
  | '/' :: _ => (some .endOpening, 2)
  | _ => (some .opening, 1)

/-- A token that starts with `/`, from behind it. -/
def slash : List Char → Found
  | '>' :: _ => (some .selfClose, 2)
  | _ => (none, 1)

/-- The number of characters at the front of a text that spell a word, in any case. -/
def spelled : (word cs : List Char) → Nat
  | w :: word, c :: cs => if c.toUpper = w then spelled word cs + 1 else 0
  | _, _ => 0

/-- The first word of a document type declaration. -/
def doctypeWord (cs : List Char) : Found :=
  match spelled "DOCTYPE".toList cs with
  | 7 => (some .doctypeWord, 7)
  | n => (none, n)

/-- A run of characters as a token. -/
def run (token : Token) (test : Char → Bool) (cs : List Char) : Found :=
  match countWhile test cs with
  | 0 => (none, 0)
  | n => (some token, n)

/-! ## Lexicons -/

/-- The lexicons, by what stands before. -/
inductive Lexicon where
  /-- Brackets, quotes and the words between tags. -/
  | bracket
  /-- The content of an element or of the document. -/
  | content
  /-- The inside of a start tag. -/
  | tag
  /-- An attribute value. -/
  | value
  /-- What stands behind an apostrophe. -/
  | apostrophe
  /-- What stands behind a quote. -/
  | quote
  /-- What stands behind the first word of a declaration. -/
  | declaration
  deriving DecidableEq

namespace Lexicon

/-- The lexicon takes blanks as a part of its tokens. -/
def keepsBlanks : Lexicon → Bool
  | apostrophe | quote | declaration => true
  | _ => false

/-- What a lexicon finds at the very front of a text. -/
def find : Lexicon → List Char → Found
  | bracket, [] | content, [] => (some .finish, 0)
  | _, [] => (none, 0)
  | bracket, c :: rest =>
    match c with
    | '<' => Markup.bracket rest
    | '>' => (some .close, 1)
    | '/' => slash rest
    | '=' => (some .equals, 1)
    | '&' => reference rest
    | '\'' => (some .apostrophe, 1)
    | '"' => (some .quote, 1)
    | _ => doctypeWord (c :: rest)
  | content, c :: rest =>
    match c with
    | '<' => Markup.bracket rest
    | '&' => reference rest
    | _ =>
      match trimmedLength ((c :: rest).takeWhile isTextChar) with
      | 0 => (none, 0)
      | n => (some .text, n)
  | tag, c :: rest =>
    match c with
    | '>' => (some .close, 1)
    | '/' => slash rest
    | '=' => (some .equals, 1)
    | _ => run .attributeName isAttributeChar (c :: rest)
  | value, c :: rest =>
    match c with
    | '\'' => (some .apostrophe, 1)
    | '"' => (some .quote, 1)
    | _ => run .bareValue isValueChar (c :: rest)
  | apostrophe, c :: rest =>
    if c = '\'' then (some .apostrophe, 1)
    else run .apostropheText (fun d => d != '\'' && d != '\x00') (c :: rest)
  | quote, c :: rest =>
    if c = '"' then (some .quote, 1)
    else run .quoteText (fun d => d != '"' && d != '\x00') (c :: rest)
  | declaration, c :: rest =>
    run .declarationText (fun d => d != '>' && d != '\x00') (c :: rest)

/-- What a lexicon finds at the front of a text. -/
def read (lexicon : Lexicon) (cs : List Char) : Lexeme :=
  let skipped := if lexicon.keepsBlanks then 0 else countWhile isBlank cs
  let (token?, size) := lexicon.find (cs.drop skipped)
  ⟨token?, skipped, size⟩

end Lexicon

end SfcProxy.Markup
