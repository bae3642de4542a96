import SfcProxy.Text.Utf8

/-!
# Extents and places

How long a stretch of a source is, counted in characters, bytes and line breaks, and the places
in a source.

## Main definitions

* `Extent`: the length of a stretch
* `Place`: a place in a source, with what follows it
* `Place.move`: the place some characters further
-/

namespace SfcProxy.Markup

/-- The length of a stretch of a source in characters, bytes and line breaks. -/
structure Extent where
  chars : Nat
  bytes : Nat
  lines : Nat
  deriving DecidableEq

namespace Extent

/-- The length of nothing. -/
def zero : Extent := ⟨0, 0, 0⟩

instance : Add Extent where
  add a b := ⟨a.chars + b.chars, a.bytes + b.bytes, a.lines + b.lines⟩

instance : Sub Extent where
  sub a b := ⟨a.chars - b.chars, a.bytes - b.bytes, a.lines - b.lines⟩

/-- The length of one character. -/
def ofChar (c : Char) : Extent :=
  ⟨1, c.utf8Size, if c = '\n' then 1 else 0⟩

/-- The length of a text. -/
def ofChars (cs : List Char) : Extent :=
  cs.foldl (fun extent c => extent + ofChar c) zero

end Extent

/-- A place in a source: how much lies before it, and what follows. -/
structure Place where
  before : Extent
  rest : List Char
  deriving DecidableEq

namespace Place

/-- The place at the start of a source. -/
def start (source : List Char) : Place :=
  ⟨.zero, source⟩

/-- The place a number of characters further on. -/
def move (place : Place) : Nat → Place
  | 0 => place
  | n + 1 =>
    match place.rest with
    | [] => place
    | c :: rest => (Place.mk (place.before + .ofChar c) rest).move n

/-- The number of characters of a byte order mark at the place, which is one only at the start of
the source. -/
def markLength (place : Place) : Nat :=
  if place.before.chars = 0 && place.rest.head? == some '\uFEFF' then 1 else 0

end Place

end SfcProxy.Markup
