import SfcProxy.FileTree
import SfcProxy.Tool.Utility.Exchange

/-!
# Patterns of the shell

Patterns match whole texts: a star stands for any text, a question mark for any byte, and brackets
for one byte of a set. Quoted characters stand for themselves.

## Main definitions

* `Pattern.Glyph`: a character of a pattern, which may be quoted
* `Pattern.ofGlyphs`: the pattern that characters make up
* `Pattern.accepts`: whether a pattern matches a text
* `Pattern.trimStart`, `Pattern.trimEnd`: a text without a part that matches
* `Pattern.files`: the names of files that match
-/

namespace SfcProxy.Tool.Pattern

/-- A character of a pattern, and whether it is quoted. -/
abbrev Glyph := Char × Bool

/-- A member of a set in brackets. -/
inductive Member where
  | range (low high : Char)
  | charClass (name : String)
  deriving DecidableEq

/-- An item of a pattern. -/
inductive Item where
  | one (c : Char)
  | any
  | star
  | set (negated : Bool) (members : List Member)
  deriving DecidableEq

/-! ## Reading -/

/-- The members of a set up to its closing bracket, which is no member unless it comes first. -/
def members (isFirst : Bool) : (budget : Nat) → List Glyph → Option (List Member × List Glyph)
  | 0, _ => none
  | budget + 1, gs =>
    match gs with
    | [] => none
    | (']', false) :: rest =>
      if isFirst then do
        let (more, rest) ← members false budget rest
        return (.range ']' ']' :: more, rest)
      else some ([], rest)
    | ('[', false) :: (':', false) :: rest =>
      let name := (rest.takeWhile fun g => g.1 ≠ ':').map (·.1)
      match rest.drop name.length with
      | (':', _) :: (']', _) :: rest => do
        let (more, rest) ← members false budget rest
        return (.charClass (String.ofList name) :: more, rest)
      | _ => do
        let (more, rest) ← members false budget ((':', false) :: rest)
        return (.range '[' '[' :: more, rest)
    | (low, _) :: rest =>
      match rest with
      | ('-', false) :: (high, quoted) :: rest =>
        if high = ']' && !quoted then do
          let (more, rest) ← members false budget ((high, quoted) :: rest)
          return (.range low low :: .range '-' '-' :: more, rest)
        else do
          let (more, rest) ← members false budget rest
          return (.range low high :: more, rest)
      | rest => do
        let (more, rest) ← members false budget rest
        return (.range low low :: more, rest)

/-- The pattern that characters make up, at most `budget` items. -/
def ofGlyphsFrom : (budget : Nat) → List Glyph → List Item
  | 0, _ => []
  | _, [] => []
  | budget + 1, ('*', false) :: rest => .star :: ofGlyphsFrom budget rest
  | budget + 1, ('?', false) :: rest => .any :: ofGlyphsFrom budget rest
  | budget + 1, ('[', false) :: rest =>
    let (negated, inner) := match rest with
      | ('!', false) :: inner | ('^', false) :: inner => (true, inner)
      | _ => (false, rest)
    match members true (inner.length + 1) inner with
    | some (ms, rest) => .set negated ms :: ofGlyphsFrom budget rest
    | none => .one '[' :: ofGlyphsFrom budget rest
  | budget + 1, (c, _) :: rest => .one c :: ofGlyphsFrom budget rest

/-- The pattern that characters make up. -/
def ofGlyphs (gs : List Glyph) : List Item :=
  ofGlyphsFrom (gs.length + 1) gs

/-! ## Matching -/

/-- A member holds a byte. -/
def Member.holds (c : Char) : Member → Bool
  | range low high => low.toNat ≤ c.toNat && c.toNat ≤ high.toNat
  | charClass name => ((Exchange.classTest? name).getD fun _ => false) c

/-- A pattern matches a whole text. -/
def accepts : List Item → Octets → Bool
  | [], s => s.isEmpty
  | .star :: items, [] => accepts items []
  | .star :: items, c :: s => accepts items (c :: s) || accepts (.star :: items) s
  | _ :: _, [] => false
  | .one d :: items, c :: s => c == d && accepts items s
  | .any :: items, _ :: s => accepts items s
  | .set negated ms :: items, c :: s => (ms.any (·.holds c)) != negated && accepts items s
termination_by items s => items.length + s.length

/-- A text without the shortest or longest part at its start that matches. -/
def trimStart (longest : Bool) (pattern : List Item) (s : Octets) : Octets :=
  let cuts := List.range (s.length + 1)
  match (if longest then cuts.reverse else cuts).find? fun n => accepts pattern (s.take n) with
  | some n => s.drop n
  | none => s

/-- A text without the shortest or longest part at its end that matches. -/
def trimEnd (longest : Bool) (pattern : List Item) (s : Octets) : Octets :=
  let cuts := List.range (s.length + 1)
  match (if longest then cuts else cuts.reverse).find? fun n => accepts pattern (s.drop n) with
  | some n => s.take n
  | none => s

/-! ## Files -/

/-- A character of a pattern stands for more than itself. -/
def isWild (g : Glyph) : Bool :=
  !g.2 && (g.1 == '*' || g.1 == '?' || g.1 == '[')

/-- Characters cut at slashes. -/
def components : List Glyph → List (List Glyph)
  | [] => [[]]
  | g :: rest =>
    match components rest with
    | [] => [[g]]
    | part :: parts => if g.1 = '/' then [] :: part :: parts else (g :: part) :: parts

/-- The files that match components below a directory, which is written as `written`. -/
def filesBelow (tree : FileTree) (at_ : Location) (written : Octets) :
    List (List Glyph) → List Octets
  | [] => if written.isEmpty then [] else [written]
  | part :: parts =>
    let below (name : Text) : Location := if name = "." then at_ else if name = ".." then at_.dropLast
      else at_ ++ [name]
    let go (name : Octets) : List Octets :=
      let location := below name.text
      match tree.node? location with
      | none => []
      | some node =>
        if parts.isEmpty then [written ++ name]
        else if node = .directory then filesBelow tree location (written ++ name ++ ['/']) parts
        else []
    if part.isEmpty then
      if parts.isEmpty then [written] else filesBelow tree at_ (written ++ ['/']) parts
    else if part.any isWild then
      let pattern := ofGlyphs part
      let names := ((tree.names at_).mergeSort Text.le).map Octets.ofText
      (names.filter fun name =>
        accepts pattern name && (name.head? ≠ some '.' || part.head?.any fun g => g.1 == '.')).flatMap go
    else go (part.map (·.1))

/-- The names of files that a word matches; without any it stands for itself. -/
def files (tree : FileTree) (gs : List Glyph) : List Octets :=
  let plain := gs.map (·.1)
  if !gs.any isWild then [plain]
  else
    let found := match components gs with
      | [] :: parts => filesBelow tree [] ['/'] parts
      | parts => filesBelow tree tree.cwd [] parts
    if found.isEmpty then [plain] else found

end SfcProxy.Tool.Pattern
