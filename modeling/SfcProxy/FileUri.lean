import SfcProxy.Host
import SfcProxy.Path
import SfcProxy.Text.Casing
import SfcProxy.Text.Utf8

/-!
# File URIs

Documents are named by `file:` URIs. The path in such a URI is percent-encoded UTF-8; a host in
front of it becomes the first component behind two slashes, and a drive letter is written in
lower case.

## Main definitions

* `FileUri.toPath?`: the path of a file URI
* `FileUri.ofPath`: the file URI of a path
* `FileUri.isComponent`: the URI names a component file
-/

namespace SfcProxy.FileUri

/-! ## Errors -/

/-- Why a URI has no path, or a path no URI. -/
inductive Error where
  /-- Brackets that have no partner, or text beside them. -/
  | brackets
  | badHost (fault : Host.Fault)
  /-- A host with characters that compatibility folding turns into delimiters. -/
  | folding (host : Text)
  /-- Two slashes in front of a single component. -/
  | bareHost
  /-- A path with surrogates. -/
  | surrogates (error : Utf8.EncodeError)
  /-- No path at all. -/
  | noPath
  deriving DecidableEq

/-- The wording of an error. -/
def Error.message : Error → Text
  | brackets => "Invalid IPv6 URL"
  | badHost fault => fault.message
  | folding host =>
    ("netloc '" : Text) ++ host
      ++ ("' contains invalid characters under NFKC normalization" : Text)
  | bareHost => "substring not found"
  | surrogates error => error.message
  | noPath => "expected str, bytes or os.PathLike object, not NoneType"

/-! ## Percent coding -/

/-- A unit of ASCII. -/
def isAscii (u : TextUnit) : Bool :=
  u.codePoint < 0x80

/-- The bytes of ASCII text whose escapes are undone; what is no escape stays. -/
def unescapeBytes : Text → List UInt8
  | .scalar '%' :: .scalar a :: .scalar b :: rest =>
    match Json.hexDigit? a, Json.hexDigit? b with
    | some x, some y => UInt8.ofNat (x * 16 + y) :: unescapeBytes rest
    | _, _ => 37 :: unescapeBytes (.scalar a :: .scalar b :: rest)
  | u :: rest => UInt8.ofNat u.codePoint :: unescapeBytes rest
  | [] => []

/-- Undoes the escapes in a text, run by run of ASCII; `run` is the run so far, last unit
first. -/
def unescapeFrom (run : Text) : Text → Text
  | [] => Text.ofChars (Utf8.decodeLossy (unescapeBytes run.reverse))
  | u :: rest =>
    if isAscii u then unescapeFrom (u :: run) rest
    else
      Text.ofChars (Utf8.decodeLossy (unescapeBytes run.reverse)) ++ u :: unescapeFrom [] rest

/-- Undoes the escapes in a text. -/
def unescape (t : Text) : Text :=
  unescapeFrom [] t

/-- A byte that is not escaped. -/
def isSafe (b : UInt8) : Bool :=
  (48 ≤ b && b ≤ 57) || (65 ≤ b && b ≤ 90) || (97 ≤ b && b ≤ 122) || b == 95 || b == 46 ||
    b == 45 || b == 126 || b == 47

/-- An upper-case hexadecimal digit. -/
def hexDigit (n : Nat) : Char :=
  (Nat.digitChar n).toUpper

/-- A byte as it stands in a URI. -/
def escapeByte (b : UInt8) : Text :=
  if isSafe b then [.scalar (Char.ofNat b.toNat)]
  else [.scalar '%', .scalar (hexDigit (b.toNat / 16)), .scalar (hexDigit (b.toNat % 16))]

/-- A text as it stands in a URI. -/
def escape (t : Text) : Except Error Text :=
  match Utf8.encode t with
  | .ok bytes => .ok (bytes.flatMap escapeByte)
  | .error e => .error (.surrogates e)

/-! ## Drive letters -/

/-- The text starts with a slash, a letter and a colon. -/
def isDrivePath : Text → Bool
  | .scalar '/' :: .scalar c :: .scalar ':' :: _ => c.isAlpha
  | _ => false

/-! ## From URIs to paths -/

/-- The characters that compatibility folding turns into delimiters. -/
def foldedDelimiters : List Nat :=
  [0x2047, 0x2048, 0x2049, 0x2100, 0x2101, 0x2105, 0x2106, 0x2A74, 0xFE13, 0xFE16, 0xFE55, 0xFE56,
    0xFE5F, 0xFE6B, 0xFF03, 0xFF0F, 0xFF1A, 0xFF1F, 0xFF20]

/-- A unit that ends the host. -/
def endsHost (u : TextUnit) : Bool :=
  u == .scalar '/' || u == .scalar '?' || u == .scalar '#'

/-- The brackets of an authority are sound. -/
def checkBrackets (authority : Text) : Except Error Unit :=
  let opening := authority.any (Host.isChar '[')
  let closing := authority.any (Host.isChar ']')
  if opening != closing then .error .brackets
  else if !opening then .ok ()
  else
    match Host.ofAuthority? authority with
    | none => .error .brackets
    | some host =>
      match Host.fault? host with
      | some fault => .error (.badHost fault)
      | none => .ok ()

/-- Splits what follows the scheme into host and path. -/
def hostAndPath (t : Text) : Except Error (Text × Text) := do
  let (host, rest) := match t with
    | .scalar '/' :: .scalar '/' :: rest =>
      (rest.takeWhile (!endsHost ·), rest.dropWhile (!endsHost ·))
    | rest => ([], rest)
  checkBrackets host
  let path := rest.takeWhile fun u => u != .scalar '#' && u != .scalar '?'
  if host.any fun u => foldedDelimiters.contains u.codePoint then .error (.folding host)
  else .ok (host, path)

/-- The scheme of file URIs. -/
def scheme : Text := "file:"

/-- A unit that a URI ignores. -/
def isIgnored (u : TextUnit) : Bool :=
  u == .scalar '\t' || u == .scalar '\r' || u == .scalar '\n'

/-- The written form of the path in a file URI. -/
def pathText (uri : Text) : Except Error Text := do
  let (host, path) ← hostAndPath ((uri.drop scheme.length).filter (!isIgnored ·))
  let host := unescape host
  let path := unescape path
  if !host.isEmpty && !path.isEmpty then .ok (("//" : Text) ++ host ++ path)
  else if isDrivePath path then .ok (Text.lower ((path.drop 1).take 1) ++ path.drop 2)
  else .ok path

/-- The path of a file URI; other URIs, and file URIs with an empty path, have none. -/
def toPath? (uri : Text) : Except Error (Option Path) :=
  if scheme.isPrefixOf uri then do
    let path ← pathText uri
    return if path.isEmpty then none else some (Path.ofText path)
  else .ok none

/-- The URI names a component file. -/
def isComponent (uri : Text) : Except Error Bool := do
  match ← toPath? uri with
  | some path => return path.suffix.lower = ".vue"
  | none => return false

/-! ## From paths to URIs -/

/-- The host and the path in the URI of a written path. -/
def splitHost : Text → Except Error (Text × Text)
  | .scalar '/' :: .scalar '/' :: rest =>
    match rest.dropWhile (!Path.isSlash ·) with
    | [] => .error .bareHost
    | path => .ok (rest.takeWhile (!Path.isSlash ·), path)
  | t => .ok ([], t)

/-- The file URI of a path. -/
def ofPath (p : Path) : Except Error Text := do
  let (host, path) ← splitHost p.text
  let path := if path.head? = some (.scalar '/') then path else .scalar '/' :: path
  let written ←
    if isDrivePath path then do
      let rest ← escape (path.drop 3)
      pure (path.take 1 ++ Text.lower ((path.drop 1).take 1) ++ (path.drop 2).take 1 ++ rest)
    else escape path
  let host ← escape host
  return ("file://" : Text) ++ host ++ written

/-- The file URI of a written path, if there is one. -/
def ofPathText : Option Text → Except Error Text
  | none => .error .noPath
  | some t => ofPath (Path.ofText t)

end SfcProxy.FileUri
