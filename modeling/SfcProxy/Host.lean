import SfcProxy.Json.Reader
import SfcProxy.Text.Quoted

/-!
# Hosts in brackets

The authority of a URI is a host, which a user may stand before and a port behind. If there are
brackets anywhere in it, the host has to be an address of version 6, or one of a future version
behind the letter v; an address between brackets fills them and all of the host.

## Main definitions

* `Host.ofAuthority?`: the host of an authority with brackets
* `Host.fault?`: why that host is no address
-/

namespace SfcProxy.Host

/-- Why a text is no address that may stand in brackets. -/
inductive Fault where
  | unknown (host : Text)
  | versionFour
  | futureVersion
  deriving DecidableEq

/-- The wording of a fault. -/
def Fault.message : Fault → Text
  | unknown host => host.quoted ++ (" does not appear to be an IPv4 or IPv6 address" : Text)
  | versionFour => "An IPv4 address cannot be in brackets"
  | futureVersion => "IPvFuture address is invalid"

/-- A unit that is the given character. -/
def isChar (c : Char) (u : TextUnit) : Bool :=
  u == .scalar c

/-- A decimal digit. -/
def isDigit : TextUnit → Bool
  | .scalar c => Json.isDigit c
  | .surrogate _ => false

/-- A hexadecimal digit. -/
def isHexDigit : TextUnit → Bool
  | .scalar c => (Json.hexDigit? c).isSome
  | .surrogate _ => false

/-- What follows the last at sign. -/
def afterUser (authority : Text) : Text :=
  (authority.reverse.takeWhile (!isChar '@' ·)).reverse

/-- The host of an authority, without its brackets and its port; there is none if text stands
before the brackets, or behind them other than a port. -/
def ofAuthority? (authority : Text) : Option Text :=
  match (afterUser authority).span (!isChar '[' ·) with
  | (host, []) => some (host.takeWhile (!isChar ':' ·))
  | ([], _ :: bracketed) =>
    let host := bracketed.takeWhile (!isChar ']' ·)
    match bracketed.drop (host.length + 1) with
    | [] => some host
    | u :: _ => if isChar ':' u then some host else none
  | _ => none

/-- A number from 0 to 255 without leading zeros. -/
def isOctet (part : Text) : Bool :=
  !part.isEmpty && part.all isDigit && part.length ≤ 3 &&
    (part.length == 1 || part.head? != some (.scalar '0')) &&
    part.foldl (fun n u => n * 10 + (u.codePoint - '0'.toNat)) 0 ≤ 255

/-- An address of version 4: four octets between dots. -/
def isVersionFour (address : Text) : Bool :=
  let parts := address.splitOn (isChar '.')
  parts.length == 4 && parts.all isOctet

/-- One to four hexadecimal digits. -/
def isGroup (part : Text) : Bool :=
  !part.isEmpty && part.all isHexDigit && part.length ≤ 4

/-- The groups of an address, an address of version 4 at their end counting as two. -/
def groups? (address : Text) : Option (List Text) :=
  let parts := address.splitOn (isChar ':')
  if parts.length < 3 then none
  else
    match parts.getLast? with
    | some last =>
      if last.any (isChar '.') then
        if isVersionFour last then some (parts.dropLast ++ [("0" : Text), ("0" : Text)]) else none
      else some parts
    | none => none

/-- Groups of an address of version 6: eight of them, or fewer with one gap. -/
def areGroups (parts : List Text) : Bool :=
  let middle := (parts.drop 1).dropLast
  match middle.filter List.isEmpty with
  | [] => parts.length == 8 && parts.all isGroup
  | [_] =>
    let before := parts.take (1 + (middle.takeWhile (!·.isEmpty)).length)
    let after := parts.drop (before.length + 1)
    let before := if before = [[]] then [] else before
    let after := if after = [[]] then [] else after
    before.all isGroup && after.all isGroup && before.length + after.length < 8
  | _ => false

/-- An address of version 6, with a scope behind a percent sign if need be. -/
def isVersionSix (host : Text) : Bool :=
  let address := host.takeWhile (!isChar '%' ·)
  let scopeSound := match host.drop address.length with
    | [] => true
    | _ :: scope => !scope.isEmpty && !scope.any (isChar '%')
  scopeSound && !host.any (isChar '/') && ((groups? address).map areGroups).getD false

/-- An address of a future version: v, hexadecimal digits, a dot and further characters. -/
def isFuture (host : Text) : Bool :=
  let rest := host.drop 1
  let digits := rest.takeWhile isHexDigit
  match rest.drop digits.length with
  | .scalar '.' :: _ :: _ => !digits.isEmpty
  | _ => false

/-- Why a text is no address that may stand in brackets. -/
def fault? (host : Text) : Option Fault :=
  if host.head? = some (.scalar 'v') then
    if isFuture host then none else some .futureVersion
  else if isVersionFour host then some .versionFour
  else if isVersionSix host then none
  else some (.unknown host)

end SfcProxy.Host
