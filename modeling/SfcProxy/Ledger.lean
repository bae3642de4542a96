import SfcProxy.Json.Basic
import SfcProxy.Lru
import SfcProxy.Text.Quoted

/-!
# The ledger of line offsets

The offset of a document is the number of lines of the component before the first line of its
generated file. It is recorded when the editor mentions the document, under the URI of the
document and under the id of the request, and looked up when the server answers.

## Main definitions

* `Origin`, `RequestId`, `LedgerKey`: what an offset is recorded under
* `Ledger.record`: records an offset
* `Ledger.lookup`: finds an offset, by document before request
-/

namespace SfcProxy

/-- Which side issued a request; ids are unique per side. -/
inductive Origin where
  | editor
  | server
  deriving DecidableEq

/-- The side with a name. -/
def Origin.ofName? (name : Text) : Option Origin :=
  if name = "editor" then some editor else if name = "server" then some server else none

/-- The wording about a name that is no side. -/
def Origin.unknownName (name : Text) : Text :=
  name.quoted ++ (" is not a valid Origin" : Text)

/-- The id of a request. Numbers of the same value are the same id, in whatever way they are
written; a number that is no integer is kept as it is. -/
inductive RequestId where
  | integer (n : Int)
  | real (x : Double)
  | text (s : Text)
  deriving DecidableEq

/-- Why a value is no id. -/
inductive IdError where
  | array
  | object
  deriving DecidableEq

/-- The wording of an error. -/
def IdError.message : IdError → Text
  | array => "unhashable type: 'list'"
  | object => "unhashable type: 'dict'"

/-- The id that a value stands for; null stands for none. -/
def RequestId.ofJson : Json → Except IdError (Option RequestId)
  | .null => .ok none
  | .bool b => .ok (some (.integer (if b then 1 else 0)))
  | .int n => .ok (some (.integer n))
  | .real x => .ok (some ((x.integral?.map RequestId.integer).getD (.real x)))
  | .str s => .ok (some (.text s))
  | .arr _ => .error .array
  | .obj _ => .error .object

/-- What an offset is recorded under. -/
inductive LedgerKey where
  | document (uri : Text)
  | request (origin : Origin) (id : RequestId)
  deriving DecidableEq

/-- Offsets by key, least recently used first. -/
abbrev Ledger := Lru LedgerKey Int

namespace Ledger

/-- Why the ledger refuses an operation. -/
inductive Error where
  | negativeOffset (offset : Int)
  | id (error : IdError)
  | bound (error : Lru.BoundError)
  deriving DecidableEq

/-- The wording of an error. -/
def Error.message : Error → Text
  | negativeOffset offset => ("line offset must be >= 0, got " : Text) ++ Text.decimal offset
  | id error => error.message
  | bound error => error.message

/-- The key of a document; an empty URI names none. -/
def documentKey? (uri : Option Text) : Option LedgerKey :=
  match uri with
  | none | some [] => none
  | some uri => some (.document uri)

/-- Records an offset under a key, if there is one. -/
def enter (key : Option LedgerKey) (offset : Int) (ledger : Ledger) : Ledger :=
  match key with
  | none => ledger
  | some key => ledger.insert key offset

/-- Records an offset under a document and a request, within a bound. An id that is none is
found out only after the document is entered. -/
def record (bound : Int) (offset : Int) (uri : Option Text) (origin : Origin) (id : Json)
    (ledger : Ledger) : Ledger × Option Error :=
  if offset < 0 then (ledger, some (.negativeOffset offset))
  else
    let entered := ledger.enter (documentKey? uri) offset
    match RequestId.ofJson id with
    | .error e => (entered, some (.id e))
    | .ok id =>
      ((entered.enter (id.map (.request origin)) offset).trim bound,
        (Lru.boundError? bound).map .bound)

/-- The offset of a request. -/
def lookupRequest (origin : Origin) (id : Json) (ledger : Ledger) :
    Except Error (Option Int × Ledger) :=
  match RequestId.ofJson id with
  | .error e => .error (.id e)
  | .ok none => .ok (none, ledger)
  | .ok (some id) =>
    match ledger.use? (.request origin id) with
    | some (offset, used) => .ok (some offset, used)
    | none => .ok (none, ledger)

/-- The offset of a document, or else of a request, whose id is looked at only then. -/
def lookup (uri : Option Text) (origin : Origin) (id : Json) (ledger : Ledger) :
    Except Error (Option Int × Ledger) :=
  match (documentKey? uri).bind ledger.use? with
  | some (offset, used) => .ok (some offset, used)
  | none => lookupRequest origin id ledger

end Ledger

end SfcProxy
