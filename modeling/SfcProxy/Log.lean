import SfcProxy.Text.Basic

/-!
# Log records

What the proxy reports about its own work: a level and a message. Records are kept in the order
in which they arise; a threshold decides which of them are shown.
-/

namespace SfcProxy

/-- How serious a record is. -/
inductive LogLevel where
  | debug
  | info
  | warning
  | error
  deriving DecidableEq

namespace LogLevel

/-- The rank of a level; a threshold admits its own rank and all above. -/
def rank : LogLevel → Nat
  | debug => 10
  | info => 20
  | warning => 30
  | error => 40

/-- The name of a level. -/
def name : LogLevel → String
  | debug => "DEBUG"
  | info => "INFO"
  | warning => "WARNING"
  | error => "ERROR"

/-- All levels, least serious first. -/
def all : List LogLevel :=
  [debug, info, warning, error]

/-- The level with a name. -/
def ofName? (name : Text) : Option LogLevel :=
  all.find? fun level => Text.ofString level.name = name

end LogLevel

/-- A log record. -/
structure LogRecord where
  level : LogLevel
  message : Text
  deriving DecidableEq

/-- Log records, oldest first. -/
abbrev Log := List LogRecord

/-- The records at or above a threshold. -/
def Log.above (threshold : LogLevel) (log : Log) : Log :=
  log.filter fun r => threshold.rank ≤ r.level.rank

end SfcProxy
