import SfcProxy.Main
import SfcProxy.Proofs.Session.Escape
import SfcProxy.Proofs.Session.Traffic
import SfcProxy.Proofs.Splicing
import SfcProxy.Proofs.Pump
import SfcProxy.Proofs.Session.Offset
import SfcProxy.Proofs.Session.Reference
import SfcProxy.Proofs.Header
import SfcProxy.Proofs.FileTree
import SfcProxy.Proofs.Json.Path
import SfcProxy.Proofs.Session.Subject
import SfcProxy.Proofs.Session.Trace
import SfcProxy.Proofs.Session.Effect
import SfcProxy.Proofs.Session.Origin
import SfcProxy.Proofs.Recency
import SfcProxy.Proofs.Casing
import SfcProxy.Proofs.Utf8
import SfcProxy.Proofs.FileUri
import SfcProxy.Proofs.GeneratedFile
import SfcProxy.Proofs.UriKinds
import SfcProxy.Proofs.Session.Confinement
import SfcProxy.Proofs.Session.Settling
import SfcProxy.Proofs.Session.Kinds
import SfcProxy.Proofs.Session.Stillness
import SfcProxy.Proofs.Double.Rounding
import SfcProxy.Proofs.Double.Shortest
import SfcProxy.Proofs.Json.Numeral
import SfcProxy.Proofs.Json.RoundTrip
import SfcProxy.Proofs.Session.Readable
import SfcProxy.Proofs.Session.Passage
import SfcProxy.Proofs.Json.Sameness
import SfcProxy.Proofs.Session.Lookups
import SfcProxy.Proofs.Session.Entries
import SfcProxy.Proofs.Session.Forwarding
import SfcProxy.Proofs.Session.Redirection
import SfcProxy.Proofs.Session.Changes
import SfcProxy.Proofs.Session.LineOrder
import SfcProxy.Proofs.Session.Sources
import SfcProxy.Proofs.Extraction
import SfcProxy.Proofs.HeaderGrammar
import SfcProxy.Proofs.Rediscovery
import SfcProxy.Proofs.Clashes
import SfcProxy.Proofs.Discovery
import SfcProxy.Proofs.Json.Codec
import SfcProxy.Proofs.Rooted
import SfcProxy.Proofs.Session.Commuting
import SfcProxy.Proofs.Json.Shifts
import SfcProxy.Proofs.UriRoundTrip
import SfcProxy.Proofs.Bridge
import SfcProxy.Proofs.Tool.RegexReader
import SfcProxy.Proofs.Tool.Pattern
import SfcProxy.Proofs.Tool.Arithmetic
import SfcProxy.Proofs.Tool.Sorting
import SfcProxy.Proofs.Tool.SedInput
