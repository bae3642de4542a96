import SfcProxy.Pump
import SfcProxy.Session.Transform
import SfcProxy.Tool.Launch
import SfcProxy.Tool.Supervision

/-!
# The bridge between editor and server

The proxy starts a language server and runs two pumps: messages of the editor pass to the server's
input, messages of the server's output pass to the editor. What the server writes to its errors is
relayed as it is. The session ends as soon as one of the two streams stops; the server is then
brought to its end.

## Main definitions

* `Bridge`: a session that is going on
* `Bridge.hear`, `Bridge.relay`: the two pumps on what is at hand
* `Bridge.run`: a whole session
-/

namespace SfcProxy

/-- A session that is going on: what the transforms know, the machine of the server, the bytes of
both sides that have not been moved yet, what the editor has received, and how the session ended if
it did. -/
structure Bridge where
  session : Session
  server : Tool.Machine
  unheard : List UInt8
  unrelayed : List UInt8
  output : List UInt8
  stop : Option (Pump.Stop Session.TransformError)

/-- What the editor does next: it sends bytes, and may wait until it has received a number of
bytes in all. -/
structure Send where
  data : List UInt8
  awaited : Option Nat
  deriving DecidableEq

namespace Bridge

/-- Why a session fails. -/
inductive Failure where
  | notStarted (command : List Text) (error : FileError)
  /-- There is no command to run. -/
  | noCommand
  /-- The command cannot be given to the system. -/
  | command (error : FileError)
  | pump (failure : Pump.Failure Session.TransformError)
  deriving DecidableEq

/-- The wording of a failure. -/
def Failure.message : Failure → Text
  | notStarted words error => Tool.failedStart words error
  | noCommand =>
    "create_subprocess_exec() missing 1 required positional argument: 'program'"
  | command error => error.message
  | pump (.frame error) => error.message
  | pump (.transform error) => error.message

/-- What remains of a session: the server's code or why the session failed, and what the editor
received. -/
structure Report where
  code : Except Failure Int
  output : List UInt8
  errors : List UInt8
  files : FileTree
  log : Log

/-- The time that a server has to end, in microseconds. -/
def patience : Nat := 5000000

/-! ## Turns -/

/-- The session is over. -/
def isOver (b : Bridge) : Bool :=
  b.stop.isSome

/-- Lets the server work on the common files; what it writes waits to be relayed. -/
def work (f : Tool.Machine → Tool.Machine) (b : Bridge) : Bridge :=
  let server := f { b.server with files := b.session.files }
  { b with
    session := { b.session with files := server.files }
    server := { server with output := [] }
    unrelayed := b.unrelayed ++ server.output }

/-- Moves the messages of the editor to the server. -/
def hear (extractor : Extractor) (closed : Bool) (b : Bridge) : Bridge :=
  let outcome := Pump.run closed (fun body s => s.fromEditor extractor body) b.unheard b.session
  let log := (outcome.stop.map (Pump.Stop.log "editor->server")).getD []
  { b with
    session := outcome.state.logged log
    unheard := outcome.rest
    server := b.server.feed outcome.output
    stop := outcome.stop }.work (·.settle)

/-- Moves the messages of the server to the editor. -/
def relay (b : Bridge) : Bridge :=
  let outcome := Pump.run b.server.outputEnded (fun body s => s.fromServer body) b.unrelayed
    b.session
  let log := (outcome.stop.map (Pump.Stop.log "server->editor")).getD []
  { b with
    session := outcome.state.logged log
    unrelayed := outcome.rest
    output := b.output ++ outcome.output
    stop := outcome.stop }

/-- Relays what the server writes, one pause of the server after the other, until the editor has
received `awaited` bytes or the session is over. Without a number the session goes on to its end;
at most `budget` pauses pass. -/
def await (awaited : Option Nat) (b : Bridge) : (budget : Nat) → Bridge
  | 0 => b
  | budget + 1 =>
    if b.isOver then b
    else
      let b := b.relay
      -- The editor has what it waits for, or there is nothing left to wait for.
      if b.isOver || awaited.any (· ≤ b.output.length) then b
      else
        match b.server.nextWake? with
        | some time => await awaited (b.work fun m => { m with now := time }.settle) budget
        | none => b

/-- Relays what the server writes as long as the editor waits for it. -/
def settle (awaited : Option Nat) (b : Bridge) : Bridge :=
  b.await awaited Tool.Machine.wakeLimit

/-- The editor sends. -/
def receive (extractor : Extractor) (b : Bridge) (send : Send) : Bridge :=
  if b.isOver then b
  else
    let b := { b with unheard := b.unheard ++ send.data }.hear extractor false
    match send.awaited with
    -- An editor that does not wait goes on before the server has answered.
    | none => b
    | some count => b.settle (some count)

/-- The editor has sent everything: it closes its stream, or goes on waiting. -/
def finish (extractor : Extractor) (closes : Bool) (b : Bridge) : Bridge :=
  if b.isOver then b
  else if closes then b.hear extractor true
  else b.settle none

/-- Brings the server to its end. -/
def close (b : Bridge) : Report :=
  -- What the server still writes to its output is lost; its errors are relayed to the end.
  let stopped := { b.server with files := b.session.files }.stop patience
  let machine := stopped.machine.waitUntil (·.errorsEnded) none
  { code := match b.stop.bind Pump.Stop.failure? with
      | some failure => .error (.pump failure)
      | none => .ok machine.code
    output := b.output
    errors := machine.errors
    files := machine.files
    log := b.session.log }

/-! ## Sessions -/

/-- A session in which no message has passed. -/
def start (settings : Settings) (files : FileTree) (server : Tool.Machine) : Bridge :=
  { session := Session.start settings files
    server
    unheard := []
    unrelayed := []
    output := []
    stop := none : Bridge }.work (·.settle)

/-- Runs a session with the server that a command starts in a directory. -/
def run (settings : Settings) (files : FileTree) (cwd : Path) (command : List Text)
    (sends : List Send) (closes : Bool) : Report :=
  let failed (failure : Failure) : Report := ⟨.error failure, [], [], files, []⟩
  if command.isEmpty then failed .noCommand
  else
    match Tool.launch files cwd command with
    | .error e => failed (if e.isSystem then .notStarted command e else .command e)
    | .ok server =>
      let extractor := Extractor.ofLang settings.blockLang
      let b := sends.foldl (receive extractor) (start settings files server)
      (b.finish extractor closes).close

end Bridge

end SfcProxy
