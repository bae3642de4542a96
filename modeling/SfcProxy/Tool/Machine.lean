import SfcProxy.Tool.Lookup
import SfcProxy.Tool.Numbered
import SfcProxy.Tool.Process

/-!
# The machine

The machine runs processes side by side. It keeps their streams, the pipes between them, the
files, and a clock that moves only when no process can. The processes take turns, so that a run is
determined by its input.

## Main definitions

* `Channel`: where a stream leads
* `Member`: a process on the machine
* `Machine`: the whole machine
* `Machine.serve`: the reply to a request
* `Machine.settle`: lets all processes work as far as they can
-/

namespace SfcProxy.Tool

/-! ## Machines -/

/-- Where a stream leads. -/
inductive Channel where
  /-- The end of a pipe that reads. -/
  | outlet (pipe : Nat)
  /-- The end of a pipe that writes. -/
  | inlet (pipe : Nat)
  /-- The output of the machine as a whole. -/
  | output
  | errors
  /-- A file, from a position on. -/
  | file (location : Location) (position : Nat) (mode : OpenMode)
  | directory
  /-- Bytes that are left to read. -/
  | source (bytes : List UInt8)
  | nothing
  deriving DecidableEq

/-- A process on the machine: what it does from now on, its streams by number with the numbers of
their channels, its directory, how it handles signals, which it has caught, until when it sleeps,
and how it ended if it did. -/
structure Member where
  process : Process
  streams : Numbered Nat
  cwd : Location
  handlings : Numbered Handling
  caught : List Nat
  wake : Option Nat
  ending : Option Ending

/-- The machine: its processes, their channels, the bytes in its pipes, the files, the time in
microseconds, the least number not in use, whether more input may come, and what has been written
to its output and its errors. -/
structure Machine where
  members : Numbered Member
  channels : Numbered Channel
  pipes : Numbered (List UInt8)
  files : FileTree
  now : Nat
  fresh : Nat
  inputOpen : Bool
  output : List UInt8
  errors : List UInt8

namespace Machine

/-- The number of the pipe through which the input of the machine comes. -/
def inputPipe : Nat := 0

/-- The number of the first process. -/
def first : Nat := 1000

/-- The number of bytes in a pipe from which on writers have to wait. -/
def pipeSize : Nat := 65536

/-- A machine that starts with one process in a directory. -/
def start (process : Process) (cwd : Location) (files : FileTree) : Machine where
  members := [(first, ⟨process, [(0, 0), (1, 1), (2, 2)], cwd, [], [], none, none⟩)]
  channels := [(0, .outlet inputPipe), (1, .output), (2, .errors)]
  pipes := [(inputPipe, [])]
  files
  now := 0
  fresh := first + 1
  inputOpen := true
  output := []
  errors := []

/-- Changes a process. -/
def setMember (m : Machine) (pid : Nat) (p : Member) : Machine :=
  { m with members := m.members.put pid p }

/-- The channel of a stream. -/
def channel? (m : Machine) (p : Member) (stream : Nat) : Option (Nat × Channel) := do
  let number ← p.streams.get? stream
  let channel ← m.channels.get? number
  return (number, channel)

/-- What a channel looks like from a process. -/
def kindOf (m : Machine) : Channel → StreamKind
  | .outlet _ | .inlet _ | .output | .errors | .source _ => .pipe
  | .file location _ _ =>
    match m.files.node? location with
    | some (.file bytes _) => .file bytes.length
    | _ => .file 0
  | .directory => .directory
  | .nothing => .nothing

/-- Some process has a stream that leads to a channel. -/
def holds (m : Machine) (channel : Channel) : Bool :=
  m.members.any fun (_, p) => p.streams.any fun (_, number) =>
    m.channels.get? number = some channel

/-- Channels to which no stream leads are given up. -/
def sweep (m : Machine) : Machine :=
  let live := m.members.flatMap fun (_, p) => p.streams.map (·.2)
  { m with channels := m.channels.filter fun (number, _) => live.contains number }

/-- More bytes may come through a pipe. -/
def mayBring (m : Machine) (pipe : Nat) : Bool :=
  (pipe == inputPipe && m.inputOpen) || m.holds (.inlet pipe)

/-- Opens a new channel under the least free number of a process. -/
def addStream (m : Machine) (pid : Nat) (p : Member) (channel : Channel) :
    Nat × Machine × Member :=
  let stream := p.streams.free 0
  let p := { p with streams := p.streams.put stream m.fresh }
  (stream, { m with channels := m.channels ++ [(m.fresh, channel)], fresh := m.fresh + 1 }.setMember
    pid p, p)

/-! ## Signals -/

/-- A process has ended; its streams are closed. -/
def finish (m : Machine) (pid : Nat) (ending : Ending) : Machine :=
  match m.members.get? pid with
  | none => m
  | some p => (m.setMember pid { p with streams := [], ending := some ending, wake := none }).sweep

/-- A process receives a signal. -/
def deliver (m : Machine) (pid signal : Nat) : Machine :=
  match m.members.get? pid with
  | none => m
  | some p =>
    if p.ending.isSome || signal = 0 then m
    else
      match if signal = Signal.kill then .default else (p.handlings.get? signal).getD .default with
      | .ignore => m
      | .catch => m.setMember pid { p with caught := p.caught ++ [signal] }
      | .default =>
        match Signal.effect signal with
        | .ends => m.finish pid (.killed signal)
        | .nothing | .stops => m

/-! ## Files -/

/-- The files as a process sees them. -/
def filesOf (m : Machine) (p : Member) : FileTree :=
  { m.files with cwd := p.cwd }

/-- The bytes of a file. -/
def fileBytes (m : Machine) (location : Location) : List UInt8 :=
  match m.files.node? location with
  | some (.file bytes _) => bytes
  | _ => []

/-- Sets the bytes of a file. -/
def setFileBytes (m : Machine) (location : Location) (bytes : List UInt8) : Machine :=
  match m.files.node? location with
  | some (.file _ executable) =>
    { m with files := m.files.put location (.file bytes executable) }
  | _ => m

/-- The stream that the name of a device stands for. -/
def deviceStream? (name : Octets) : Option Nat :=
  match String.ofList name with
  | "/dev/stdin" => some 0
  | "/dev/stdout" => some 1
  | "/dev/stderr" => some 2
  | _ => if "/dev/fd/".toList.isPrefixOf name then Octets.toNat? (name.drop 8) else none

/-- The channel to a file that is opened, and the files afterwards. -/
def openFile (tree : FileTree) (name : Octets) (mode : OpenMode) :
    Except SystemCause (Channel × FileTree) :=
  if name = "/dev/null".toList then .ok (.nothing, tree)
  else if mode = .read then do
    match ← tree.find name with
    | (_, .directory) => return (.directory, tree)
    | (location, .file _ _) => return (.file location 0 .read, tree)
  else do
    match ← tree.place name with
    | (_, some .directory) => .error .isDirectory
    | (location, some (.file _ executable)) =>
      let opened := if mode = .write then tree.put location (.file [] executable) else tree
      return (.file location 0 mode, opened)
    | (location, none) => return (.file location 0 mode, tree.put location (.file [] false))

/-- Bytes with others written over them from a position on. -/
def overwrite (old new : List UInt8) (position : Nat) : List UInt8 :=
  old.take position ++ List.replicate (position - old.length) 0 ++ new
    ++ old.drop (position + new.length)

/-! ## Requests -/

/-- What comes of a request: a reply, the need to wait, or the end of the process. -/
inductive Response (request : Request) where
  | reply (m : Machine) (value : request.Reply)
  | wait (m : Machine)
  | die (signal : Nat)

/-- A process reads. -/
def read (m : Machine) (p : Member) (stream most : Nat) : Response (.read stream most) :=
  match m.channel? p stream with
  | none => .reply m (.error .badDescriptor)
  | some (number, channel) =>
    match channel with
    | .outlet pipe =>
      match (m.pipes.get? pipe).getD [] with
      | [] => if m.mayBring pipe then .wait m else .reply m (.ok [])
      | bytes =>
        .reply { m with pipes := m.pipes.put pipe (bytes.drop most) } (.ok (bytes.take most))
    | .source bytes =>
      .reply { m with channels := m.channels.put number (.source (bytes.drop most)) }
        (.ok (bytes.take most))
    | .file location position mode =>
      let bytes := ((m.fileBytes location).drop position).take most
      if mode = .read || mode = .update then
        .reply { m with
          channels := m.channels.put number (.file location (position + bytes.length) mode) }
          (.ok bytes)
      else .reply m (.error .badDescriptor)
    | .directory => .reply m (.error .isDirectory)
    | .nothing => .reply m (.ok [])
    | .inlet _ | .output | .errors => .reply m (.error .badDescriptor)

/-- A process writes. -/
def write (m : Machine) (p : Member) (stream : Nat) (bytes : List UInt8) :
    Response (.write stream bytes) :=
  match m.channel? p stream with
  | none => .reply m (.error .badDescriptor)
  | some (number, channel) =>
    match channel with
    | .output => .reply { m with output := m.output ++ bytes } (.ok ())
    | .errors => .reply { m with errors := m.errors ++ bytes } (.ok ())
    | .inlet pipe =>
      if !m.holds (.outlet pipe) then
        if p.handlings.get? Signal.pipe = some .ignore then .reply m (.error .brokenPipe)
        else .die Signal.pipe
      else
        let waiting := (m.pipes.get? pipe).getD []
        if pipeSize ≤ waiting.length then .wait m
        else .reply { m with pipes := m.pipes.put pipe (waiting ++ bytes) } (.ok ())
    | .file location position mode =>
      if mode = .read then .reply m (.error .badDescriptor)
      else
        let old := m.fileBytes location
        let position := if mode = .append then old.length else position
        let m := m.setFileBytes location (overwrite old bytes position)
        .reply { m with
          channels := m.channels.put number (.file location (position + bytes.length) mode) }
          (.ok ())
    | .nothing => .reply m (.ok ())
    | .outlet _ | .source _ | .directory => .reply m (.error .badDescriptor)

/-- A process opens a file. -/
def openStream (m : Machine) (pid : Nat) (p : Member) (name : Octets) (mode : OpenMode) :
    Response (.openFile name mode) :=
  match deviceStream? name with
  | some device =>
    match p.streams.get? device with
    | none => .reply m (.error .notFound)
    | some number =>
      let stream := p.streams.free 0
      .reply (m.setMember pid { p with streams := p.streams.put stream number }) (.ok stream)
  | none =>
    match openFile (m.filesOf p) name mode with
    | .error cause => .reply m (.error cause)
    | .ok (channel, files) =>
      let m := { m with files := { files with cwd := m.files.cwd } }
      let (stream, m, _) := m.addStream pid p channel
      .reply m (.ok stream)

/-- A process waits for a child. -/
def await (m : Machine) (p : Member) (child : Nat) (interruptible : Bool) :
    Response (.wait child interruptible) :=
  match m.members.get? child with
  | none => .reply m (some (.exited 127))
  | some c =>
    match c.ending with
    | some ending => .reply { m with members := m.members.erase child } (some ending)
    | none => if interruptible && !p.caught.isEmpty then .reply m none else .wait m

/-- What comes of a request of a process. -/
def serve (m : Machine) (pid : Nat) (p : Member) : (request : Request) → Response request
  | .read stream most => m.read p stream most
  | .write stream bytes => m.write p stream bytes
  | .openFile name mode => m.openStream pid p name mode
  | .source bytes =>
    let (stream, m, _) := m.addStream pid p (.source bytes)
    .reply m stream
  | .pipe =>
    let pipe := m.fresh
    let m := { m with pipes := m.pipes.put pipe [], fresh := m.fresh + 1 }
    let (outlet, m, p) := m.addStream pid p (.outlet pipe)
    let (inlet, m, _) := m.addStream pid p (.inlet pipe)
    .reply m (outlet, inlet)
  | .duplicate stream target =>
    match p.streams.get? stream with
    | none => .reply m false
    | some number =>
      .reply (m.setMember pid { p with streams := p.streams.put target number }).sweep true
  | .close stream => .reply (m.setMember pid { p with streams := p.streams.erase stream }).sweep ()
  | .kind stream => .reply m ((m.channel? p stream).map fun (_, channel) => m.kindOf channel)
  | .files => .reply m (m.filesOf p)
  | .change f =>
    match f (m.filesOf p) with
    | .error cause => .reply m (.error cause)
    | .ok files => .reply { m with files := { files with cwd := m.files.cwd } } (.ok ())
  | .enter name =>
    match (m.filesOf p).find name with
    | .error cause => .reply m (.error cause)
    | .ok (_, .file _ _) => .reply m (.error .notDirectory)
    | .ok (location, .directory) => .reply (m.setMember pid { p with cwd := location }) (.ok ())
  | .sleep duration =>
    -- When first asked, the process is told its time; after that it only waits for it.
    match p.wake with
    | none => .wait (m.setMember pid { p with wake := some (m.now + duration) })
    | some time =>
      if time ≤ m.now then .reply (m.setMember pid { p with wake := none }) () else .wait m
  | .wait child interruptible => m.await p child interruptible
  | .handle signal handling =>
    .reply (m.setMember pid { p with handlings := p.handlings.put signal handling }) ()
  | .caught => .reply (m.setMember pid { p with caught := [] }) p.caught
  | .signal target signal =>
    if (m.members.get? target).isSome then .reply (m.deliver target signal) true
    else .reply m false
  | .self => .reply m pid

/-! ## Turns -/

/-- Lets a process go on as another one. -/
def setProcess (m : Machine) (pid : Nat) (process : Process) : Machine :=
  match m.members.get? pid with
  | none => m
  | some p => m.setMember pid { p with process }

/-- One step of a process, and whether it moved. -/
def step (m : Machine) (pid : Nat) : Machine × Bool :=
  match m.members.get? pid with
  | none => (m, false)
  | some p =>
    if p.ending.isSome then (m, false)
    else
      match p.process with
      | .exit status => (m.finish pid (.exited status), true)
      | .fork child next =>
        let number := m.fresh
        -- A child does not inherit what its parent catches.
        let handlings := p.handlings.filter (·.2 ≠ .catch)
        let member := { p with process := child, handlings, caught := [] }
        let m := { m with members := m.members ++ [(number, member)], fresh := number + 1 }
        (m.setProcess pid (next number), true)
      | .ask request next =>
        match m.serve pid p request with
        | .reply m value => (m.setProcess pid (next value), true)
        | .wait m => (m, false)
        | .die signal => (m.finish pid (.killed signal), true)

/-- One step of each process, and whether any moved. -/
def round (m : Machine) : Machine × Bool :=
  m.members.foldl (fun (m, moved) (pid, _) =>
    let (m, moves) := m.step pid
    (m, moved || moves)) (m, false)

/-- Lets the processes take turns until none can move, at most `budget` times. -/
def settleFrom (m : Machine) : (budget : Nat) → Machine
  | 0 => m
  | budget + 1 =>
    match m.round with
    | (m, true) => settleFrom m budget
    | (m, false) => m

/-- The number of turns after which a machine that is still busy is left alone. -/
def patience : Nat := 1000000

/-- Lets all processes work as far as they can. -/
def settle (m : Machine) : Machine :=
  m.settleFrom patience

end Machine

end SfcProxy.Tool
