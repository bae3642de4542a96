import SfcProxy.Tool.Shell.Builtin
import SfcProxy.Tool.Shell.Redirection

/-!
# Carrying out scripts

A shell reads a script command by command and carries each one out: by itself, in a copy of itself,
or as a program that it finds. A fault of a word or of a special command ends the shell; when it
ends, it does what was set for its end.

The commands of a shell may stand where only their success counts; then a failure is no reason to
stop. A command that is the last thing a shell has to do takes its place.

## Main definitions

* `Shell.search`: the program with a name
* `Shell.run`: carries a command out
* `Shell.script`: carries a script out
-/

namespace SfcProxy.Tool.Shell

open Expansion (Step)

/-! ## Programs -/

/-- The directories in which programs are looked for. -/
def searchPath (s : State) : List Octets :=
  ((s.value? "PATH".toList).getD []).split (· == ':')

/-- The name of a file in a directory. -/
def within (directory name : Octets) : Octets :=
  if directory.isEmpty then name else directory ++ '/' :: name

/-- Where the program with a name stands, if there is one. -/
def locate? (find : Finder) (files : FileTree) (s : State) (name : Octets) : Option Octets :=
  let candidates := if name.contains '/' then [name] else (searchPath s).map (within · name)
  candidates.find? fun path => (find files path [] []).toOption.isSome

/-- The process of a program with arguments; a file that is no program is taken for a script. -/
def program (find : Finder) (files : FileTree) (s : State) (name : Octets)
    (arguments : List Octets) : Except SystemCause Process :=
  match find files name arguments s.environment with
  | .error .notExecutable => find files "/bin/sh".toList (name :: arguments) s.environment
  | found => found

/-- The wording of a program that cannot be run. -/
def programFault (name : Octets) (cause : SystemCause) : Octets :=
  name ++ ": ".toList ++
    if cause = .notFound || cause = .notDirectory then "not found".toList
    else Octets.ofText cause.text

/-- The status of a program that cannot be run. -/
def programStatus (cause : SystemCause) : Nat :=
  if [.notFound, .notDirectory, .nameTooLong].contains cause then 127 else 126

/-- What a name stands for, in full if wanted. -/
def describe (find : Finder) (files : FileTree) (s : State) (full : Bool) (name : Octets) :
    Option Octets :=
  let told (what : String) : Option Octets :=
    some (if full then name ++ what.toList else name)
  if reserved.contains (String.ofList name) then told " is a shell keyword"
  else if s.functions.any (·.1 = name) then told " is a shell function"
  else if Builtin.isSpecial name then told " is a special shell builtin"
  else if Builtin.isKnown name then told " is a shell builtin"
  else (locate? find files s name).map fun path =>
    if full then name ++ " is ".toList ++ path else path

/-- Tells what names stand for. -/
def describeAll (find : Finder) (full : Bool) (status : Nat) : List Octets → Step Nat
  | [] => return status
  | name :: rest => do
    match describe find (← Work.ask .files) (← get) full name with
    | some text =>
      let status ← Builtin.emit (text ++ ['\n']) status
      describeAll find full status rest
    | none =>
      let _ ← if full then Builtin.emit (name ++ ": not found\n".toList) 0 else pure 0
      describeAll find full 127 rest

/-! ## Simple commands -/

/-- The commands whose arguments may be assignments. -/
def declares (name : Octets) : Bool :=
  ["export", "readonly", "local"].contains (String.ofList name)

/-- Words as fields; words that are assignments are not parted. -/
def declarations (take : Expansion.Taking) : List Word → Step (List Octets)
  | [] => return []
  | word :: rest => do
    let found ← match Read.assignment? word with
      | some (name, value) => do pure [name ++ '=' :: (← Expansion.text take value)]
      | none => Expansion.fields take word
    return found ++ (← declarations take rest)

/-- The fields of a command, of which the first is its name. -/
def commandFields (take : Expansion.Taking) : List Word → Step (List Octets)
  | [] => return []
  | word :: rest => do
    match ← Expansion.fields take word with
    | [] => commandFields take rest
    | name :: more =>
      let others ← if declares name then declarations take rest else Expansion.fieldsOf take rest
      return name :: more ++ others

/-- How a command is called: with fields, and perhaps so that functions do not count and faults
are forgiven. -/
structure Call where
  fields : List Octets
  plain : Bool
  deriving DecidableEq

/-- The call that fields make up. A first field `command` in front of another is taken away, unless
it only asks for what the other stands for. -/
def Call.ofFields : List Octets → Call
  | name :: rest =>
    if name = "command".toList then
      match rest with
      | [] => ⟨[":".toList], true⟩
      | first :: more =>
        if first = ['-', 'p'] || first = ['-', '-'] then
          if more.isEmpty then ⟨[":".toList], true⟩ else ⟨more, true⟩
        else if first.head? = some '-' then ⟨name :: rest, true⟩
        else ⟨rest, true⟩
    else ⟨name :: rest, false⟩
  | [] => ⟨[], false⟩

/-- Sets the variables in front of a command; gives what they were before, last first. With
`exported` programs get them. -/
def assignments (take : Expansion.Taking) (exported : Bool)
    (before : List (Octets × Option Variable)) (shown : List Octets) :
    List (Octets × Word) → Step (List (Octets × Option Variable) × List Octets)
  | [] => return (before, shown.reverse)
  | (name, word) :: rest => do
    let value ← Expansion.text take word
    let old := (← get).named? name
    Expansion.assign name value
    if exported then
      modify fun s => match s.named? name with
        | some v => s.putVariable name { v with exported := true }
        | none => s
    assignments take exported ((name, old) :: before) ((name ++ '=' :: value) :: shown) rest

/-- Puts variables back. -/
def putBack (s : State) (before : List (Octets × Option Variable)) : State :=
  before.foldl (fun s (name, old) => match old with
    | some v => s.putVariable name v
    | none => s.removeVariable name) s

/-- Shows a command before it is carried out. -/
def trace (stream : Nat) (assigned fields : List Octets) : Work Unit := do
  let sign := ((← get).value? "PS4".toList).getD "+ ".toList
  Act.put stream (sign ++ List.intercalate [' '] (assigned ++ fields) ++ ['\n'])

/-! ## Copies -/

/-- The state of a copy of a shell: what was set for signals does not count, unless they are
ignored. -/
def State.copied (s : State) : State :=
  { s with
    traps := s.traps.filter (·.2.isEmpty)
    children := []
    pending := [] }

/-- Something was set for signals or the end. -/
def State.hasTraps (s : State) : Bool :=
  s.traps.any (!·.2.isEmpty)

/-- The state with a status. -/
def State.withStatus (s : State) (status : Nat) : State :=
  { s with status }

/-- Lets a stream of a copy lead to an end of a pipe. -/
def attach (pipeEnd stream : Nat) : Work Unit := do
  if pipeEnd = stream then return ()
  let _ ← Work.ask (.duplicate pipeEnd stream)
  Work.ask (.close pipeEnd)

/-- Waits for children one after the other; the status is that of the last one. -/
def awaitAll (status : Nat) : List Nat → Work Nat
  | [] => return status
  | child :: rest => do
    awaitAll (← Work.await child) rest

/-- The stream without the line breaks at its end and without null bytes. -/
def withoutBreaks (s : Octets) : Octets :=
  ((s.reverse.dropWhile (· == '\n')).reverse).filter (· != '\x00')

/-! ## Loops -/

/-- What a loop does after a turn: it goes on, or ends with a flow. -/
def Flow.afterTurn : Flow → Option Flow
  | .on => none
  | .leave loops => some (if loops ≤ 1 then .on else .leave (loops - 1))
  | .again loops => if loops ≤ 1 then none else some (.again (loops - 1))
  | .back => some .back

/-- A source that goes on with the documents of a shell. -/
def State.resume (s : State) (source : Source) : Source :=
  let fresh := s.documents.foldl (fun most (number, _) => max most (number + 1)) source.fresh
  { source with documents := s.documents, fresh }

/-! ## Commands -/

mutual

/-- Carries a command out. With `tested` only its success counts, and with `last` the shell ends
with it. -/
def run (find : Finder) : (budget : Nat) → (tested last : Bool) → Command → Work Flow
  | 0, _, _, _ => return .back
  | budget + 1, tested, last, command => do
    let (flow, checked) ← carry find budget tested last command
    meetSignals find budget
    let fails := checked && !tested && (← get).has 'e' && (← get).status ≠ 0
    if fails || last then leave find budget else return flow

/-- Carries a command out, and tells whether its failure may end the shell. -/
def carry (find : Finder) : (budget : Nat) → (tested last : Bool) → Command → Work (Flow × Bool)
  | 0, _, _, _ => return (.back, false)
  | budget + 1, tested, last, command => do
    match command with
    | .nothing => return (.on, false)
    | .simple line assigned words redirects =>
      return (← simple find budget tested last line assigned words redirects, true)
    | .pipeline stages => do
      let children ← pipeline find budget tested none stages
      let status ← awaitAll 0 children
      modify (·.withStatus status)
      return (.on, true)
    | .negate body => do
      let flow ← run find budget true false body
      modify fun s => s.withStatus (if s.status = 0 then 1 else 0)
      return (flow, false)
    | .both first second => do
      let flow ← run find budget true false first
      if flow ≠ .on || (← get).status ≠ 0 then return (flow, false)
      return (← run find budget tested last second, false)
    | .either first second => do
      let flow ← run find budget true false first
      if flow ≠ .on || (← get).status = 0 then return (flow, false)
      return (← run find budget tested last second, false)
    | .sequence first second => do
      let flow ← run find budget tested false first
      if flow ≠ .on then return (flow, false)
      return (← run find budget tested last second, false)
    | .background body => do
      let child ← Work.fork State.copied do
        -- The keyboard does not reach what runs in the background: no signals, and nothing to read.
        Work.ask (.handle Signal.interrupt .ignore)
        Work.ask (.handle Signal.quit .ignore)
        Work.ask (.close Act.input)
        let _ ← Work.ask (.openFile "/dev/null".toList .read)
        let _ ← run find budget false true body
      modify fun s => { s with children := s.children ++ [child], status := 0 }
      return (.on, true)
    | .subshell body => do
      -- A shell that ends with the command needs no copy of itself, unless a trap is left to run.
      if last && !(← get).hasTraps then
        return (← run find budget tested true body, true)
      let child ← Work.fork State.copied do
        let _ ← run find budget tested true body
      let status ← Work.await child
      modify (·.withStatus status)
      return (.on, true)
    | .redirected body redirects => do
      match ← (Redirection.prepare (take find budget) redirects).run with
      | .error message => return (← fatal find budget message, false)
      | .ok changes =>
        let (kept, fault) ← Redirection.apply changes
        match fault with
        | some message => do
          Work.complain message
          Redirection.restore kept
          modify (·.withStatus 2)
          return (.on, false)
        | none => do
          let flow ← run find budget tested false body
          Redirection.restore kept
          return (flow, false)
    | .choice test body otherwise => do
      let flow ← run find budget true false test
      if flow ≠ .on then return (flow, false)
      if (← get).status = 0 then return (← run find budget tested last body, false)
      match otherwise with
      | .nothing => do
        modify (·.withStatus 0)
        return (.on, false)
      | otherwise => return (← run find budget tested last otherwise, false)
    | .loop negated test body => do
      modify fun s => { s with loops := s.loops + 1 }
      let flow ← turns find budget tested negated test body 0
      modify fun s => { s with loops := s.loops - 1 }
      return (flow, false)
    | .each name words body => do
      let found ← match words with
        | some words => (Expansion.fieldsOf (take find budget) words).run
        | none => do pure (.ok (← get).arguments)
      match found with
      | .error message => return (← fatal find budget message, false)
      | .ok values => do
        modify fun s => { s with loops := s.loops + 1 }
        let flow ← eachTurn find budget tested name body 0 values
        modify fun s => { s with loops := s.loops - 1 }
        return (flow, false)
    | .cases subject branches => do
      match ← (Expansion.text (take find budget) subject).run with
      | .error message => return (← fatal find budget message, false)
      | .ok text => return (← branch find budget tested last text branches, false)
    | .define name body => do
      modify fun s => { s with
        functions := s.functions.filter (·.1 ≠ name) ++ [(name, body)]
        status := 0 }
      return (.on, false)

/-- The turns of a loop; `status` is that of the turn before. -/
def turns (find : Finder) : (budget : Nat) → (tested negated : Bool) → (test body : Command) →
    (status : Nat) → Work Flow
  | 0, _, _, _, _, _ => return .back
  | budget + 1, tested, negated, test, body, status => do
    let flow ← run find budget true false test
    match flow.afterTurn with
    | some flow => do
      if flow ≠ .back then modify (·.withStatus status)
      return flow
    | none =>
      if flow ≠ .on then turns find budget tested negated test body status
      else if ((← get).status = 0) = negated then do
        modify (·.withStatus status)
        return .on
      else do
        let flow ← run find budget tested false body
        match flow.afterTurn with
        | some flow => return flow
        | none => turns find budget tested negated test body (← get).status

/-- The turns of a loop over values. -/
def eachTurn (find : Finder) : (budget : Nat) → (tested : Bool) → (name : Octets) → Command →
    (status : Nat) → List Octets → Work Flow
  | 0, _, _, _, _, _ => return .back
  | budget + 1, tested, name, body, status, values => do
    match values with
    | [] => do
      modify (·.withStatus status)
      return .on
    | value :: rest =>
      match ← (Expansion.assign name value).run with
      | .error message => fatal find budget message
      | .ok () => do
        let flow ← run find budget tested false body
        match flow.afterTurn with
        | some flow => return flow
        | none => eachTurn find budget tested name body (← get).status rest

/-- Carries out the first branch with a pattern that matches. -/
def branch (find : Finder) : (budget : Nat) → (tested last : Bool) → (text : Octets) →
    List (List Word × Command) → Work Flow
  | 0, _, _, _, _ => return .back
  | budget + 1, tested, last, text, branches => do
    match branches with
    | [] => do
      modify (·.withStatus 0)
      return .on
    | (patterns, body) :: rest =>
      match patterns with
      | [] => branch find budget tested last text rest
      | pattern :: more =>
        match ← (Expansion.pattern (take find budget) pattern).run with
        | .error message => fatal find budget message
        | .ok pattern =>
          if !Pattern.accepts pattern text then
            branch find budget tested last text ((more, body) :: rest)
          else
            match body with
            | .nothing => do
              modify (·.withStatus 0)
              return .on
            | body => run find budget tested last body

/-- Starts the stages of a pipeline, of which the first reads from `source`; gives the
children. -/
def pipeline (find : Finder) : (budget : Nat) → (tested : Bool) → (source : Option Nat) →
    List Command → Work (List Nat)
  | 0, _, _, _ => return []
  | budget + 1, tested, source, stages => do
    let closeSource : Work Unit := match source with
      | some outlet => Work.ask (.close outlet)
      | none => return ()
    let attachSource : Work Unit := match source with
      | some outlet => attach outlet Act.input
      | none => return ()
    match stages with
    | [] => return []
    | [stage] => do
      let child ← Work.fork State.copied do
        attachSource
        let _ ← run find budget tested true stage
      closeSource
      return [child]
    | stage :: rest => do
      let (outlet, inlet) ← Work.ask .pipe
      let child ← Work.fork State.copied do
        attachSource
        Work.ask (.close outlet)
        attach inlet Act.output
        let _ ← run find budget tested true stage
      closeSource
      Work.ask (.close inlet)
      return child :: (← pipeline find budget tested (some outlet) rest)

/-- What a command prints. -/
def take (find : Finder) : (budget : Nat) → Command → Work Octets
  | 0, _ => return []
  | budget + 1, body => do
    let (outlet, inlet) ← Work.ask .pipe
    let child ← Work.fork State.copied do
      Work.ask (.close outlet)
      attach inlet Act.output
      let _ ← run find budget false true body
    Work.ask (.close inlet)
    let printed ← Act.readToEnd outlet
    Work.ask (.close outlet)
    let status ← Work.await child
    modify fun s => { s with taken := some status }
    return withoutBreaks (printed.toOption.getD [])

/-- Carries a simple command out. -/
def simple (find : Finder) : (budget : Nat) → (tested last : Bool) → (line : Nat) →
    List (Octets × Word) → List Word → List Redirect → Work Flow
  | 0, _, _, _, _, _, _ => return .back
  | budget + 1, tested, last, line, assigned, words, redirects => do
    modify fun s => { s with line, taken := none }
    let prepared ← (do
      let fields ← commandFields (take find budget) words
      return (fields, ← Redirection.prepare (take find budget) redirects) : Step _).run
    match prepared with
    | .error message => fatal find budget message
    | .ok (fields, changes) => do
      let call := Call.ofFields fields
      let name := call.fields.headD []
      let isFunction := !call.plain && (← get).functions.any (·.1 = name)
      let isSpecial := !call.plain && !isFunction && Builtin.isSpecial name
      let (kept, fault) ← Redirection.apply changes
      match fault with
      | some message => do
        Work.complain message
        Redirection.restore kept
        modify (·.withStatus 2)
        if isSpecial then leave find budget else return .on
      | none => do
        -- Assignments stay in force without a command to be made for, and with a special one.
        let stays := call.fields.isEmpty || isSpecial
        match ← (assignments (take find budget) (!stays) [] [] assigned).run with
        | .error message => do
          Redirection.restore kept
          fatal find budget message
        | .ok (before, shown) => do
          if (← get).has 'x' && !(shown.isEmpty && fields.isEmpty) then
            trace (Redirection.shownOn kept) shown fields
          let flow ← perform find budget tested last call isFunction isSpecial
          if isSpecial && name = "exec".toList then Redirection.forget kept
          else Redirection.restore kept
          if !stays then modify fun s => putBack s before
          return flow

/-- Performs a call: a function, a command of the shell itself, or a program. -/
def perform (find : Finder) : (budget : Nat) → (tested last : Bool) → Call →
    (isFunction isSpecial : Bool) → Work Flow
  | 0, _, _, _, _, _ => return .back
  | budget + 1, tested, last, call, isFunction, isSpecial => do
    match call.fields with
    | [] => do
      modify fun s => s.withStatus (s.taken.getD 0)
      return .on
    | name :: arguments =>
      let s ← get
      if isFunction then callFunction find budget tested name arguments
      else if Builtin.controls.contains (String.ofList name) then do
        modify fun s => { s with running := some name }
        let flow ← control find budget tested (String.ofList name) arguments
        modify fun s' => { s' with running := s.running }
        return flow
      else
        let builtin? : Option Builtin := match String.ofList name with
          | "type" => some (describeAll find true 0)
          | "command" => some fun arguments => do
            let (found, names) ← Builtin.options "vVp" "" arguments
            describeAll find (found.any (·.1 == 'V')) 0 (names.take 1)
          | _ => Builtin.find? name
        match builtin? with
        | some builtin => do
          modify fun s => { s with running := some name }
          match ← (builtin arguments).run with
          | .ok status => do
            modify fun s' => { s' with running := s.running, status }
            return .on
          | .error message => do
            Work.complain message
            modify fun s' => { s' with running := s.running, status := 2 }
            if isSpecial then leave find budget else return .on
        | none => external find budget last name arguments

/-- Calls a function. -/
def callFunction (find : Finder) : (budget : Nat) → (tested : Bool) → (name : Octets) →
    List Octets → Work Flow
  | 0, _, _, _ => return .back
  | budget + 1, tested, name, arguments => do
    let s ← get
    match s.functions.lookup name with
    | none => return .on
    | some body => do
      -- The loops around the call are out of reach, and names made local are put back behind it.
      modify fun s => { s with arguments, loops := 0, hidden := some [] }
      let _ ← run find budget tested false body
      modify fun s' =>
        { putBack s' (s'.hidden.getD []) with
          arguments := s.arguments, loops := s.loops, hidden := s.hidden }
      return .on

/-- Runs a program. -/
def external (find : Finder) : (budget : Nat) → (last : Bool) → (name : Octets) →
    List Octets → Work Flow
  | 0, _, _, _ => return .back
  | budget + 1, last, name, arguments => do
    let s ← get
    let found := program find (← Work.ask .files) s name arguments
    let become : Work Unit := do
      match found with
      | .ok process => do
        Redirection.closeKept s.kept
        Act.become process
      | .error cause => do
        Work.complain (programFault name cause)
        modify (·.withStatus (programStatus cause))
    -- A name that is searched for in vain fails here; a path is tried by the process itself.
    match found, name.contains '/' with
    | .error cause, false => do
      Work.complain (programFault name cause)
      modify (·.withStatus 127)
      return .on
    | _, _ =>
      if last && !s.hasTraps then do
        become
        leave find budget
      else do
        let child ← Work.fork State.copied become
        let status ← Work.await child
        modify (·.withStatus status)
        return .on

/-- Performs a command that steers the shell. -/
def control (find : Finder) : (budget : Nat) → (tested : Bool) → (name : String) →
    List Octets → Work Flow
  | 0, _, _, _ => return .back
  | budget + 1, tested, name, arguments => do
    let wanted (next : Option Nat → Work Flow) : Work Flow := do
      match arguments with
      | [] => next none
      | argument :: _ =>
        match ← (Builtin.number argument).run with
        | .ok n => next (some n)
        | .error message => fatal find budget message
    match name with
    | "exit" => wanted fun status? => do
      if let some status := status? then modify (·.withStatus status)
      leave find budget
    | "return" => wanted fun status? => do
      if let some status := status? then modify (·.withStatus status)
      return .back
    | "break" | "continue" => wanted fun count? => do
      let count := count?.getD 1
      if count = 0 then fatal find budget ("Illegal number: 0".toList)
      else do
        let loops := min count (← get).loops
        modify (·.withStatus 0)
        if loops = 0 then return .on
        return if name = "break" then .leave loops else .again loops
    | "eval" => do
      let text := List.intercalate [' '] arguments
      modify (·.withStatus 0)
      script find budget tested false { rest := text }
    | "exec" => do
      match arguments with
      | [] => do
        modify (·.withStatus 0)
        return .on
      | program :: rest => do
        let s ← get
        match Shell.program find (← Work.ask .files) s program rest with
        | .ok process => do
          Redirection.closeKept s.kept
          Act.become process
        | .error cause => do
          Work.complain (programFault program cause)
          modify (·.withStatus (programStatus cause))
          leave find budget
    | _ => do
      match arguments with
      | [] => do
        modify (·.withStatus 0)
        return .on
      | file :: _ => do
        let s ← get
        let files ← Work.ask .files
        let isFile (path : Octets) : Bool := match files.find path with
          | .ok (_, .file _ _) => true
          | _ => false
        let path? := if file.contains '/' then some file
          else ((searchPath s).map (within · file)).find? isFile
        match path? with
        | none => fatal find budget (file ++ ": not found".toList)
        | some path =>
          match files.find path with
          | .ok (_, .file bytes _) => do
            modify fun s => { s with running := some path, status := 0 }
            let flow ← script find budget tested false { rest := Octets.ofBytes bytes }
            -- Going back ends the file only.
            return if flow = .back then .on else flow
          | .ok (_, .directory) =>
            fatal find budget (Redirection.openFault path .read .isDirectory)
          | .error cause => fatal find budget (Redirection.openFault path .read cause)

/-- Complains about a fault and ends the shell. -/
def fatal (find : Finder) : (budget : Nat) → (message : Octets) → Work Flow
  | 0, _ => return .back
  | budget + 1, message => do
    Work.complain message
    modify (·.withStatus 2)
    leave find budget

/-- Does what was set for the signals that were caught. -/
def meetSignals (find : Finder) : (budget : Nat) → Work Unit
  | 0 => return ()
  | budget + 1 => do
    let caught ← Work.ask .caught
    match (← get).pending ++ caught with
    | [] => return ()
    | signal :: rest => do
      let s ← get
      modify fun s => { s with pending := rest }
      match s.traps.get? signal with
      | some text => do
        let _ ← script find budget false false { rest := text }
        modify (·.withStatus s.status)
      | none => pure ()
      meetSignals find budget

/-- Does what was set for the end of the shell, and ends it. -/
def leave (find : Finder) : (budget : Nat) → Work Flow
  | 0 => fun s => Act.exit s.status
  | budget + 1 => do
    let s ← get
    match s.traps.get? 0 with
    | some text => do
      modify fun s => { s with traps := s.traps.erase 0, running := none }
      let _ ← script find budget false false { rest := text }
      Act.exit s.status
    | none => Act.exit s.status

/-- Carries a script out, command by command. With `last` the shell ends with its last command. -/
def script (find : Finder) : (budget : Nat) → (tested last : Bool) → Source → Work Flow
  | 0, _, _, _ => return .back
  | budget + 1, tested, last, source => do
    match readCommand ((← get).resume source) with
    | .error fault => do
      modify fun s => { s with line := fault.line }
      fatal find budget fault.message
    | .ok .ended => return .on
    | .ok (.command body source) => do
      modify fun s => { s with documents := source.documents }
      let flow ← run find budget tested (last && source.isEnded) body
      if flow ≠ .on then return flow
      script find budget tested last source

end

/-! ## Shells -/

/-- The process of a shell that carries a script out. With `last` it ends with the last command of
the script. -/
def process (find : Finder) (s : State) (last : Bool) (text : Octets) : Process :=
  Act.process do
    let number ← Act.ask .self
    let tree ← Act.ask .files
    let s := { s with number }.set "PWD".toList (Octets.ofText (Path.text ⟨.root, tree.cwd⟩))
    let (_, s) ← (do
      let _ ← script find Act.budget false last { rest := text }
      leave find Act.budget : Work Flow) s
    return s.status

end SfcProxy.Tool.Shell
