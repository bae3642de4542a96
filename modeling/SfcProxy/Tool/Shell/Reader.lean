import SfcProxy.Tool.Shell.Syntax

/-!
# Reading scripts

A script is read one whole command after the other, so that what stands before a fault is still
carried out. Documents follow the line that names them.

## Main definitions

* `Shell.Fault`: what is wrong with a script, and on which line
* `Shell.Token`: what commands are made of
* `Shell.readCommand`: the next command of a script
-/

namespace SfcProxy.Tool.Shell

/-- What is wrong with a script, and on which line. -/
structure Fault where
  message : Octets
  line : Nat
  deriving DecidableEq

/-- A token of a script. -/
inductive Token where
  /-- A word, and its text if nothing in it is quoted or expanded. -/
  | word (parts : Word) (plain : Option Octets)
  /-- The operator of a redirection, and the stream in front of it. -/
  | redirect (stream : Option Nat) (operator : String)
  | operator (text : String)
  | newline
  | ended

/-- A document that is still to come: its number, the line that ends it, whether tabs at the start
of lines are dropped, and whether it is taken as it is. -/
structure Awaited where
  number : Nat
  ending : Octets
  strips : Bool
  verbatim : Bool
  deriving DecidableEq

/-- Where reading stands: the rest of the script, the line, a token that was read too early, the
documents that are still to come, those that came, and their number. -/
structure Source where
  rest : Octets
  line : Nat := 1
  pushed : Option Token := none
  awaited : List Awaited := []
  documents : Documents := []
  fresh : Nat := 0

/-- A step of reading. -/
abbrev Read := StateT Source (Except Fault)

namespace Read

/-! ## Characters -/

/-- Fails on the current line. -/
def fault {α : Type} (message : Octets) : Read α := do
  throw ⟨message, (← get).line⟩

/-- Fails because the rules of the language are broken. -/
def wrong {α : Type} (message : Octets) : Read α :=
  fault ("Syntax error: ".toList ++ message)

/-- What comes next. -/
def rest : Read Octets := do
  return (← get).rest

/-- Passes over characters, of which those that end lines are counted. -/
def skip (n : Nat) : Read Unit :=
  modify fun s =>
    { s with rest := s.rest.drop n
             line := s.line + ((s.rest.take n).filter (· == '\n')).length }

/-- Reads the characters at the front that satisfy a test. -/
def run (test : Char → Bool) : Read Octets := do
  let taken := (← rest).takeWhile test
  skip taken.length
  return taken

/-- Passes over blanks, line continuations and a comment, at most `budget` of them. -/
def skipBlanks : (budget : Nat) → Read Unit
  | 0 => return ()
  | budget + 1 => do
    match ← rest with
    | ' ' :: _ | '\t' :: _ => do
      skip 1
      skipBlanks budget
    | '\\' :: '\n' :: _ => do
      skip 2
      skipBlanks budget
    | '#' :: _ => do
      let _ ← run (· != '\n')
    | _ => return ()

/-- A character that ends a word. -/
def endsWord (c : Char) : Bool :=
  " \t\n;&|<>()".toList.contains c

/-! ## Tokens -/

/-- The name of a token in messages. -/
def tokenName : Token → Octets
  | .word _ (some text) =>
    if reserved.contains (String.ofList text) then '"' :: text ++ ['"'] else "word".toList
  | .word _ none => "word".toList
  | .redirect _ _ => "redirection".toList
  | .operator text => '"' :: text.toList ++ ['"']
  | .newline => "newline".toList
  | .ended => "end of file".toList

/-- Fails at a token; something else may have been expected. -/
def unexpected {α : Type} (token : Token) (expecting : Option String) : Read α :=
  wrong (tokenName token ++ " unexpected".toList ++ match expecting with
    | some text => " (expecting \"".toList ++ text.toList ++ "\")".toList
    | none => [])

/-- Gives a token back. -/
def push (token : Token) : Read Unit :=
  modify fun s => { s with pushed := some token }

/-- The operators, longer ones first. -/
def operators : List String :=
  ["&&", "||", ";;", "&", "|", ";", "(", ")"]

/-- The operators of redirections, longer ones first. -/
def redirections : List String :=
  ["<<-", "<<", "<&", "<>", ">>", ">&", ">|", "<", ">"]

/-- The operator of a list at the front, if there is one. -/
def operatorAt (texts : List String) : Read (Option String) := do
  let cs ← rest
  match texts.find? fun t => t.toList.isPrefixOf cs with
  | some t => do
    skip t.length
    return some t
  | none => return none

/-! ## Documents -/

/-- The lines of a document up to its end, at most `budget` of them. -/
def documentLines (ending : Octets) (strips : Bool) : (budget : Nat) → Read Octets
  | 0 => return []
  | budget + 1 => do
    if (← rest).isEmpty then return []
    let line ← run (· != '\n')
    let atEnd := (← rest).isEmpty
    skip 1
    let line := if strips then line.dropWhile (· == '\t') else line
    if line = ending then return []
    let more ← documentLines ending strips budget
    return line ++ (if atEnd then [] else ['\n']) ++ more

/-! ## Words -/

/-- Text as a part; nothing is no part. -/
def textPart (s : Octets) (quoted : Bool) : Word :=
  if s.isEmpty then [] else [.text s quoted]

/-- Parts in front of others; texts that are quoted alike are joined. -/
def joined (first : Word) (more : Word) : Word :=
  match first, more with
  | [.text s quoted], .text t quoted' :: rest =>
    if quoted = quoted' then .text (s ++ t) quoted :: rest else .text s quoted :: more
  | _, _ => first ++ more

/-- The text of a word if nothing in it is quoted or expanded. -/
def plain? : Word → Option Octets
  | [.text s false] => some s
  | _ => none

/-- The text of a word as it is written, without its quotes. -/
def bare (w : Word) : Octets :=
  w.flatMap fun
    | .text s _ => s
    | _ => []

/-- Anything in a word is quoted. -/
def isQuoted (w : Word) : Bool :=
  w.any fun
    | .text _ quoted => quoted
    | .quotes => true
    | _ => false

/-- The text between backquotes; `inDouble` tells whether they stand in double quotes. -/
def backquoted (inDouble : Bool) : (budget : Nat) → Read Octets
  | 0 => wrong "EOF in backquote substitution".toList
  | budget + 1 => do
    match ← rest with
    | [] => wrong "EOF in backquote substitution".toList
    | '\x60' :: _ => do
      skip 1
      return []
    | '\\' :: c :: _ => do
      skip 2
      let more ← backquoted inDouble budget
      if c = '\n' then return more
      let dropped := c = '\\' || c = '\x60' || c = '$' || (inDouble && c = '"')
      return if dropped then c :: more else '\\' :: c :: more
    | c :: _ => do
      skip 1
      return c :: (← backquoted inDouble budget)

/-- The operation behind the name of a parameter in braces. -/
def operation : Read Operation := do
  let (colon, cs) := match ← rest with
    | ':' :: more => (true, more)
    | cs => (false, cs)
  let taken (n : Nat) (op : Operation) : Read Operation := do
    skip (n + if colon then 1 else 0)
    return op
  match cs with
  | '-' :: _ => taken 1 (.fallback colon)
  | '=' :: _ => taken 1 (.assign colon)
  | '?' :: _ => taken 1 (.require colon)
  | '+' :: _ => taken 1 (.alternative colon)
  | '%' :: '%' :: _ => if colon then return .bad else taken 2 (.trimEnd true)
  | '%' :: _ => if colon then return .bad else taken 1 (.trimEnd false)
  | '#' :: '#' :: _ => if colon then return .bad else taken 2 (.trimStart true)
  | '#' :: _ => if colon then return .bad else taken 1 (.trimStart false)
  | '}' :: _ => return if colon then .bad else .plain
  | _ => return .bad

/-- The name of a parameter at the front; nothing if there is none. -/
def parameterName : Read Octets := do
  match ← rest with
  | c :: _ =>
    if isNameStart c then run isNameChar
    else if c.isDigit then run Char.isDigit
    else if isSpecial c then do
      skip 1
      return [c]
    else return []
  | [] => return []

/-- The assignment that a word makes: a name and the word behind its equals sign. -/
def assignment? (w : Word) : Option (Octets × Word) :=
  match w with
  | .text s false :: more =>
    let name := s.takeWhile (· != '=')
    if name.length < s.length && isName name then
      some (name, textPart (s.drop (name.length + 1)) false ++ more)
    else none
  | _ => none

/-- The kind of a redirection, but for documents. -/
def redirectKind : String → RedirectKind
  | "<" => .input
  | ">>" => .append
  | "<>" => .update
  | "<&" | ">&" => .duplicate
  | _ => .output

/-- The words that end a list of commands. -/
def endsList : Token → Bool
  | .ended => true
  | .operator text => text = ")" || text = ";;"
  | .word _ (some text) =>
    ["do", "done", "elif", "else", "esac", "fi", "then", "\x7d"].contains (String.ofList text)
  | _ => false

/-- The token is a word with a meaning. -/
def isReserved (token : Token) (text : String) : Bool :=
  match token with
  | .word _ (some plain) => plain = text.toList
  | _ => false

mutual

/-- Reads the rest of a word outside quotes. -/
def word : (budget : Nat) → Read Word
  | 0 => wrong "word too long".toList
  | budget + 1 => do
    match ← rest with
    | [] => return []
    | '\'' :: _ => do
      skip 1
      let text ← run (· != '\'')
      if (← rest).isEmpty then wrong "Unterminated quoted string".toList
      skip 1
      return .quotes :: joined (textPart text true) (← word budget)
    | '"' :: _ => do
      skip 1
      let inner ← double budget (some '"')
      skip 1
      let more ← word budget
      match inner with
      | [.parameter ['@'] .plain _ _] => return inner ++ more
      | _ => return .quotes :: (inner ++ more)
    | '\\' :: '\n' :: _ => do
      skip 2
      word budget
    | '\\' :: c :: _ => do
      skip 2
      return joined [.text [c] true] (← word budget)
    | '$' :: _ => do
      let part ← dollar budget false
      return joined part (← word budget)
    | '\x60' :: _ => do
      let part ← backquote budget false
      return part :: (← word budget)
    | c :: _ => do
      if endsWord c then return []
      let text ← run fun c => !endsWord c && !"'\"\\$`".toList.contains c
      if text.isEmpty then do
        -- A backslash at the very end stands for itself.
        skip 1
        return joined [.text [c] true] (← word budget)
      return joined (textPart text false) (← word budget)

/-- Reads parts inside double quotes up to a closing character, or to the end of a document. -/
def double : (budget : Nat) → (closing : Option Char) → Read Word
  | 0, _ => wrong "word too long".toList
  | budget + 1, closing => do
    match ← rest with
    | [] => if closing.isNone then return [] else wrong "Unterminated quoted string".toList
    | '\\' :: '\n' :: _ => do
      skip 2
      double budget closing
    | '\\' :: c :: _ => do
      skip 2
      let escapes := c = '$' || c = '\x60' || c = '\\' || some c = closing
      return joined [.text (if escapes then [c] else ['\\', c]) true] (← double budget closing)
    | '$' :: _ => do
      let part ← dollar budget true
      return joined part (← double budget closing)
    | '\x60' :: _ => do
      let part ← backquote budget true
      return part :: (← double budget closing)
    | c :: _ => do
      if some c = closing then return []
      let text ← run fun c => some c ≠ closing && !"\\$`".toList.contains c
      if text.isEmpty then do
        skip 1
        return joined [.text [c] true] (← double budget closing)
      return joined (textPart text true) (← double budget closing)

/-- Reads what a dollar sign stands for. -/
def dollar : (budget : Nat) → (quoted : Bool) → Read Word
  | 0, _ => wrong "word too long".toList
  | budget + 1, quoted => do
    skip 1
    match ← rest with
    | '(' :: '(' :: _ => do
      skip 2
      let expression ← arithmetic budget 0
      return [.arithmetic expression quoted]
    | '(' :: _ => do
      skip 1
      let pushed := (← get).pushed
      modify fun s => { s with pushed := none }
      let body ← commandList budget true false
      let token ← next budget
      match token with
      | .operator ")" => do
        modify fun s => { s with pushed }
        return [.command body quoted]
      | token => unexpected token (some ")")
    | '{' :: _ => do
      skip 1
      return [← braced budget quoted]
    | c :: _ => do
      if isNameStart c then return [.parameter (← run isNameChar) .plain [] quoted]
      if c.isDigit || isSpecial c then do
        skip 1
        return [.parameter [c] .plain [] quoted]
      return [.text ['$'] quoted]
    | [] => return [.text ['$'] quoted]

/-- Reads a command between backquotes. -/
def backquote : (budget : Nat) → (quoted : Bool) → Read Part
  | 0, _ => wrong "word too long".toList
  | budget + 1, quoted => do
    skip 1
    let text ← backquoted quoted ((← rest).length + 1)
    let outer ← get
    set { outer with rest := text, pushed := none, awaited := [] }
    let body ← lines budget
    modify fun s => { s with rest := outer.rest, line := outer.line, pushed := outer.pushed
                             awaited := outer.awaited }
    return .command body quoted

/-- Reads a parameter in braces. -/
def braced : (budget : Nat) → (quoted : Bool) → Read Part
  | 0, _ => wrong "word too long".toList
  | budget + 1, quoted => do
    let measured := match ← rest with
      | '#' :: c :: _ => c ≠ '}' && (isNameChar c || isSpecial c)
      | _ => false
    if measured then do
      skip 1
      let name ← parameterName
      let closed := (← rest).head? = some '}'
      if !closed then do
        let _ ← bracedWord budget quoted
      skip 1
      return .parameter name (if closed then .length else .bad) [] quoted
    let name ← parameterName
    let op ← if name.isEmpty then pure .bad else operation
    let inner := match op with
      | .trimEnd _ | .trimStart _ => false
      | _ => quoted
    let w ← bracedWord budget inner
    skip 1
    return .parameter name op w quoted

/-- Reads the word behind the operation of a parameter up to the closing brace. -/
def bracedWord : (budget : Nat) → (quoted : Bool) → Read Word
  | 0, _ => wrong "word too long".toList
  | budget + 1, quoted => do
    match ← rest with
    | [] => wrong "Missing '\x7d'".toList
    | '}' :: _ => return []
    | '"' :: _ => do
      skip 1
      let inner ← double budget (some '"')
      skip 1
      return .quotes :: (inner ++ (← bracedWord budget quoted))
    | '\\' :: '\n' :: _ => do
      skip 2
      bracedWord budget quoted
    | '\\' :: c :: _ => do
      skip 2
      let escapes := !quoted || "$`\"\\\x7d".toList.contains c
      return joined [.text (if escapes then [c] else ['\\', c]) true] (← bracedWord budget quoted)
    | '$' :: _ => do
      let part ← dollar budget quoted
      return joined part (← bracedWord budget quoted)
    | '\x60' :: _ => do
      let part ← backquote budget quoted
      return part :: (← bracedWord budget quoted)
    | c :: _ => do
      if c = '\'' && !quoted then do
        skip 1
        let text ← run (· != '\'')
        if (← rest).isEmpty then wrong "Unterminated quoted string".toList
        skip 1
        return .quotes :: joined (textPart text true) (← bracedWord budget quoted)
      skip 1
      return joined [.text [c] quoted] (← bracedWord budget quoted)

/-- Reads an arithmetic expression; `depth` parentheses are open. -/
def arithmetic : (budget : Nat) → (depth : Nat) → Read Word
  | 0, _ => wrong "word too long".toList
  | budget + 1, depth => do
    match ← rest with
    | [] => wrong "Missing '))'".toList
    | ')' :: more => do
      if depth > 0 then do
        skip 1
        return joined [.text [')'] true] (← arithmetic budget (depth - 1))
      if more.head? = some ')' then do
        skip 2
        return []
      skip 1
      return joined [.text [')'] true] (← arithmetic budget depth)
    | '(' :: _ => do
      skip 1
      return joined [.text ['('] true] (← arithmetic budget (depth + 1))
    | '\\' :: '\n' :: _ => do
      skip 2
      arithmetic budget depth
    | '$' :: _ => do
      let part ← dollar budget true
      return joined part (← arithmetic budget depth)
    | '\x60' :: _ => do
      let part ← backquote budget true
      return part :: (← arithmetic budget depth)
    | '"' :: _ => do
      skip 1
      arithmetic budget depth
    | c :: _ => do
      skip 1
      return joined [.text [c] true] (← arithmetic budget depth)

/-- Reads the bodies of the documents that are still to come. -/
def documents : (budget : Nat) → List Awaited → Read Unit
  | 0, _ => return ()
  | _, [] => return ()
  | budget + 1, d :: more => do
    let line := (← get).line
    let text ← documentLines d.ending d.strips ((← rest).length + 1)
    if d.verbatim then
      modify fun s => { s with documents := s.documents ++ [(d.number, textPart text true)] }
    else do
      let outer ← get
      set { outer with rest := text, line, pushed := none }
      let parts ← double budget none
      modify fun s => { s with rest := outer.rest, line := outer.line, pushed := outer.pushed
                               documents := s.documents ++ [(d.number, parts)] }
    documents budget more

/-- Reads the next token. -/
def next : (budget : Nat) → Read Token
  | 0 => wrong "word too long".toList
  | budget + 1 => do
    match (← get).pushed with
    | some token => do
      modify fun s => { s with pushed := none }
      return token
    | none => do
      skipBlanks ((← rest).length + 1)
      match ← rest with
      | [] => do
        let awaited := (← get).awaited
        modify fun s => { s with awaited := [] }
        documents budget awaited
        return .ended
      | '\n' :: _ => do
        -- The documents that the line asked for stand right behind its end.
        skip 1
        let awaited := (← get).awaited
        modify fun s => { s with awaited := [] }
        documents budget awaited
        return .newline
      | _ => do
        match ← operatorAt operators with
        | some text => return .operator text
        | none =>
          match ← operatorAt redirections with
          | some text => return .redirect none text
          | none => do
            -- One digit names a stream if a redirection follows at once.
            let w ← word budget
            let plain := plain? w
            let digits := plain.bind Octets.toNat?
            match digits, ← rest with
            | some n, '<' :: _ | some n, '>' :: _ =>
              if (plain.getD []).length = 1 then
                match ← operatorAt redirections with
                | some text => return .redirect (some n) text
                | none => return .word w plain
              else return .word w plain
            | _, _ => return .word w plain

/-- Passes over line breaks and gives the token behind them. -/
def nextPastBreaks : (budget : Nat) → Read Token
  | 0 => wrong "word too long".toList
  | budget + 1 => do
    match ← next budget with
    | .newline => nextPastBreaks budget
    | token => return token

/-- Reads commands up to the end of a list. With `inner` line breaks do not end it, and with
`needed` it may not be empty. -/
def commandList : (budget : Nat) → (inner needed : Bool) → Read Command
  | 0, _, _ => wrong "too many commands".toList
  | budget + 1, inner, needed => do
    let token ← if inner then nextPastBreaks budget else next budget
    match token with
    | .newline => return .nothing
    | .ended => do
      push .ended
      return .nothing
    | token => do
      push token
      if inner && !needed && endsList token then return .nothing
      let first ← andOr budget
      match ← next budget with
      | .operator "&" => do
        let more ← commandList budget inner false
        return .sequence (.background first) more
      | .operator ";" => do
        let more ← commandList budget inner false
        return .sequence first more
      | .newline => do
        if inner then return .sequence first (← commandList budget inner false)
        return first
      | .ended => do
        push .ended
        return first
      | token => do
        if !inner then unexpected token none
        push token
        return first

/-- Reads pipelines joined by `&&` and `||`. -/
def andOr : (budget : Nat) → Read Command
  | 0 => wrong "too many commands".toList
  | budget + 1 => do
    let first ← pipeline budget
    more budget first

/-- Reads further pipelines behind a first one. -/
def more : (budget : Nat) → Command → Read Command
  | 0, _ => wrong "too many commands".toList
  | budget + 1, first => do
    match ← next budget with
    | .operator "&&" => do
      push (← nextPastBreaks budget)
      let second ← pipeline budget
      more budget (.both first second)
    | .operator "||" => do
      push (← nextPastBreaks budget)
      let second ← pipeline budget
      more budget (.either first second)
    | token => do
      push token
      return first

/-- Reads commands joined by pipes. -/
def pipeline : (budget : Nat) → Read Command
  | 0 => wrong "too many commands".toList
  | budget + 1 => do
    let token ← next budget
    if isReserved token "!" then return .negate (← pipeline budget)
    push token
    let first ← command budget
    let stages ← furtherStages budget
    return if stages.isEmpty then first else .pipeline (first :: stages)

/-- Reads the commands behind pipes. -/
def furtherStages : (budget : Nat) → Read (List Command)
  | 0 => wrong "too many commands".toList
  | budget + 1 => do
    match ← next budget with
    | .operator "|" => do
      push (← nextPastBreaks budget)
      let stage ← command budget
      return stage :: (← furtherStages budget)
    | token => do
      push token
      return []

/-- Reads a word that has to follow. -/
def expect : (budget : Nat) → String → Read Unit
  | 0, _ => wrong "too many commands".toList
  | budget + 1, text => do
    let token ← nextPastBreaks budget
    if isReserved token text then return ()
    unexpected token (some text)

/-- Reads the redirections behind a command. -/
def redirects : (budget : Nat) → Read (List Redirect)
  | 0 => wrong "too many commands".toList
  | budget + 1 => do
    match ← next budget with
    | .redirect stream text => do
      let r ← redirect budget stream text
      return r :: (← redirects budget)
    | token => do
      push token
      return []

/-- Reads the target of a redirection. -/
def redirect : (budget : Nat) → Option Nat → String → Read Redirect
  | 0, _, _ => wrong "too many commands".toList
  | budget + 1, stream, text => do
    match ← next budget with
    | .word w _ => do
      let stream := stream.getD (if text.toList.head? = some '<' then 0 else 1)
      if text = "<<" || text = "<<-" then do
        let number := (← get).fresh
        modify fun s => { s with
          fresh := number + 1
          awaited := s.awaited ++ [⟨number, bare w, text = "<<-", isQuoted w⟩] }
        return .mk stream (.document number) []
      return .mk stream (redirectKind text) w
    | token => unexpected token none

/-- Reads a command. -/
def command : (budget : Nat) → Read Command
  | 0 => wrong "too many commands".toList
  | budget + 1 => do
    let token ← next budget
    let compound : Read (Option Command) := do
      match token with
      | .operator "(" => do
        let body ← commandList budget true true
        match ← next budget with
        | .operator ")" => return some (.subshell body)
        | token => unexpected token (some ")")
      | .word _ (some text) =>
        match String.ofList text with
        | "if" => return some (← choice budget)
        | "while" => return some (← loop budget false)
        | "until" => return some (← loop budget true)
        | "for" => return some (← each budget)
        | "case" => return some (← caseCommand budget)
        | "\x7b" => do
          let body ← commandList budget true true
          expect budget "\x7d"
          return some body
        | _ => return none
      | _ => return none
    match ← compound with
    | some body => do
      let rs ← redirects budget
      return if rs.isEmpty then body else .redirected body rs
    | none => do
      match token with
      | .word _ plain => do
        if plain.any fun text => reserved.contains (String.ofList text) && text ≠ ['i', 'n'] then
          unexpected token none
        let line := (← get).line
        push token
        simple budget line true [] [] []
      | .redirect _ _ => do
        let line := (← get).line
        push token
        simple budget line true [] [] []
      | token => unexpected token none

/-- Reads the rest of a simple command behind its parts so far, which are given last first. -/
def simple : (budget : Nat) → (line : Nat) → (assigns : Bool) → List (Octets × Word) →
    List Word → List Redirect → Read Command
  | 0, _, _, _, _, _ => wrong "too many commands".toList
  | budget + 1, line, assigns, assignments, words, rs => do
    match ← next budget with
    | .word w _ =>
      match if assigns then assignment? w else none with
      | some a => simple budget line true (a :: assignments) words rs
      | none => simple budget line false assignments (w :: words) rs
    | .redirect stream text => do
      let r ← redirect budget stream text
      simple budget line assigns assignments words (r :: rs)
    | token => do
      match token, assignments, words, rs with
      | .operator "(", [], [w], [] => do
        match ← next budget with
        | .operator ")" => do
          match plain? w with
          | some name => do
            if !isName name then wrong "Bad function name".toList
            push (← nextPastBreaks budget)
            return .define name (← command budget)
          | none => wrong "Bad function name".toList
        | token => unexpected token (some ")")
      | _, _, _, _ => do
        push token
        return .simple line assignments.reverse words.reverse rs.reverse

/-- Reads a choice behind its first word. -/
def choice : (budget : Nat) → Read Command
  | 0 => wrong "too many commands".toList
  | budget + 1 => do
    let test ← commandList budget true true
    expect budget "then"
    let body ← commandList budget true true
    let token ← nextPastBreaks budget
    if isReserved token "elif" then return .choice test body (← choice budget)
    if isReserved token "else" then do
      let otherwise ← commandList budget true true
      expect budget "fi"
      return .choice test body otherwise
    if isReserved token "fi" then return .choice test body .nothing
    unexpected token (some "fi")

/-- Reads a loop behind its first word. -/
def loop : (budget : Nat) → (negated : Bool) → Read Command
  | 0, _ => wrong "too many commands".toList
  | budget + 1, negated => do
    let test ← commandList budget true true
    expect budget "do"
    let body ← commandList budget true true
    expect budget "done"
    return .loop negated test body

/-- Reads words up to the end of a line. -/
def wordsToEnd : (budget : Nat) → Read (List Word)
  | 0 => wrong "too many commands".toList
  | budget + 1 => do
    match ← next budget with
    | .word w _ => return w :: (← wordsToEnd budget)
    | .newline | .operator ";" => return []
    | token => unexpected token none

/-- Reads a loop over words behind its first word. -/
def each : (budget : Nat) → Read Command
  | 0 => wrong "too many commands".toList
  | budget + 1 => do
    match ← next budget with
    | .word _ (some name) => do
      if !isName name then wrong "Bad for loop variable".toList
      let token ← nextPastBreaks budget
      let words ← if isReserved token "in" then pure (some (← wordsToEnd budget))
        else do
          match token with
          | .operator ";" => pure none
          | token => do
            push token
            pure none
      expect budget "do"
      let body ← commandList budget true true
      expect budget "done"
      return .each name words body
    | _ => wrong "Bad for loop variable".toList

/-- Reads a choice by patterns behind its first word. -/
def caseCommand : (budget : Nat) → Read Command
  | 0 => wrong "too many commands".toList
  | budget + 1 => do
    match ← next budget with
    | .word subject _ => do
      let token ← nextPastBreaks budget
      if !isReserved token "in" then unexpected token (some "in")
      return .cases subject (← branches budget)
    | token => unexpected token (some "word")

/-- Reads the branches of a choice by patterns. -/
def branches : (budget : Nat) → Read (List (List Word × Command))
  | 0 => wrong "too many commands".toList
  | budget + 1 => do
    let token ← nextPastBreaks budget
    if isReserved token "esac" then return []
    let token ← match token with
      | .operator "(" => next budget
      | token => pure token
    let patterns ← casePatterns budget token
    let body ← commandList budget true false
    let token ← nextPastBreaks budget
    if isReserved token "esac" then return [(patterns, body)]
    match token with
    | .operator ";;" => return (patterns, body) :: (← branches budget)
    | token => unexpected token (some ";;")

/-- Reads the patterns of a branch, of which the first token was read. -/
def casePatterns : (budget : Nat) → Token → Read (List Word)
  | 0, _ => wrong "too many commands".toList
  | budget + 1, token => do
    match token with
    | .word w _ => do
      match ← next budget with
      | .operator "|" => do
        let token ← next budget
        return w :: (← casePatterns budget token)
      | .operator ")" => return [w]
      | token => unexpected token (some ")")
    | token => unexpected token (some ")")

/-- Reads all commands of a script that stands in another one. -/
def lines : (budget : Nat) → Read Command
  | 0 => wrong "too many commands".toList
  | budget + 1 => do
    let first ← commandList budget true false
    match ← next budget with
    | .ended => return first
    | token => unexpected token none

end

/-- The number of steps that reading a script takes at most. -/
def stepsFor (s : Octets) : Nat :=
  12 * s.length + 100

end Read

/-- What comes of reading the next command: a command and the source behind it, or the end. -/
inductive Next where
  | command (body : Command) (source : Source)
  | ended

/-- The next command of a script. -/
def readCommand (source : Source) : Except Fault Next := do
  let budget := Read.stepsFor source.rest
  let (token, s) ← Read.next budget source
  match token with
  | .ended => return .ended
  | .newline => return .command .nothing s
  | token => do
    let (body, s) ← Read.commandList budget false true { s with pushed := some token }
    return .command body s

/-- The end of the script was found directly behind the last command. -/
def Source.isEnded (s : Source) : Bool :=
  match s.pushed with
  | some .ended => true
  | _ => false

end SfcProxy.Tool.Shell
