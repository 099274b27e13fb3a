import BuildMatrix.Script.Parser
import BuildMatrix.Text.Number
import BuildMatrix.Text.Pieces

/-!
# Running scripts

A script prints to two streams and ends with a status. It knows a few commands: `echo`, `printf`,
`exit`, `true`, `false` and `:`; any other one is not found.
-/

namespace BuildMatrix.Script

/-- What a script is given. -/
structure Setting where
  /-- The name of the script. -/
  name : String
  arguments : List String
  vars : List (String × String)
  deriving Repr

/-- What a script has printed, its status, and whether it has ended. -/
structure Progress where
  output : List UInt8 := []
  errors : List UInt8 := []
  status : Nat := 0
  hasEnded : Bool := false
  deriving Repr

/-! ## Words -/

/-- A field of a command, with a mark on the characters that were quoted. -/
abbrev Field :=
  List (Char × Bool)

/-- The value of a parameter. -/
def parameter (s : Setting) (status : Nat) (name : String) : String :=
  if name = "#" then toString s.arguments.length
  else if name = "?" then toString status
  else if name = "@" || name = "*" then Text.joinWith " " s.arguments
  else if name = "0" then s.name
  else
    match Text.readNat 10 name.toList with
    | some n => (s.arguments[n - 1]?).getD ""
    | none => (s.vars.lookup name).getD ""

/-- Adds a character to the field that is being made. -/
def addChar (fields : List Field × Option Field) (c : Char × Bool) :
    List Field × Option Field :=
  (fields.1, some (fields.2.getD [] ++ [c]))

/-- Adds the value of a parameter. Without quotes it is split at blanks. -/
def addValue (fields : List Field × Option Field) (c : Char) : List Field × Option Field :=
  if c = ' ' || c = '\t' || c = '\n' then (fields.1 ++ fields.2.toList, none)
  else addChar fields (c, false)

/-- The fields that a word makes. -/
def fieldsOf (s : Setting) (status : Nat) (w : Word) : List Field :=
  let start := ([], if w.isEmpty then some [] else none)
  let (fields, last) := w.foldl (fun fields part =>
    match part with
    | .char c q => addChar fields (c, q)
    | .param name true =>
      (parameter s status name).toList.foldl (fun fields c => addChar fields (c, true))
        (fields.1, some (fields.2.getD []))
    | .param name false => (parameter s status name).toList.foldl addValue fields) start
  fields ++ last.toList

/-- The words of a command, after parameters are filled in. -/
def expandWords (s : Setting) (status : Nat) (ws : List Word) : List String :=
  (ws.flatMap (fieldsOf s status)).map fun field => String.ofList (field.map Prod.fst)

/-! ## Patterns -/

/-- Whether a text matches a pattern. Without quotes a star stands for any text and a question mark
for any character. -/
def matchesPattern : Field → List Char → Bool
  | [], cs => cs.isEmpty
  | ('*', false) :: p, [] => matchesPattern p []
  | ('*', false) :: p, c :: cs => matchesPattern p (c :: cs) || matchesPattern (('*', false) :: p) cs
  | ('?', false) :: p, _ :: cs => matchesPattern p cs
  | (x, _) :: p, c :: cs => x = c && matchesPattern p cs
  | _ :: _, [] => false
termination_by p cs => (p.length, cs.length)

/-- A word as one field. -/
def wholeOf (s : Setting) (status : Nat) (w : Word) : Field :=
  w.flatMap fun
    | .char c q => [(c, q)]
    | .param name q => (parameter s status name).toList.map (·, q)

/-! ## Commands -/

/-- The bytes of a text. -/
def bytesOf (s : String) : List UInt8 :=
  s.toUTF8.toList

/-- The byte that a letter after a backslash stands for. -/
def escapedByte? (c : Char) : Option UInt8 :=
  match c with
  | 'a' => some 7
  | 'b' => some 8
  | 'f' => some 12
  | 'n' => some 10
  | 'r' => some 13
  | 't' => some 9
  | 'v' => some 11
  | '\\' => some 92
  | _ => none

/-- Whether a character is an octal digit. -/
def isOctal (c : Char) : Bool :=
  '0' ≤ c && c ≤ '7'

/-- The byte that octal digits stand for. -/
def octalByte (cs : List Char) : UInt8 :=
  UInt8.ofNat ((Text.readNat 8 cs).getD 0)

/-- A conversion in a format: its letter, if it takes an argument. -/
inductive FormatPart
  | byte (b : UInt8)
  | text (c : Char)
  | argument
  deriving DecidableEq, Repr

/-- The parts of a format; `%s` and `%d` take an argument. -/
def formatParts : List Char → List FormatPart
  | '\\' :: a :: b :: c :: cs =>
    if isOctal a && isOctal b && isOctal c then .byte (octalByte [a, b, c]) :: formatParts cs
    else if isOctal a && isOctal b then .byte (octalByte [a, b]) :: formatParts (c :: cs)
    else if isOctal a then .byte (octalByte [a]) :: formatParts (b :: c :: cs)
    else
      match escapedByte? a with
      | some x => .byte x :: formatParts (b :: c :: cs)
      | none => .text '\\' :: .text a :: formatParts (b :: c :: cs)
  | '\\' :: a :: cs =>
    if isOctal a then .byte (octalByte [a]) :: formatParts cs
    else
      match escapedByte? a with
      | some x => .byte x :: formatParts cs
      | none => .text '\\' :: .text a :: formatParts cs
  | '%' :: '%' :: cs => .text '%' :: formatParts cs
  | '%' :: 's' :: cs | '%' :: 'd' :: cs => .argument :: formatParts cs
  | c :: cs => .text c :: formatParts cs
  | [] => []

/-- What a format makes of arguments, and the arguments that are left. -/
def fillFormat : List FormatPart → List String → List UInt8 × List String
  | [], args => ([], args)
  | .byte b :: ps, args =>
    let (bytes, rest) := fillFormat ps args
    (b :: bytes, rest)
  | .text c :: ps, args =>
    let (bytes, rest) := fillFormat ps args
    (bytesOf (String.singleton c) ++ bytes, rest)
  | .argument :: ps, args =>
    let (bytes, rest) := fillFormat ps args.tail
    (bytesOf (args.headD "") ++ bytes, rest)

/-- What a format makes of all arguments: it is used again while it takes some. -/
def formatAll (parts : List FormatPart) : Nat → List String → List UInt8
  | 0, _ => []
  | fuel + 1, args =>
    let (bytes, rest) := fillFormat parts args
    if rest.isEmpty || rest.length = args.length then bytes else bytes ++ formatAll parts fuel rest

/-- Sends bytes to a stream. -/
def send (p : Progress) (stream : Nat) (bytes : List UInt8) : Progress :=
  if stream = 2 then { p with errors := p.errors ++ bytes }
  else if stream = 1 then { p with output := p.output ++ bytes }
  else p

/-- The stream that output for a stream goes to. -/
def streamOf (redirects : List Redirect) (stream : Nat) : Nat :=
  let streams := redirects.foldl (fun (out, err) r =>
    let target := if r.target = 2 then err else if r.target = 1 then out else r.target
    if r.source = 2 then (out, target) else if r.source = 1 then (target, err) else (out, err))
    (1, 2)
  if stream = 2 then streams.2 else streams.1

/-- Runs a command with its words. -/
def runWords (s : Setting) (p : Progress) (redirects : List Redirect) : List String → Progress
  | [] => { p with status := 0 }
  | "echo" :: args =>
    let (args, ending) := if args.head? = some "-n" then (args.tail, "") else (args, "\n")
    { send p (streamOf redirects 1) (bytesOf (Text.joinWith " " args ++ ending)) with status := 0 }
  | "printf" :: format :: args =>
    let bytes := formatAll (formatParts format.toList) (args.length + 1) args
    { send p (streamOf redirects 1) bytes with status := 0 }
  | "exit" :: args =>
    let status := ((args.head?.bind fun a => Text.readNat 10 a.toList).getD p.status) % 256
    { p with status, hasEnded := true }
  | "true" :: _ | ":" :: _ => { p with status := 0 }
  | "false" :: _ => { p with status := 1 }
  | command :: _ =>
    let message := s.name ++ ": " ++ command ++ ": not found\n"
    { send p (streamOf redirects 2) (bytesOf message) with status := 127 }

/-- Whether a command is run after a status. -/
def Link.isTaken (link : Link) (status : Nat) : Bool :=
  match link with
  | always => true
  | ifOk => status = 0
  | ifFailed => status ≠ 0

mutual

/-- Runs a command. -/
def runCommand (s : Setting) (p : Progress) : Command → Progress
  | .simple words redirects => runWords s p redirects (expandWords s p.status words)
  | .choose subject branches =>
    runBranches s p ((wholeOf s p.status subject).map Prod.fst) branches

/-- Runs commands one after the other, as long as the script has not ended. -/
def runSteps (s : Setting) (p : Progress) : List (Link × Command) → Progress
  | [] => p
  | (link, command) :: rest =>
    if p.hasEnded then p
    else if link.isTaken p.status then runSteps s (runCommand s p command) rest
    else runSteps s p rest

/-- Runs the first branch that the subject matches. -/
def runBranches (s : Setting) (p : Progress) (subject : List Char) :
    List (List Word × List (Link × Command)) → Progress
  | [] => { p with status := 0 }
  | (patterns, steps) :: rest =>
    if patterns.any fun w => matchesPattern (wholeOf s p.status w) subject then
      runSteps s { p with status := 0 } steps
    else runBranches s p subject rest

end

/-- Runs a script. One that cannot be read ends with a status of its own. -/
def run (s : Setting) (text : String) : Progress :=
  match parse? text with
  | some steps => runSteps s {} steps
  | none => { errors := bytesOf (s.name ++ ": Syntax error\n"), status := 2, hasEnded := true }

end BuildMatrix.Script
