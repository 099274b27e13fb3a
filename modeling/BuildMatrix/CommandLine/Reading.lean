import BuildMatrix.Text.Number
import BuildMatrix.Text.Pieces

/-!
# Reading arguments

Arguments are options, a command and words. An option has a long name and possibly a letter; it stands
alone, takes one value, or takes several. Letters may be joined, a value may be attached with an equals
sign or, after a letter, directly, and after two dashes only words follow. An option that stands alone or
takes one value may be given once.
-/

namespace BuildMatrix.CommandLine

/-- What a value must be. -/
inductive ValueKind
  | text
  /-- A path; it is not empty. -/
  | path
  | number
  | choice (words : List String)
  deriving DecidableEq, Repr

/-- Whether a text is a value of a kind. -/
def ValueKind.accepts (k : ValueKind) (s : String) : Bool :=
  match k with
  | text => true
  | path => !s.isEmpty
  | number => (Text.readUnsigned s.toList).isSome
  | choice words => words.contains s

/-- What an option takes. -/
inductive Shape
  | flag
  /-- A flag that may be repeated. -/
  | counter
  | single (kind : ValueKind)
  /-- At least so many values, each of which may be several with a separator between them. -/
  | several (kind : ValueKind) (least : Nat) (separator : Option Char)
  deriving DecidableEq, Repr

/-- An option. -/
structure OptionSpec where
  name : String
  letter : Option Char := none
  shape : Shape := .flag
  deriving DecidableEq, Repr

/-- What may be given at a place: options, and a command or words. -/
structure Level where
  options : List OptionSpec
  commands : List String := []
  /-- The kind of the one word that may be given. -/
  word : Option ValueKind := none
  deriving Repr

/-- Why arguments say nothing to be done. -/
inductive Stop
  | usage
  | help
  | version
  deriving DecidableEq, Repr

/-- What has been read. -/
structure Reading where
  /-- The options that were given, with their values. -/
  given : List (String × List String) := []
  words : List String := []
  /-- The option whose values are being read. -/
  pending : Option (OptionSpec × List String) := none
  deriving Repr

namespace Reading

/-- Whether an option was given. -/
def has (r : Reading) (name : String) : Bool :=
  r.given.any (·.1 = name)

/-- The values of an option, if it was given. -/
def values? (r : Reading) (name : String) : Option (List String) :=
  if r.has name then some ((r.given.filter (·.1 = name)).flatMap Prod.snd) else none

/-- The value of an option, if it was given. -/
def value? (r : Reading) (name : String) : Option String :=
  (r.values? name).bind List.head?

/-- The number that an option gives. -/
def number? (r : Reading) (name : String) : Option Nat :=
  (r.value? name).bind fun s => Text.readUnsigned s.toList

/-- Adds an option. -/
def add (r : Reading) (name : String) (values : List String) : Reading :=
  { r with given := r.given ++ [(name, values)], pending := none }

/-- Adds an option that may be given once. -/
def addOnce (r : Reading) (name : String) (values : List String) : Except Stop Reading :=
  if r.has name then .error .usage else .ok (r.add name values)

/-- Values after they have been cut at the separator. -/
def cutValues (separator : Option Char) (values : List String) : List String :=
  match separator with
  | some c => values.flatMap (Text.pieces c)
  | none => values

/-- Ends the values of the option that is being read. -/
def settle (r : Reading) : Except Stop Reading :=
  match r.pending with
  | none => .ok r
  | some (o, values) =>
    match o.shape with
    | .flag | .counter => .ok { r with pending := none }
    | .single kind =>
      if values.length = 1 && values.all kind.accepts then r.addOnce o.name values
      else .error .usage
    | .several kind least separator =>
      let cut := cutValues separator values
      if least ≤ values.length && cut.all kind.accepts then .ok (r.add o.name cut)
      else .error .usage

/-- Whether the option that is being read takes a further value. -/
def hasRoom (r : Reading) : Bool :=
  match r.pending with
  | some (⟨_, _, .single _⟩, values) => values.isEmpty
  | some (⟨_, _, .several ..⟩, _) => true
  | _ => false

/-- Reads an option, possibly with a value attached to it. -/
def option (r : Reading) (o : OptionSpec) (attached : Option String) : Except Stop Reading := do
  let r ← r.settle
  match o.shape, attached with
  | .flag, some _ | .counter, some _ => throw .usage
  | .flag, none =>
    if o.name = "help" then throw .help
    else if o.name = "version" then throw .version
    else r.addOnce o.name []
  | .counter, none => return r.add o.name []
  | _, none => return { r with pending := some (o, []) }
  | _, some v => settle { r with pending := some (o, [v]) }

/-- Reads letters that are joined. What is after a letter that takes values is its value. -/
def letters (level : Level) (r : Reading) : List Char → Except Stop Reading
  | [] => .ok r
  | c :: cs =>
    match level.options.find? (·.letter = some c) with
    | none => .error .usage
    | some o =>
      match o.shape, cs with
      | .flag, _ | .counter, _ => do
        let r ← r.option o none
        letters level r cs
      | _, [] => r.option o none
      | _, '=' :: value | _, value => r.option o (some (String.ofList value))

/-- Reads an option by its name. -/
def long (level : Level) (r : Reading) (cs : List Char) : Except Stop Reading :=
  let (name, attached) := match Text.cutAtFirst '=' cs with
    | some (name, value) => (name, some (String.ofList value))
    | none => (cs, none)
  match level.options.find? (·.name = String.ofList name) with
  | some o => r.option o attached
  | none => .error .usage

/-- Reads a word. -/
def takeWord (level : Level) (r : Reading) (s : String) : Except Stop Reading := do
  let r ← r.settle
  match level.word with
  | some kind =>
    if r.words.isEmpty && kind.accepts s then return { r with words := [s] } else throw .usage
  | none => throw .usage

/-- Reads a value of the option that is being read, or a word. -/
def value (level : Level) (r : Reading) (s : String) : Except Stop Reading :=
  match r.pending with
  | some (o, values) =>
    if r.hasRoom then .ok { r with pending := some (o, values ++ [s]) } else r.takeWord level s
  | none => r.takeWord level s

/-- Reads an argument before the two dashes that end options. -/
def argument (level : Level) (r : Reading) (s : String) : Except Stop Reading :=
  match s.toList with
  | '-' :: '-' :: cs => r.long level cs
  | '-' :: c :: cs => r.letters level (c :: cs)
  | _ => r.value level s

/-- Reads arguments up to a command, which is given with what is after it. -/
def read (level : Level) (onlyWords : Bool) (r : Reading) :
    List String → Except Stop (Reading × Option (String × List String))
  | [] => .ok (r, none)
  | s :: rest => do
    if onlyWords then read level true (← r.takeWord level s) rest
    else if level.commands.contains s && !r.hasRoom then return (r, some (s, rest))
    else if s = "--" then read level true r rest
    else read level false (← r.argument level s) rest

end Reading

end BuildMatrix.CommandLine
