/-!
# The command line

The program is called with the name of a command and its options. An option is given once, as
`--name value` or as `--name=value`; a value that begins with a dash can only be given in the second
way, but for a single dash. The arguments are read from left to right, and the first that is wrong
or that asks for help or for the version decides.
-/

namespace MeshNode

/-- What the program is asked to do. -/
inductive Command where
  | node (config listen nodeId : Option String)
  | orchestrator (config listen trustStore : Option String)
  | keygen (keyDir nodeId : String)
  | issueToken (jobId attemptId : String) (deadline : Option Int) (ttlSecs : Int) (key : String)
  deriving DecidableEq, Repr

/-- Why arguments mean nothing. -/
inductive UsageError where
  | noCommand
  | unknownCommand (name : String)
  | unknownOption (name : String)
  | unexpectedArgument (text : String)
  | repeatedOption (name : String)
  | missingValue (name : String)
  | badValue (name value : String)
  | missingOption (name : String)
  deriving DecidableEq, Repr

/-- The text of an error. -/
def UsageError.message : UsageError → String
  | noCommand => "a command is missing"
  | unknownCommand name => "unknown command " ++ name
  | unknownOption name => "unknown option " ++ name
  | unexpectedArgument text => "unexpected argument " ++ text
  | repeatedOption name => s!"option --{name} is given twice"
  | missingValue name => s!"option --{name} needs a value"
  | badValue name value => s!"option --{name} does not take {value}"
  | missingOption name => s!"option --{name} is missing"

namespace CommandLine

/-- What the values of an option look like. -/
inductive Shape where
  | text
  /-- A text that is not empty. -/
  | path
  /-- A signed integer of 64 bits. -/
  | integer
  deriving DecidableEq, Repr

/-- The options of a command by their names. -/
abbrev Options := List (String × Shape)

/-- The values that were given by the names of their options. -/
abbrev Given := List (String × String)

/-- The integer that a text stands for; a plus sign may precede it. -/
def int64? (text : String) : Option Int :=
  let digits (ds : List Char) : Option Nat :=
    if ds ≠ [] ∧ ds.all Char.isDigit then (String.ofList ds).toNat? else none
  let n : Option Int := match text.toList with
    | '+' :: ds => (digits ds).map Int.ofNat
    | '-' :: ds => (digits ds).map fun n => -(n : Int)
    | ds => (digits ds).map Int.ofNat
  n.filter fun n => -0x8000000000000000 ≤ n ∧ n < 0x8000000000000000

/-- The value is one of its shape. -/
def Shape.accepts : Shape → String → Bool
  | text, _ => true
  | path, value => value ≠ ""
  | integer, value => (int64? value).isSome

/-- An argument that is taken for an option. -/
def isOption (arg : String) : Bool := arg ≠ "-" && arg.startsWith "-"

/-- An argument that asks for help. -/
def asksHelp (arg : String) : Bool :=
  arg = "--help" || (arg.startsWith "-h" && !arg.startsWith "--")

/-- An argument that asks for the version. -/
def asksVersion (arg : String) : Bool :=
  arg = "--version" || (arg.startsWith "-V" && !arg.startsWith "--")

/-- Adds the value of an option. -/
def give (options : Options) (given : Given) (name value : String) : Except UsageError Given :=
  match options.lookup name with
  | none => .error (.unknownOption name)
  | some shape =>
    if (given.lookup name).isSome then .error (.repeatedOption name)
    else if shape.accepts value then .ok ((name, value) :: given)
    else .error (.badValue name value)

/-- Reads the options of a command; nothing when help is asked for. -/
def readOptions (options : Options) (given : Given) :
    List String → Except UsageError (Option Given)
  | [] => .ok (some given)
  | "--" :: [] => .ok (some given)
  | "--" :: arg :: _ => .error (.unexpectedArgument arg)
  | arg :: rest =>
    if asksHelp arg then .ok none
    else if !arg.startsWith "--" then
      .error (if isOption arg then .unknownOption arg else .unexpectedArgument arg)
    else
      let (name, value) := (arg.toList.drop 2).span (· ≠ '=')
      let name := String.ofList name
      match value, rest with
      | _ :: value, rest =>
        match give options given name (String.ofList value) with
        | .ok given => readOptions options given rest
        | .error e => .error e
      | [], value :: rest =>
        if (options.lookup name).isSome ∧ isOption value then .error (.missingValue name)
        else
          match give options given name value with
          | .ok given => readOptions options given rest
          | .error e => .error e
      | [], [] =>
        .error (if (options.lookup name).isSome then .missingValue name else .unknownOption name)

/-- The value of an option that must be given. -/
def required (given : Given) (name : String) : Except UsageError String :=
  match given.lookup name with
  | some value => .ok value
  | none => .error (.missingOption name)

/-- The options of each command. -/
def optionsOf? (command : String) : Option Options :=
  match command with
  | "node" => some [("config", .path), ("listen", .text), ("node-id", .text)]
  | "orchestrator" => some [("config", .path), ("listen", .text), ("trust-store", .path)]
  | "keygen" => some [("key-dir", .path), ("node-id", .text)]
  | "issue-token" =>
    some [("job-id", .text), ("attempt-id", .text), ("deadline-ts", .integer),
      ("ttl-secs", .integer), ("key", .text)]
  | _ => none

/-- For how many seconds a token is issued when nothing is said about it. -/
def defaultTtlSecs : Int := 300

/-- The command of a name and its options. `key` is the claim key that the environment holds. -/
def build (command : String) (given : Given) (key : Option String) : Except UsageError Command :=
  match command with
  | "node" => .ok (.node (given.lookup "config") (given.lookup "listen") (given.lookup "node-id"))
  | "orchestrator" =>
    .ok (.orchestrator (given.lookup "config") (given.lookup "listen") (given.lookup "trust-store"))
  | "keygen" => do return .keygen (← required given "key-dir") (← required given "node-id")
  | "issue-token" => do
    let key ← match given.lookup "key", key with
      | some key, _ => .ok key
      | none, some key => .ok key
      | none, none => .error (.missingOption "key")
    return .issueToken (← required given "job-id") (← required given "attempt-id")
      ((given.lookup "deadline-ts").bind int64?)
      (((given.lookup "ttl-secs").bind int64?).getD defaultTtlSecs) key
  | name => .error (.unknownCommand name)

/-- What the arguments ask for. -/
inductive Request where
  | command (c : Command)
  | help
  | version
  deriving DecidableEq, Repr

/-- Reads the arguments. -/
def read (args : List String) (key : Option String) : Except UsageError Request :=
  match args with
  | [] => .error .noCommand
  | first :: rest =>
    if asksHelp first then .ok .help
    else if asksVersion first then .ok .version
    else if first = "--" then .error .noCommand
    else if isOption first then .error (.unknownOption first)
    else if first = "help" then
      match rest with
      | [] => .ok .help
      | [name] =>
        if name = "help" ∨ (optionsOf? name).isSome ∨ asksHelp name then .ok .help
        else .error (.unknownCommand name)
      | _ :: arg :: _ => .error (.unexpectedArgument arg)
    else
      match optionsOf? first with
      | none => .error (.unknownCommand first)
      | some options =>
        match readOptions options [] rest with
        | .error e => .error e
        | .ok none => .ok .help
        | .ok (some given) => (build first given key).map .command

end CommandLine

end MeshNode
