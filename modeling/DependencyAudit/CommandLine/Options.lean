import DependencyAudit.Platform
import DependencyAudit.Text.Pieces

namespace DependencyAudit.CommandLine

/-- What a command line asks for instead of an audit. -/
inductive Request where
  | version
  | help
  | completion (kind : Completion)
  deriving DecidableEq, Repr

/-- Whether a request is met before any argument is looked at. -/
def Request.isEager : Request → Bool
  | version | help => true
  | completion _ => false

/-- The options by what they are for. -/
inductive Switch where
  | json
  | ignore
  | directories
  | exclude
  | output
  | interactive
  | manager
  | verbose
  | request (r : Request)
  deriving DecidableEq, Repr

namespace Switch

/-- Whether a value follows. -/
def takesValue : Switch → Bool
  | ignore | directories | exclude | output | manager => true
  | json | interactive | verbose | request _ => false

/-- The option of a long name. -/
def ofLong? : String → Option Switch
  | "--json" => some json
  | "--ignore" => some ignore
  | "--dirs" => some directories
  | "--exclude" => some exclude
  | "--output" => some output
  | "--interactive" => some interactive
  | "--package-manager" => some manager
  | "--verbose" => some verbose
  | "--version" => some (request .version)
  | "--help" => some (request .help)
  | "--install-completion" => some (request (.completion .install))
  | "--show-completion" => some (request (.completion .print))
  | _ => none

/-- The option of a letter. -/
def ofShort? : Char → Option Switch
  | 'i' => some ignore
  | 'd' => some directories
  | 'e' => some exclude
  | 'o' => some output
  | 'p' => some manager
  | 'v' => some verbose
  | 'V' => some (request .version)
  | _ => none

end Switch

/-- What a command line says. -/
structure Options where
  json : Bool
  interactive : Bool
  verbose : Bool
  /-- What is asked for instead of an audit, in order. -/
  requests : List Request
  /-- Whether a file for the document is named before all requests. -/
  outputFirst : Bool
  /-- Packages to leave out, beside those of the settings. -/
  ignore : List String
  /-- Patterns of what to leave out of the scan, beside those of the settings. -/
  exclude : List String
  /-- A comma-separated list of the directories to scan. -/
  directories : Option String
  /-- A file for the document. -/
  output : Option String
  manager : Option String
  /-- The arguments that are no options: the path of the project, and what is too much. -/
  positional : List String
  deriving DecidableEq, Repr

namespace Options

/-- What an empty command line says. -/
def empty : Options := ⟨false, false, false, [], false, [], [], none, none, none, []⟩

/-- Sets an option without a value. -/
def flag (o : Options) : Switch → Options
  | .json => { o with json := true }
  | .interactive => { o with interactive := true }
  | .verbose => { o with verbose := true }
  | .request r => { o with requests := o.requests ++ [r] }
  | _ => o

/-- Gives an option its value. Lists grow; otherwise the last value counts. -/
def set (o : Options) (option : Switch) (value : String) : Options :=
  match option with
  | .ignore => { o with ignore := o.ignore ++ [value] }
  | .exclude => { o with exclude := o.exclude ++ [value] }
  | .directories => { o with directories := some value }
  | .output =>
    { o with output := some value, outputFirst := o.outputFirst || o.requests = [] }
  | .manager => { o with manager := some value }
  | _ => o

/-- The request that is met: the first one of those that are met at once, or else the first one. -/
def request? (o : Options) : Option Request :=
  (o.requests.find? Request.isEager).or o.requests.head?

/-- Reads bundled letters. An option that ends the bundle without its value waits for it. -/
def bundle? (o : Options) : List Char → Option (Options × Option Switch)
  | [] => some (o, none)
  | c :: rest => do
    let option ← Switch.ofShort? c
    if option.takesValue then
      if rest = [] then return (o, some option)
      else return (o.set option (String.ofList rest), none)
    else (o.flag option).bundle? rest

/-- Reads an argument that starts with a hyphen. -/
def argument? (o : Options) (text : List Char) : Option (Options × Option Switch) :=
  let name := text.takeWhile (· ≠ '=')
  let value := text.dropWhile (· ≠ '=')
  match Switch.ofLong? (String.ofList name), value, text with
  | some option, [], _ =>
    if option.takesValue then some (o, some option) else some (o.flag option, none)
  | some option, _ :: value, _ =>
    if option.takesValue then some (o.set option (String.ofList value), none) else none
  | none, _, '-' :: '-' :: _ => none
  | none, _, _ => o.bundle? (text.drop 1)

/-- Reads arguments, where an option may wait for its value. -/
def readFrom? (waiting : Option Switch) (o : Options) : List String → Option Options
  | [] => if waiting.isSome then none else some o
  | argument :: rest =>
    match waiting, argument.toList with
    | some option, _ => (o.set option argument).readFrom? none rest
    | none, ['-', '-'] => some { o with positional := o.positional ++ rest }
    | none, '-' :: c :: letters => do
      let (o, waiting) ← o.argument? ('-' :: c :: letters)
      o.readFrom? waiting rest
    | none, _ => { o with positional := o.positional ++ [argument] }.readFrom? none rest

/-- Reads a command line; none where it has an unknown option or a value that is missing or too
much. -/
def read? (arguments : List String) : Option Options := empty.readFrom? none arguments

end Options

end DependencyAudit.CommandLine
