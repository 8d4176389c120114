import SqlFragments.Command.Arguments
import SqlFragments.Command.Task

/-! # What the program does

The exit code and the output for a request, given what was read: first the variables, then the
documents in order, then the work itself. The first thing that fails is reported. -/

namespace SqlFragments.Command

/-- How the program ends. -/
structure Outcome where
  code : Nat
  /-- What it writes to standard output. -/
  stdout : String
  /-- What it writes to standard error. -/
  stderr : String
  deriving DecidableEq, Repr

/-- What was read from a file or stream. -/
abbrev Content := Except ReadError ByteArray

/-- The text of what was read. -/
def textOf (content : Content) : Except CommandError String :=
  match content with
  | .error e => .error (.read e)
  | .ok bytes =>
    match String.fromUTF8? bytes with
    | none => .error (.read .notText)
    | some text => .ok text

/-- The texts of files, up to the first that cannot be read. -/
def textsOf : List Content → Except CommandError (List String)
  | [] => .ok []
  | content :: contents =>
    match textOf content with
    | .error e => .error e
    | .ok text =>
      match textsOf contents with
      | .error e => .error e
      | .ok texts => .ok (text :: texts)

/-- The variables from standard input, which count unless it is blank. -/
def variablesFromInput (input : Option Content) : Except CommandError (Option String) :=
  match input with
  | none => .ok none
  | some content =>
    match textOf content with
    | .error e => .error e
    | .ok text => .ok (if text.toList.all Text.isBlank then none else some text)

/-- The end of a command that gives lines of output. -/
def Outcome.lines (lines : List String) : Outcome :=
  ⟨0, String.join (lines.map (· ++ "\n")), ""⟩

/-- The end of a command that fails. -/
def Outcome.failure (e : CommandError) : Outcome := ⟨1, "", e.message ++ "\n"⟩

/-- How to use the program. -/
def usage : String :=
  "Usage: mapper [-v] resolve <STATEMENT> -m <FILE>... [--vars <JSON>] [--scoped] "
    ++ "[--no-cycle-check] [--raw]\n       mapper [-v] check -m <FILE>...\n"

/-- The end of the program when its arguments are no request. -/
def Outcome.misuse (e : UsageError) : Outcome := ⟨2, "", e.message ++ "\n\n" ++ usage⟩

/-- The end of the program when it is asked for its version. -/
def Outcome.version : Outcome := .lines ["mapper 0.2.0"]

/-- What resolving comes to, once variables and documents have been read. -/
def resolveOutcome (task : ResolveTask) : Option Outcome :=
  (resolve task).map fun
    | .error e => .failure e
    | .ok text => .lines [text]

/-- The variables of a request: those of its arguments, or else those from standard input. -/
def variablesOf (vars : Option String) (input : Option Content) :
    Except CommandError (Option String) :=
  match vars with
  | some text => .ok (some text)
  | none => variablesFromInput input

/-- How a request ends. `input` is standard input, unless it is a terminal, and `contents` what
the files of the request hold. There is no outcome if fragments nest too deeply. -/
def Request.run (request : Request) (input : Option Content) (contents : List Content) :
    Option Outcome :=
  match request with
  | .version => some .version
  | .help => some ⟨0, usage, ""⟩
  | .check _ =>
    match textsOf contents with
    | .error e => some (.failure e)
    | .ok documents =>
      match Command.check documents with
      | .error e => some (.failure e)
      | .ok names => some (.lines names)
  | .resolve statement _ vars options raw =>
    match variablesOf vars input with
    | .error e => some (.failure e)
    | .ok vars =>
      match textsOf contents with
      | .error e => some (.failure e)
      | .ok documents => resolveOutcome ⟨statement, documents, vars, options, raw⟩

/-- How the program ends with these arguments, when `read` gives the contents of files. -/
def run (args : List String) (input : Option Content) (read : String → Content) : Option Outcome :=
  match Request.ofArguments args with
  | .error e => some (.misuse e)
  | .ok request => request.run input (request.paths.map read)

end SqlFragments.Command
