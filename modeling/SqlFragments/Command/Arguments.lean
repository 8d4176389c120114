import SqlFragments.Context

/-! # Command line arguments

The arguments of the program are first sorted into switches and words, then understood as a
request. Short switches may be written together; the value of a switch stands right behind it,
behind an equals sign or in the next argument. Behind a lone double dash there are only words. -/

namespace SqlFragments.Command

/-- Why arguments are no request. -/
inductive UsageError where
  | unknownSwitch (switch : String)
  | missingValue (switch : String)
  | repeatedSwitch (switch : String)
  | unexpectedWord (word : String)
  | unknownCommand (word : String)
  | missingCommand
  | missingMapper
  | missingStatement
  deriving DecidableEq, Repr

/-- The wording of a usage error. -/
def UsageError.message : UsageError → String
  | .unknownSwitch switch => "error: unexpected argument '" ++ switch ++ "' found"
  | .missingValue switch => "error: a value is required for '" ++ switch ++ "'"
  | .repeatedSwitch switch => "error: the argument '" ++ switch ++ "' cannot be used twice"
  | .unexpectedWord word => "error: unexpected argument '" ++ word ++ "' found"
  | .unknownCommand word => "error: unrecognized command '" ++ word ++ "'"
  | .missingCommand => "error: a command is required"
  | .missingMapper => "error: a mapper file is required"
  | .missingStatement => "error: a statement is required"

/-- A switch, with the value that is attached to it. -/
inductive Switch where
  | verbose
  | help
  | version
  | mapper (attached : Option String)
  | vars (attached : Option String)
  | scoped
  | noCycleCheck
  | raw
  | unknown (text : String)
  deriving DecidableEq, Repr

/-- A part of the arguments. -/
inductive Item where
  | switch (switch : Switch)
  | word (text : String)
  /-- The double dash behind which there are only words. -/
  | dashes
  deriving DecidableEq, Repr

/-- What a command is given. -/
structure Given where
  statement : Option String := none
  mappers : List String := []
  vars : Option String := none
  isScoped : Bool := false
  noCycleCheck : Bool := false
  isRaw : Bool := false
  deriving DecidableEq, Repr

/-- What the program is asked for. -/
inductive Request where
  | version
  | help
  /-- Resolve a statement of the documents in files; `raw` leaves white space as it is. -/
  | resolve (statement : String) (paths : List String) (vars : Option String) (options : Options)
      (raw : Bool)
  /-- List the statements of the documents in files. -/
  | check (paths : List String)
  deriving DecidableEq, Repr

/-- The two commands. -/
inductive Verb where
  | resolve
  | check
  deriving DecidableEq, Repr

/-! ## Sorting -/

/-- The switch of a long name, given the text behind its two dashes. -/
def longSwitch (cs : List Char) : Switch :=
  let name := String.ofList (cs.takeWhile (· != '='))
  let value :=
    match cs.dropWhile (· != '=') with
    | [] => none
    | _ :: value => some (String.ofList value)
  if name = "mapper" then .mapper value
  else if name = "vars" then .vars value
  else if value.isSome then .unknown ("--" ++ String.ofList cs)
  else if name = "verbose" then .verbose
  else if name = "help" then .help
  else if name = "version" then .version
  else if name = "scoped" then .scoped
  else if name = "no-cycle-check" then .noCycleCheck
  else if name = "raw" then .raw
  else .unknown ("--" ++ name)

/-- The switches of letters behind one dash. A letter that takes a value takes all behind it. -/
def shortSwitches : List Char → List Switch
  | [] => []
  | 'v' :: cs => .verbose :: shortSwitches cs
  | 'h' :: cs => .help :: shortSwitches cs
  | 'V' :: cs => .version :: shortSwitches cs
  | ['m'] => [.mapper none]
  | 'm' :: '=' :: cs => [.mapper (some (String.ofList cs))]
  | 'm' :: cs => [.mapper (some (String.ofList cs))]
  | c :: _ => [.unknown (String.ofList ['-', c])]

/-- The parts of one argument. A single dash alone is a word. -/
def itemsOfArgument (arg : String) : List Item :=
  match arg.toList with
  | '-' :: '-' :: cs => [.switch (longSwitch cs)]
  | '-' :: c :: cs => (shortSwitches (c :: cs)).map .switch
  | _ => [.word arg]

/-- The parts of all arguments. -/
def itemsOfArguments : List String → List Item
  | [] => []
  | arg :: args =>
    if arg = "--" then .dashes :: args.map .word else itemsOfArgument arg ++ itemsOfArguments args

/-! ## Understanding -/

/-- Takes up the path of a document, which must not be empty. -/
def Given.addMapper (given : Given) (path : String) : Except UsageError Given :=
  if path.isEmpty then .error (.missingValue "--mapper")
  else .ok { given with mappers := given.mappers ++ [path] }

/-- Takes up the variables, which may be given once and only to `resolve`. -/
def Given.setVars (given : Given) (verb : Verb) (vars : String) : Except UsageError Given :=
  if verb = .check then .error (.unknownSwitch "--vars")
  else if given.vars.isSome then .error (.repeatedSwitch "--vars")
  else .ok { given with vars := some vars }

/-- Takes up a word: the statement of `resolve`. -/
def Given.addWord (given : Given) (verb : Verb) (word : String) : Except UsageError Given :=
  if verb = .check || given.statement.isSome then .error (.unexpectedWord word)
  else .ok { given with statement := some word }

/-- Turns a switch on, which may be given once and only to `resolve`. `already` says whether it
is on, `after` is what is given once it is. -/
def turnOn (verb : Verb) (name : String) (already : Bool) (after : Given) :
    Except UsageError Given :=
  if verb = .check then .error (.unknownSwitch name)
  else if already then .error (.repeatedSwitch name)
  else .ok after

/-- Takes up a switch that needs no further argument. -/
def Given.takeSwitch (given : Given) (verb : Verb) : Switch → Except UsageError Given
  | .verbose => .ok given
  | .help => .ok given
  | .version => .error (.unknownSwitch "--version")
  | .mapper (some path) => given.addMapper path
  | .mapper none => .error (.missingValue "--mapper")
  | .vars (some vars) => given.setVars verb vars
  | .vars none => .error (.missingValue "--vars")
  | .scoped => turnOn verb "--scoped" given.isScoped { given with isScoped := true }
  | .noCycleCheck =>
    turnOn verb "--no-cycle-check" given.noCycleCheck { given with noCycleCheck := true }
  | .raw => turnOn verb "--raw" given.isRaw { given with isRaw := true }
  | .unknown text => .error (.unknownSwitch text)

/-- Takes up everything that a command is given; `none` if it is asked for help. -/
def readGiven (verb : Verb) (given : Given) : List Item → Except UsageError (Option Given)
  | [] => .ok (some given)
  | .switch .help :: _ => .ok none
  | .switch (.mapper none) :: .word path :: items =>
    match given.addMapper path with
    | .error e => .error e
    | .ok given => readGiven verb given items
  | .switch (.vars none) :: .word vars :: items =>
    match given.setVars verb vars with
    | .error e => .error e
    | .ok given => readGiven verb given items
  | .switch switch :: items =>
    match given.takeSwitch verb switch with
    | .error e => .error e
    | .ok given => readGiven verb given items
  | .word word :: items =>
    match given.addWord verb word with
    | .error e => .error e
    | .ok given => readGiven verb given items
  | .dashes :: items => readGiven verb given items

/-- The request that a command makes of what it is given. -/
def Given.request (given : Given) : Verb → Except UsageError Request
  | .resolve =>
    match given.statement with
    | none => .error .missingStatement
    | some statement =>
      if given.mappers.isEmpty then .error .missingMapper
      else .ok (.resolve statement given.mappers given.vars
        ⟨given.isScoped, !given.noCycleCheck⟩ given.isRaw)
  | .check =>
    if given.mappers.isEmpty then .error .missingMapper else .ok (.check given.mappers)

/-- The request of a command with the parts behind its name. -/
def readCommand (verb : Verb) (items : List Item) : Except UsageError Request :=
  match readGiven verb {} items with
  | .error e => .error e
  | .ok none => .ok .help
  | .ok (some given) => given.request verb

/-- The request of somebody who asks for help, perhaps on a command, given the parts behind. -/
def readHelp : List Item → Except UsageError Request
  | [] => .ok .help
  | [.word word] =>
    if ["resolve", "check", "help"].contains word then .ok .help
    else .error (.unknownCommand word)
  | _ => .error .missingCommand

/-- The request that the parts of the arguments make. Before the command there may be only
switches that do not belong to one. -/
def readItems : List Item → Except UsageError Request
  | [] => .error .missingCommand
  | .switch .verbose :: items => readItems items
  | .switch .version :: _ => .ok .version
  | .switch .help :: _ => .ok .help
  | .switch (.unknown text) :: _ => .error (.unknownSwitch text)
  | .switch _ :: _ => .error .missingCommand
  | .dashes :: _ => .error .missingCommand
  | .word word :: items =>
    if word = "resolve" then readCommand .resolve items
    else if word = "check" then readCommand .check items
    else if word = "help" then readHelp items
    else .error (.unknownCommand word)

/-- The request that arguments make. -/
def Request.ofArguments (args : List String) : Except UsageError Request :=
  readItems (itemsOfArguments args)

/-- The files that a request needs. -/
def Request.paths : Request → List String
  | .version => []
  | .help => []
  | .resolve _ paths _ _ _ => paths
  | .check paths => paths

/-- Whether a request takes variables from standard input. -/
def Request.readsInput : Request → Bool
  | .resolve _ _ none _ _ => true
  | _ => false

end SqlFragments.Command
