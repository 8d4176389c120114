import SqlFragments.Command.Variables
import SqlFragments.Mapper.Loading
import SqlFragments.Resolution
import SqlFragments.Text.Words

/-! # Checking and resolving

What the commands do with the texts they are given: load documents into one context, list the
statements, and resolve one of them. Every document is read before the first is registered, and
no statement may be declared twice. -/

namespace SqlFragments.Command

/-- The mappers of documents, up to the first that cannot be loaded. -/
def loadMappers : List String → Except CommandError (List Mapper)
  | [] => .ok []
  | document :: documents =>
    match Mapper.ofDocument document with
    | .error e => .error (.mapper e)
    | .ok m =>
      match loadMappers documents with
      | .error e => .error e
      | .ok ms => .ok (m :: ms)

/-- Registers mappers one after the other, as long as none declares a statement again. -/
def registerMappers (ctx : Context) : List Mapper → Except CommandError Context
  | [] => .ok ctx
  | m :: ms =>
    match m.register ctx with
    | ([], ctx) => registerMappers ctx ms
    | (name :: _, _) => .error (.duplicateFragment name)

/-- A context with the statements of documents, in the namespace of the first. -/
def loadContext (documents : List String) (options : Options) : Except CommandError Context :=
  match loadMappers documents with
  | .error e => .error e
  | .ok [] => .error .noMapper
  | .ok (m :: ms) => registerMappers (Context.empty m.space options) (m :: ms)

/-- The qualified names of all statements in documents. -/
def check (documents : List String) : Except CommandError (List String) :=
  match loadContext documents {} with
  | .error e => .error e
  | .ok ctx => .ok ctx.fragmentNames

/-- What to resolve and how. -/
structure ResolveTask where
  /-- The id of the statement, qualified or in the namespace of the first document. -/
  statement : String
  documents : List String
  /-- The variables, as a JSON text. -/
  vars : Option String
  options : Options
  /-- Whether white space is left as it is. -/
  raw : Bool

/-- Sets variables, one after the other. -/
def setVariables (ctx : Context) (vars : List (String × String)) : Context :=
  vars.foldl (fun ctx v => ctx.set v.1 v.2) ctx

/-- The variables of a task. -/
def ResolveTask.readVariables (task : ResolveTask) :
    Except CommandError (List (String × String)) :=
  match task.vars with
  | none => .ok []
  | some text => variablesOfText text

/-- The context in which a task's statement is resolved. -/
def ResolveTask.prepare (task : ResolveTask) : Except CommandError Context :=
  match loadContext task.documents task.options with
  | .error e => .error e
  | .ok ctx =>
    match task.readVariables with
    | .error e => .error e
    | .ok vars => .ok (setVariables ctx vars)

/-- What a task shows of a statement's text. -/
def ResolveTask.present (task : ResolveTask) (text : String) : String :=
  if task.raw then text else Text.normalize text

/-- Resolves a statement. There is no answer if fragments nest too deeply. -/
def resolve (task : ResolveTask) : Option (Except CommandError String) :=
  match task.prepare with
  | .error e => some (.error e)
  | .ok ctx =>
    match ctx.resolveStatement task.statement with
    | none => none
    | some (.error e, _) => some (.error (.resolve e))
    | some (.ok text, _) => some (.ok (task.present text))

end SqlFragments.Command
