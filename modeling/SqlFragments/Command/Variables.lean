import SqlFragments.Command.Error
import SqlFragments.Json.Reading

/-! # Variables as JSON

Variables are given as a JSON object. Strings are taken as they are, numbers and truth values by
their text; other values have no text of their own and are refused. -/

namespace SqlFragments.Command

/-- The text that a member of an object gives a variable. -/
def variableText (name : String) : Json → Except VariablesError String
  | .string text => .ok text
  | .number n => .ok n.render
  | .bool b => .ok (Json.renderBool b)
  | value => .error (.notScalar name value.render)

/-- The variables of members, up to the first that is refused. -/
def variablesOfMembers : List (String × Json) → Except VariablesError (List (String × String))
  | [] => .ok []
  | (name, value) :: members =>
    match variableText name value with
    | .error e => .error e
    | .ok text =>
      match variablesOfMembers members with
      | .error e => .error e
      | .ok rest => .ok ((name, text) :: rest)

/-- The variables that a JSON value gives, in the order of their names. -/
def variablesOfJson : Json → Except VariablesError (List (String × String))
  | .object members => variablesOfMembers members
  | _ => .error .notObject

/-- The variables that a JSON text gives, in the order of their names. -/
def variablesOfText (text : String) : Except CommandError (List (String × String)) :=
  match Json.ofText text with
  | .error e => .error (.json e)
  | .ok value =>
    match variablesOfJson value with
    | .error e => .error (.badVariables e)
    | .ok vars => .ok vars

end SqlFragments.Command
