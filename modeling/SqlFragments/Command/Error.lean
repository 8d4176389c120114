import SqlFragments.Json.Error
import SqlFragments.Mapper.Error

/-! # Commands that fail

The causes for which a command fails, and their wording. -/

namespace SqlFragments.Command

/-- Why a file or stream cannot be read. -/
inductive ReadError where
  /-- The system refuses, with a number and a description. -/
  | system (code : Nat) (description : String)
  /-- What was read is not text. -/
  | notText
  deriving DecidableEq, Repr

/-- There is no such file. -/
def ReadError.notFound : ReadError := .system 2 "No such file or directory"

/-- A part of the path other than the last is a file. -/
def ReadError.notDirectory : ReadError := .system 20 "Not a directory"

/-- The path, or one of the names along it, is longer than the system takes. -/
def ReadError.nameTooLong : ReadError := .system 36 "File name too long"

/-- The path leads to a directory. -/
def ReadError.isDirectory : ReadError := .system 21 "Is a directory"

/-- The wording of a read error. -/
def ReadError.message : ReadError → String
  | .system code description => description ++ " (os error " ++ toString code ++ ")"
  | .notText => "stream did not contain valid UTF-8"

/-- Why variables cannot be taken from a JSON value. -/
inductive VariablesError where
  /-- The value is no object. -/
  | notObject
  /-- A member has a value that is no text of its own. -/
  | notScalar (name shown : String)
  deriving DecidableEq, Repr

/-- The wording of an error in variables. -/
def VariablesError.message : VariablesError → String
  | .notObject => "expected a JSON object"
  | .notScalar name shown => name ++ " must be a string, number or boolean, got " ++ shown

/-- Why a command fails. -/
inductive CommandError where
  | mapper (cause : MapperError)
  | resolve (cause : NodeError)
  | json (cause : Json.Error)
  | read (cause : ReadError)
  /-- No document is given. -/
  | noMapper
  | badVariables (cause : VariablesError)
  /-- Two documents declare a statement of this qualified name. -/
  | duplicateFragment (name : String)
  deriving DecidableEq, Repr

/-- The wording of an error. -/
def CommandError.message : CommandError → String
  | .mapper cause => "Mapper error: " ++ cause.message
  | .resolve cause => "Resolution error: " ++ cause.message
  | .json cause => "Invalid JSON: " ++ cause.message
  | .read cause => "IO error: " ++ cause.message
  | .noMapper => "No mapper provided. Use --mapper <FILE>."
  | .badVariables cause => "Invalid variables: " ++ cause.message
  | .duplicateFragment name => "Statement " ++ name ++ " is declared by more than one mapper"

/-- The wording of the error that a command's error passes on, if it does. -/
def CommandError.source : CommandError → Option String
  | .mapper cause => some cause.message
  | .resolve cause => some cause.message
  | .json cause => some cause.message
  | .read cause => some cause.message
  | .noMapper => none
  | .badVariables _ => none
  | .duplicateFragment _ => none

end SqlFragments.Command
