import SqlFragments.Placeholder.Token

/-! # What can go wrong with a statement

The causes for which a statement cannot be built or resolved, and their wording. -/

namespace SqlFragments

open SqlFragments.Placeholder

/-- Why a statement cannot be built or resolved. -/
inductive NodeError where
  /-- The target of an include is neither one literal nor one variable. -/
  | invalidReference (text : String)
  /-- An include binds a name twice. -/
  | duplicateProperty (name : String)
  /-- A variable without a value is read. -/
  | undefinedVariable (name : String)
  /-- An include without a target is resolved. -/
  | missingReference
  /-- No fragment is registered under the name. -/
  | fragmentNotFound (name : String)
  /-- A fragment is entered again while it is being resolved: the names that are being resolved,
  outermost first, and then the repeated one. -/
  | cyclicReference (chain : List String)
  /-- A text has a bad placeholder. -/
  | token (cause : TokenError)
  deriving DecidableEq, Repr

/-- The wording of an error. -/
def NodeError.message : NodeError → String
  | .invalidReference text =>
    "include refid must be a variable or a string, got " ++ Text.quoted text
  | .duplicateProperty name => "property name " ++ name ++ " is repeated"
  | .undefinedVariable name => "variable " ++ name ++ " is undefined"
  | .missingReference => "include has no refid"
  | .fragmentNotFound name => "sql " ++ name ++ " does not exist"
  | .cyclicReference chain => "cyclic include: " ++ String.intercalate " -> " chain
  | .token cause => cause.message

end SqlFragments
