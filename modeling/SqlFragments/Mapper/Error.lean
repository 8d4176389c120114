import SqlFragments.Markup.Error
import SqlFragments.Node.Error

/-! # Documents that cannot be loaded

The causes for which a document does not give a mapper, and their wording. -/

namespace SqlFragments

/-- Why a document does not give a mapper. -/
inductive MapperError where
  /-- The document is not well-formed. -/
  | markup (cause : Markup.MarkupError)
  /-- A statement cannot be built. -/
  | node (cause : NodeError)
  /-- The first element is not a mapper. -/
  | missingMapper
  /-- The mapper has no namespace. -/
  | missingNamespace
  /-- A statement has no id. -/
  | missingId (tag : String)
  /-- Two statements have one id. -/
  | duplicateId (id : String)
  /-- An element stands in a statement that has no meaning there. -/
  | unsupportedElement (name : String)
  deriving DecidableEq, Repr

/-- The wording of an error. -/
def MapperError.message : MapperError → String
  | .markup cause => "malformed mapper XML: " ++ cause.message
  | .node cause => cause.message
  | .missingMapper => "document has no <mapper> root element"
  | .missingNamespace => "<mapper> element has no namespace"
  | .missingId tag => "<" ++ tag ++ "> element has no id"
  | .duplicateId id => "statement id " ++ id ++ " is declared twice"
  | .unsupportedElement name => "unsupported element <" ++ name ++ "> inside a statement"

end SqlFragments
