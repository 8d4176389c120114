/-! # Malformed markup

The causes for which a document is not well-formed markup, and their wording. -/

namespace SqlFragments.Markup

/-- Why the number in a character reference is none. -/
inductive NumberError where
  | empty
  | invalidDigit
  | tooLarge
  deriving DecidableEq, Repr

/-- What is wrong with an entity. Places are counted in bytes from the start of the text. -/
inductive EntityError where
  /-- No entity has this name, which stands between the two places. -/
  | unknown (first last : Nat) (name : String)
  /-- The entity that begins at `first` has no end in a text that ends at `last`. -/
  | unterminated (first last : Nat)
  /-- The number of a character reference has a sign. -/
  | unexpectedSign
  /-- A character reference has no readable number. -/
  | invalidNumber (cause : NumberError)
  /-- The number of a character reference is no code point of a character. -/
  | invalidCodepoint (code : Nat)
  /-- A document must not hold the character of this number. -/
  | illegalCharacter (code : Nat)
  deriving DecidableEq, Repr

/-- What is wrong with the attributes of a tag. Places are counted in bytes from the start of the
tag. -/
inductive AttributeError where
  /-- A key has no equals sign. -/
  | expectedEq (place : Nat)
  /-- Nothing follows an equals sign. -/
  | expectedValue (place : Nat)
  /-- A value does not begin with a quote. -/
  | unquotedValue (place : Nat)
  /-- A value has no closing quote. -/
  | expectedQuote (place : Nat) (quote : Char)
  /-- A key is used twice, the second time at `place`. -/
  | duplicated (place previous : Nat)
  deriving DecidableEq, Repr

/-- Why a document is not well-formed markup. -/
inductive MarkupError where
  | invalidBang
  | unclosedInstruction
  | unclosedComment
  | unclosedDoctype
  | unclosedCData
  | unclosedTag
  /-- A document type has no name. -/
  | missingDoctypeName
  /-- The document ends before this element does. -/
  | missingEndTag (name : String)
  /-- An end tag follows when no element is open. -/
  | unmatchedEndTag (name : String)
  /-- An end tag does not belong to the innermost open element. -/
  | mismatchedEndTag (expected found : String)
  | attribute (cause : AttributeError)
  | entity (cause : EntityError)
  deriving DecidableEq, Repr

/-- The wording of an unreadable number. -/
def NumberError.message : NumberError → String
  | .empty => "cannot parse integer from empty string"
  | .invalidDigit => "invalid digit found in string"
  | .tooLarge => "number too large to fit in target type"

/-- The wording of a bad character reference. -/
def badReference (cause : String) : String := "invalid character reference: " ++ cause

/-- The wording of an error in an entity. -/
def EntityError.message : EntityError → String
  | .unknown first last name =>
    "at " ++ toString first ++ ".." ++ toString last ++ ": unrecognized entity `" ++ name ++ "`"
  | .unterminated first last =>
    "Error while escaping character at range " ++ toString first ++ ".." ++ toString last
      ++ ": Cannot find ';' after '&'"
  | .unexpectedSign => badReference "unexpected number sign"
  | .invalidNumber cause => badReference cause.message
  | .invalidCodepoint code => badReference ("`" ++ toString code ++ "` is not a valid codepoint")
  | .illegalCharacter code =>
    badReference
      ("0x" ++ String.ofList (Nat.toDigits 16 code) ++ " character is not permitted in XML")

/-- The wording of an error in the attributes of a tag. -/
def AttributeError.message (e : AttributeError) : String :=
  let worded (place : Nat) (cause : String) : String :=
    "error while parsing attribute: position " ++ toString place ++ ": " ++ cause
  match e with
  | .expectedEq place => worded place "attribute key must be directly followed by `=` or space"
  | .expectedValue place => worded place "`=` must be followed by an attribute value"
  | .unquotedValue place => worded place "attribute value must be enclosed in `\"` or `'`"
  | .expectedQuote place quote =>
    worded place ("missing closing quote `" ++ String.singleton quote ++ "` in attribute value")
  | .duplicated place previous =>
    worded place ("duplicated attribute, previous declaration at position " ++ toString previous)

/-- The wording of malformed markup. -/
def MarkupError.message (e : MarkupError) : String :=
  let unclosed (what mark : String) : String :=
    "syntax error: " ++ what ++ " not closed: `" ++ mark ++ "` not found before end of input"
  let illFormed (cause : String) : String := "ill-formed document: " ++ cause
  match e with
  | .invalidBang => "syntax error: unknown or missed symbol in markup"
  | .unclosedInstruction => unclosed "processing instruction or xml declaration" "?>"
  | .unclosedComment => unclosed "comment" "-->"
  | .unclosedDoctype => unclosed "DOCTYPE" ">"
  | .unclosedCData => unclosed "CDATA" "]]>"
  | .unclosedTag => unclosed "tag" ">"
  | .missingDoctypeName =>
    illFormed "`<!DOCTYPE>` declaration does not contain a name of a document type"
  | .missingEndTag name =>
    illFormed ("start tag not closed: `</" ++ name ++ ">` not found before end of input")
  | .unmatchedEndTag name => illFormed ("close tag `</" ++ name ++ ">` does not match any open tag")
  | .mismatchedEndTag expected found =>
    illFormed ("expected `</" ++ expected ++ ">`, but `</" ++ found ++ ">` was found")
  | .attribute cause => cause.message
  | .entity cause => cause.message

end SqlFragments.Markup
