import SqlFragments.Text.Quoted

/-! # Tokens of statement text

Statement text is a flat mix of literal stretches and placeholders: variables, which resolution
replaces, and parameters, which it leaves to whoever runs the statement. -/

namespace SqlFragments.Placeholder

/-- A piece of statement text. -/
inductive Token where
  /-- A stretch of text that stands for itself. -/
  | literal (text : String)
  /-- A variable, replaced by its value. -/
  | variable (name : String)
  /-- A parameter, bound when the statement is run. -/
  | parameter (expr : String)
  /-- The end of the text. -/
  | endOfText
  deriving DecidableEq, Repr

/-- The written form of a token: literal text as it is, placeholders in braces. -/
def Token.render : Token → String
  | .literal text => text
  | .variable name => "$\x7b" ++ name ++ "\x7d"
  | .parameter expr => "#\x7b" ++ expr ++ "\x7d"
  | .endOfText => ""

/-- What can be wrong with a braced placeholder. Each cause carries the position of the sigil,
counted in characters from the start of the text. -/
inductive TokenError where
  /-- No closing brace follows. -/
  | unterminated (start : Nat)
  /-- Nothing but blanks stands between the braces. -/
  | emptyPlaceholder (start : Nat)
  /-- What stands between the braces is not the name of a variable. -/
  | invalidName (name : String) (start : Nat)
  deriving DecidableEq, Repr

/-- The wording of an error in a placeholder. -/
def TokenError.message : TokenError → String
  | .unterminated start => "unterminated placeholder starting at position " ++ toString start
  | .emptyPlaceholder start => "empty placeholder at position " ++ toString start
  | .invalidName name start =>
    "invalid variable name " ++ Text.quoted name ++ " at position " ++ toString start

end SqlFragments.Placeholder
