import SqlFragments.Placeholder.Name
import SqlFragments.Placeholder.Token
import SqlFragments.Text.Blank

/-! # Reading placeholders

A cursor stands somewhere in a text and reads one token after another. A dollar sign or hash sign
with a brace, and a dollar sign with a name right after it, begin a placeholder; everything up to
the next such place is literal text. Reading goes on after an error, from where the failing read
had come to.

* `Cursor.next_rest_length_lt`: before the end of the text every read moves on;
* `tokenize` collects the tokens up to the end, or stops at the first error. -/

namespace SqlFragments.Placeholder

open SqlFragments.Text

/-! ## The parts of a text -/

/-- Whether a placeholder begins at the head of a text. -/
def startsPlaceholder : List Char → Bool
  | '$' :: '{' :: _ => true
  | '#' :: '{' :: _ => true
  | '$' :: c :: _ => isNameStart c
  | _ => false

/-- The longest literal stretch at the head of a text, and what follows it. -/
def spanLiteral : List Char → List Char × List Char
  | [] => ([], [])
  | c :: cs =>
    if startsPlaceholder (c :: cs) then ([], c :: cs)
    else (c :: (spanLiteral cs).1, (spanLiteral cs).2)

/-- Whether a character that belongs to a name stands at the head of a text. -/
def startsNameChar : List Char → Bool
  | [] => false
  | c :: _ => isNameChar c

/-- The longest dotted name at the head of a text, and what follows it. A period belongs to the
name only if the name goes on behind it. -/
def spanName : List Char → List Char × List Char
  | [] => ([], [])
  | c :: cs =>
    if isNameChar c || (c == '.' && startsNameChar cs) then
      (c :: (spanName cs).1, (spanName cs).2)
    else ([], c :: cs)

/-- What stands before the first closing brace, and the text from that brace on. -/
def spanBody (cs : List Char) : List Char × List Char :=
  (cs.takeWhile (· != '}'), cs.dropWhile (· != '}'))

/-- A literal stretch and what follows it make up the text. -/
theorem spanLiteral_append (cs : List Char) : (spanLiteral cs).1 ++ (spanLiteral cs).2 = cs := by
  induction cs with
  | nil => rfl
  | cons c cs ih =>
    simp only [spanLiteral]
    split
    · rfl
    · simp [ih]

/-- A name and what follows it make up the text. -/
theorem spanName_append (cs : List Char) : (spanName cs).1 ++ (spanName cs).2 = cs := by
  induction cs with
  | nil => rfl
  | cons c cs ih =>
    simp only [spanName]
    split
    · simp [ih]
    · rfl

/-- The body of a placeholder and what follows it make up the text. -/
theorem spanBody_append (cs : List Char) : (spanBody cs).1 ++ (spanBody cs).2 = cs :=
  List.takeWhile_append_dropWhile

/-- What follows a literal stretch is no longer than the text. -/
theorem spanLiteral_length_le (cs : List Char) : (spanLiteral cs).2.length ≤ cs.length := by
  have h := congrArg List.length (spanLiteral_append cs)
  rw [List.length_append] at h
  omega

/-- What follows a name is no longer than the text. -/
theorem spanName_length_le (cs : List Char) : (spanName cs).2.length ≤ cs.length := by
  have h := congrArg List.length (spanName_append cs)
  rw [List.length_append] at h
  omega

/-- What follows the body of a placeholder is no longer than the text. -/
theorem spanBody_length_le (cs : List Char) : (spanBody cs).2.length ≤ cs.length := by
  have h := congrArg List.length (spanBody_append cs)
  rw [List.length_append] at h
  omega

/-! ## The cursor -/

/-- A place in a text. -/
structure Cursor where
  /-- How many characters lie before it. -/
  position : Nat
  /-- The text from there on. -/
  rest : List Char
  deriving DecidableEq, Repr

/-- The start of a text. -/
def Cursor.start (text : String) : Cursor := ⟨0, text.toList⟩

/-- Reads what stands between the braces of a placeholder that begins at `position`, `cs` being
the text behind the opening brace. `accept` turns the trimmed body into a token. -/
def readBraced (position : Nat) (cs : List Char) (accept : List Char → Except TokenError Token) :
    Except TokenError Token × Cursor :=
  let (body, after) := spanBody cs
  match after with
  | [] => (.error (.unterminated position), ⟨position + 2 + body.length, []⟩)
  | _ :: rest =>
    let trimmed := trim body
    let answer := if trimmed.isEmpty then .error (.emptyPlaceholder position) else accept trimmed
    (answer, ⟨position + 2 + body.length + 1, rest⟩)

/-- The variable that the body of a placeholder names. -/
def variableToken (position : Nat) (name : List Char) : Except TokenError Token :=
  if isVariableName name then .ok (.variable (String.ofList name))
  else .error (.invalidName (String.ofList name) position)

/-- Reads the literal stretch at the head of a text. -/
def readLiteral (position : Nat) (cs : List Char) : Except TokenError Token × Cursor :=
  let (text, rest) := spanLiteral cs
  (.ok (.literal (String.ofList text)), ⟨position + text.length, rest⟩)

/-- Reads one token. At the end of the text the answer is `endOfText` again and again. -/
def Cursor.next (cursor : Cursor) : Except TokenError Token × Cursor :=
  match cursor.rest with
  | [] => (.ok .endOfText, cursor)
  | '$' :: '{' :: cs => readBraced cursor.position cs (variableToken cursor.position)
  | '#' :: '{' :: cs =>
    readBraced cursor.position cs fun expr => .ok (.parameter (String.ofList expr))
  | '$' :: c :: cs =>
    if isNameStart c then
      let (name, rest) := spanName (c :: cs)
      (.ok (.variable (String.ofList name)), ⟨cursor.position + 1 + name.length, rest⟩)
    else readLiteral cursor.position ('$' :: c :: cs)
  | cs => readLiteral cursor.position cs

/-- Reading a placeholder in braces does not go back. -/
theorem readBraced_rest_length_le (position : Nat) (cs : List Char)
    (accept : List Char → Except TokenError Token) :
    (readBraced position cs accept).2.rest.length ≤ cs.length := by
  have h := spanBody_length_le cs
  simp only [readBraced]
  split
  · exact Nat.zero_le _
  · rename_i rest heq
    simp only [heq, List.length_cons] at h
    simpa using Nat.le_of_succ_le h

/-- **Progress in literal text.** Where no placeholder begins, at least one character is taken up.
-/
theorem readLiteral_rest_length_lt {position : Nat} {c : Char} {cs : List Char}
    (h : startsPlaceholder (c :: cs) = false) :
    (readLiteral position (c :: cs)).2.rest.length < (c :: cs).length := by
  simp only [readLiteral, spanLiteral, h, Bool.false_eq_true, if_false, List.length_cons]
  exact Nat.lt_succ_of_le (spanLiteral_length_le cs)

/-- **Progress.** A read that begins before the end of the text leaves less of it. -/
theorem Cursor.next_rest_length_lt {cursor : Cursor} (h : cursor.rest ≠ []) :
    cursor.next.2.rest.length < cursor.rest.length := by
  obtain ⟨position, rest⟩ := cursor
  simp only [Cursor.next]
  split
  · -- the end of the text is excluded
    exact absurd rfl h
  · -- a variable in braces
    rename_i cs
    have := readBraced_rest_length_le position cs (variableToken position)
    simp only [List.length_cons]
    omega
  · -- a parameter
    rename_i cs
    have := readBraced_rest_length_le position cs
      fun expr => .ok (.parameter (String.ofList expr))
    simp only [List.length_cons]
    omega
  · -- a dollar sign without a brace: a bare name or literal text
    rename_i c cs hbrace
    split
    · have := spanName_length_le (c :: cs)
      simp only [List.length_cons] at this ⊢
      omega
    · rename_i hstart
      refine readLiteral_rest_length_lt ?_
      simp only [startsPlaceholder]
      simpa using hstart
  · -- literal text, which no placeholder begins
    rename_i cs hnil hdollar hhash hname
    cases rest with
    | nil => exact absurd rfl h
    | cons c cs =>
      refine readLiteral_rest_length_lt ?_
      unfold startsPlaceholder
      split
      · rename_i heq
        exact absurd heq (hdollar _)
      · rename_i heq
        exact absurd heq (hhash _)
      · rename_i heq
        exact absurd heq (hname _ _)
      · rfl

/-- The tokens from a place up to the end of the text, or the first error. -/
def Cursor.tokens (cursor : Cursor) : Except TokenError (List Token) :=
  if _h : cursor.rest = [] then .ok []
  else
    match cursor.next.1 with
    | .error e => .error e
    | .ok token =>
      match cursor.next.2.tokens with
      | .error e => .error e
      | .ok tokens => .ok (token :: tokens)
termination_by cursor.rest.length
decreasing_by exact Cursor.next_rest_length_lt _h

/-- The tokens of a text. -/
def tokenize (text : String) : Except TokenError (List Token) := (Cursor.start text).tokens

end SqlFragments.Placeholder
