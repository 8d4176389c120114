import SqlFragments.Text.Letter

/-! # Names of variables

A variable has a dotted name: segments with single periods between them, each a letter or an
underscore followed by letters, numerals and underscores. -/

namespace SqlFragments.Placeholder

open SqlFragments.Text

/-- Whether a segment of a name may begin with this character. -/
def isNameStart (c : Char) : Bool := isLetter c || c == '_'

/-- Whether a segment of a name may hold this character. -/
def isNameChar (c : Char) : Bool := isAlphanumeric c || c == '_'

/-- Whether a text continues a dotted name. `fresh` says that a segment is about to begin. -/
def continuesName (fresh : Bool) : List Char → Bool
  | [] => !fresh
  | c :: cs =>
    if fresh then isNameStart c && continuesName false cs
    else if c = '.' then continuesName true cs
    else isNameChar c && continuesName false cs

/-- Whether a text is a dotted name. -/
def isVariableName (name : List Char) : Bool := continuesName true name

/-- A character that begins a name may also stand inside one. -/
theorem isNameChar_of_isNameStart {c : Char} (h : isNameStart c) : isNameChar c := by
  simp only [isNameStart, isNameChar, isAlphanumeric, Bool.or_eq_true] at h ⊢
  exact h.imp Or.inl id

/-- The period separates segments, it never stands in one. -/
theorem isNameChar_period : isNameChar '.' = false := by decide

end SqlFragments.Placeholder
