import SqlFragments.Text.Blank

/-! # The words of a text

A text on one line: its words, the longest stretches without a blank, with one space between
them. `normalize` gets there by trimming and shortening each run of blanks; `words` reads the
words off directly. -/

namespace SqlFragments.Text

/-- Shortens every run of blanks to one space. `inRun` says whether the text is entered in the
middle of a run whose space has been written already. -/
def collapse (inRun : Bool) : List Char → List Char
  | [] => []
  | c :: cs =>
    if isBlank c then
      if inRun then collapse true cs else ' ' :: collapse true cs
    else c :: collapse false cs

/-- A text trimmed at both ends, with every run of blanks inside it written as one space. -/
def normalize (text : String) : String := String.ofList (collapse false (trim text.toList))

/-- The longest stretches without a blank, in order. -/
def words : List Char → List (List Char)
  | [] => []
  | c :: cs =>
    if isBlank c then words cs
    else
      match cs with
      | [] => [[c]]
      | d :: ds =>
        if isBlank d then [c] :: words (d :: ds)
        else
          match words (d :: ds) with
          | [] => [[c]]
          | w :: ws => (c :: w) :: ws

/-- A blank inside a run of blanks is left out. -/
theorem collapse_true_of_blank {c : Char} {cs : List Char} (h : isBlank c) :
    collapse true (c :: cs) = collapse true cs := by
  simp [collapse, h]

/-- A blank behind a word is written as a space, and a run of blanks begins. -/
theorem collapse_false_of_blank {c : Char} {cs : List Char} (h : isBlank c) :
    collapse false (c :: cs) = ' ' :: collapse true cs := by
  simp [collapse, h]

/-- Other characters stay, and end the run. -/
theorem collapse_of_not_blank {c : Char} {cs : List Char} (inRun : Bool) (h : ¬ isBlank c) :
    collapse inRun (c :: cs) = c :: collapse false cs := by
  simp [collapse, h]

end SqlFragments.Text
