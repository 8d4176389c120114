import SqlFragments.Text.Ranges

/-! # Blank characters

The white space of all scripts (`White_Space`), and trimming. `trim_eq_nil_iff` says that only a
text of blanks alone trims to nothing. -/

namespace SqlFragments.Text

/-- White space. -/
def blankRanges : Ranges := [
  (0x9, 0xD), (0x20, 0x20), (0x85, 0x85), (0xA0, 0xA0), (0x1680, 0x1680), (0x2000, 0x200A),
  (0x2028, 0x2029), (0x202F, 0x202F), (0x205F, 0x205F), (0x3000, 0x3000)
]

/-- Whether a character is white space. -/
def isBlank (c : Char) : Bool := blankRanges.holds c.toNat

/-- A text without the blanks at its end. -/
def trimEnd : List Char → List Char
  | [] => []
  | c :: cs =>
    match trimEnd cs with
    | [] => if isBlank c then [] else [c]
    | d :: ds => c :: d :: ds

/-- A text without the blanks at either end. -/
def trim (cs : List Char) : List Char := trimEnd (cs.dropWhile isBlank)

/-- Nothing is left of a text trimmed at its end just if it is blank. -/
theorem trimEnd_eq_nil_iff {cs : List Char} : trimEnd cs = [] ↔ ∀ c ∈ cs, isBlank c := by
  induction cs with
  | nil => simp [trimEnd]
  | cons c cs ih =>
    simp only [trimEnd]
    split
    · rename_i h
      have := ih.1 h
      by_cases hc : isBlank c <;> simp [hc]
      exact this
    · rename_i h
      simp only [reduceCtorEq, List.mem_cons, forall_eq_or_imp, false_iff, not_and]
      intro _ hall
      simp [ih.2 hall] at h

/-- Nothing is left of a text trimmed at both ends just if it is blank. -/
theorem trim_eq_nil_iff {cs : List Char} : trim cs = [] ↔ ∀ c ∈ cs, isBlank c := by
  rw [trim, trimEnd_eq_nil_iff]
  constructor
  · intro h c hc
    induction cs with
    | nil => simp at hc
    | cons d ds ih =>
      by_cases hd : isBlank d
      · rw [List.dropWhile_cons_of_pos hd] at h
        rcases List.mem_cons.1 hc with rfl | hc
        · exact hd
        · exact ih h hc
      · rw [List.dropWhile_cons_of_neg hd] at h
        exact h c hc
  · exact fun h c hc => h c ((List.dropWhile_sublist _).subset hc)

end SqlFragments.Text
