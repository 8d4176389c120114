/-! # Breaking texts

What the readers of formal texts share: the spaces between parts, the search for a stop mark, and
the size of a text in bytes. What follows a stop mark is no longer than the text that it was found
in (`breakAt_length_le`), so whoever reads on from there comes to an end. -/

namespace SqlFragments.Text

/-- Whether a character separates the parts of markup and of structured data: space, tab, line
feed or carriage return. -/
def isSpace (c : Char) : Bool := c == ' ' || c == '\t' || c == '\n' || c == '\r'

/-- The text before the first occurrence of `stop` and the text behind it. -/
def breakAt (stop : List Char) : List Char → Option (List Char × List Char)
  | [] => none
  | c :: cs =>
    match stop.isPrefixOf? (c :: cs) with
    | some rest => some ([], rest)
    | none =>
      match breakAt stop cs with
      | some (before, rest) => some (c :: before, rest)
      | none => none

/-- What follows a prefix is no longer than the text. -/
theorem length_le_of_isPrefixOf? {stop cs rest : List Char}
    (h : stop.isPrefixOf? cs = some rest) : rest.length ≤ cs.length := by
  induction stop generalizing cs with
  | nil =>
    have hrest : some cs = some rest := h
    exact Nat.le_of_eq (congrArg List.length (Option.some.inj hrest).symm)
  | cons s stop ih =>
    cases cs with
    | nil => cases h
    | cons c cs =>
      have hstep : (if s == c then stop.isPrefixOf? cs else none) = some rest := h
      split at hstep
      · exact Nat.le_succ_of_le (ih hstep)
      · simp at hstep

/-- What follows a stop mark is no longer than the text that it was found in. -/
theorem breakAt_length_le {stop cs before rest : List Char}
    (h : breakAt stop cs = some (before, rest)) : rest.length ≤ cs.length := by
  induction cs generalizing before with
  | nil => simp [breakAt] at h
  | cons c cs ih =>
    simp only [breakAt] at h
    split at h
    · rename_i hstop
      simp only [Option.some.injEq, Prod.mk.injEq] at h
      obtain ⟨-, rfl⟩ := h
      exact length_le_of_isPrefixOf? hstop
    · split at h
      · rename_i hlater
        simp only [Option.some.injEq, Prod.mk.injEq] at h
        obtain ⟨-, rfl⟩ := h
        exact Nat.le_succ_of_le (ih hlater)
      · simp at h

/-- How many bytes a text takes. -/
def byteLength : List Char → Nat
  | [] => 0
  | c :: cs => c.utf8Size + byteLength cs

end SqlFragments.Text
