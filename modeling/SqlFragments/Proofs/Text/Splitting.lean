import Mathlib.Data.List.Infix
import Mathlib.Data.List.TakeWhile
import SqlFragments.Text.Blank
import SqlFragments.Text.Break

/-! # Where texts are split

A text that was put together is split again where it was joined, if what marks the place begins
nowhere before.

* `span_append`: a stretch of characters of one kind ends at the first of another kind;
* `breakAt_append`: a stop mark is found where it was written;
* `breakAt_eq_some`: what a text is broken into makes it up again;
* `trim_eq_self`: without blanks there is nothing to cut off;
* `trim_trim`: nor is there once it has been cut off;
* `exists_trim`, `trim_append`: what is cut off is blank, and no other blanks are. -/

namespace SqlFragments.Text

/-- A stretch of characters of one kind is found again before a character of another kind. -/
theorem span_append {p : Char → Bool} {cs : List Char} (h : ∀ c ∈ cs, p c = true) {d : Char}
    (hd : p d = false) (rest : List Char) :
    (cs ++ d :: rest).takeWhile p = cs ∧ (cs ++ d :: rest).dropWhile p = d :: rest := by
  rw [List.takeWhile_append_of_pos h, List.dropWhile_append_of_pos h]
  simp [hd]

/-- The end of a text can be trimmed behind its first character, if that is no blank. -/
theorem trimEnd_cons {c : Char} (hc : isBlank c = false) (cs : List Char) :
    trimEnd (c :: cs) = c :: trimEnd cs := by
  rw [trimEnd]
  cases trimEnd cs with
  | nil => simp [hc]
  | cons d ds => rfl

/-- At the end of a text those blanks are cut off that stand behind its last other character. -/
theorem trimEnd_append {cs right : List Char} (hcs : ∀ c ∈ cs, isBlank c = false)
    (hright : ∀ c ∈ right, isBlank c) : trimEnd (cs ++ right) = cs := by
  induction cs with
  | nil => exact trimEnd_eq_nil_iff.2 hright
  | cons c cs ih =>
    rw [List.forall_mem_cons] at hcs
    rw [List.cons_append, trimEnd_cons hcs.1, ih hcs.2]

/-- Where there are no blanks none is cut off at the end. -/
theorem trimEnd_eq_self {cs : List Char} (h : ∀ c ∈ cs, isBlank c = false) : trimEnd cs = cs := by
  simpa using trimEnd_append h (List.forall_mem_nil _)

/-- A text without blanks stays as it is. -/
theorem trim_eq_self {cs : List Char} (h : ∀ c ∈ cs, isBlank c = false) : trim cs = cs := by
  have hdrop : cs.dropWhile isBlank = cs := by
    cases cs with
    | nil => rfl
    | cons c cs => rw [List.dropWhile_cons_of_neg (by simp [h c List.mem_cons_self])]
  rw [trim, hdrop, trimEnd_eq_self h]

/-! ## Trimming twice -/

/-- What has been trimmed at the end ends with no blank. -/
theorem trimEnd_trimEnd (cs : List Char) : trimEnd (trimEnd cs) = trimEnd cs := by
  induction cs with
  | nil => rfl
  | cons c cs ih =>
    rw [trimEnd]
    cases hcs : trimEnd cs with
    | nil => cases hc : isBlank c <;> simp [trimEnd, hc]
    | cons d ds =>
      rw [hcs] at ih
      show trimEnd (c :: d :: ds) = c :: d :: ds
      rw [trimEnd, ih]

/-- Trimming the end only takes characters away. -/
theorem trimEnd_sublist (cs : List Char) : (trimEnd cs).Sublist cs := by
  induction cs with
  | nil => exact .slnil
  | cons c cs ih =>
    rw [trimEnd]
    cases hcs : trimEnd cs with
    | nil =>
      cases hc : isBlank c with
      | true => exact List.nil_sublist _
      | false => exact (List.nil_sublist cs).cons_cons c
    | cons d ds =>
      rw [hcs] at ih
      exact ih.cons_cons c

/-- Trimming only takes characters away. -/
theorem trim_sublist (cs : List Char) : (trim cs).Sublist cs :=
  (trimEnd_sublist _).trans (List.dropWhile_sublist _)

/-- **A trimmed text stays as it is.** -/
theorem trim_trim (cs : List Char) : trim (trim cs) = trim cs := by
  have hdrop : (trim cs).dropWhile isBlank = trim cs := by
    rw [trim]
    cases hcs : cs.dropWhile isBlank with
    | nil => rfl
    | cons c rest =>
      -- the first character is no blank, and it stays the first one
      have hc : isBlank c = false := by
        have hhead := List.head_dropWhile_not isBlank (l := cs) (by simp [hcs])
        simpa [hcs] using hhead
      rw [trimEnd_cons hc, List.dropWhile_cons_of_neg (by simp [hc])]
  rw [trim, hdrop, trim, trimEnd_trimEnd]

/-! ## What is cut off -/

/-- Only blanks are cut off at the end. -/
theorem exists_trimEnd (cs : List Char) :
    ∃ right, cs = trimEnd cs ++ right ∧ ∀ c ∈ right, isBlank c := by
  induction cs with
  | nil => exact ⟨[], rfl, by simp⟩
  | cons c cs ih =>
    obtain ⟨right, hcs, hright⟩ := ih
    rw [trimEnd]
    cases hend : trimEnd cs with
    | nil =>
      rw [hend, List.nil_append] at hcs
      subst hcs
      cases hc : isBlank c with
      | true => exact ⟨c :: cs, rfl, List.forall_mem_cons.2 ⟨hc, hright⟩⟩
      | false => exact ⟨cs, rfl, hright⟩
    | cons d ds =>
      rw [hend] at hcs
      exact ⟨right, congrArg (c :: ·) hcs, hright⟩

/-- **Only blanks are cut off**, at both ends. -/
theorem exists_trim (cs : List Char) : ∃ left right, cs = left ++ (trim cs ++ right) ∧
    (∀ c ∈ left, isBlank c) ∧ ∀ c ∈ right, isBlank c := by
  obtain ⟨right, hcs, hright⟩ := exists_trimEnd (cs.dropWhile isBlank)
  refine ⟨cs.takeWhile isBlank, right, ?_, fun c hc => List.mem_takeWhile_imp hc, hright⟩
  rw [trim, ← hcs, List.takeWhile_append_dropWhile]

/-- A text without blanks is what is left when the blanks around it are cut off. -/
theorem trim_append {left cs right : List Char} (hleft : ∀ c ∈ left, isBlank c)
    (hcs : ∀ c ∈ cs, isBlank c = false) (hright : ∀ c ∈ right, isBlank c) :
    trim (left ++ (cs ++ right)) = cs := by
  rw [trim, List.dropWhile_append_of_pos hleft]
  cases cs with
  | nil =>
    rw [List.nil_append, List.dropWhile_eq_nil_iff.2 hright]
    rfl
  | cons c cs =>
    have hc : ¬ isBlank c = true := by simp [hcs c List.mem_cons_self]
    rw [List.cons_append, List.dropWhile_cons_of_neg hc, ← List.cons_append,
      trimEnd_append hcs hright]

/-! ## Stop marks -/

/-- Nothing is lost when a text is broken: it is what comes before the stop mark, the mark, and what
follows it. -/
theorem breakAt_eq_some {stop cs before rest : List Char}
    (h : breakAt stop cs = some (before, rest)) : cs = before ++ (stop ++ rest) := by
  induction cs generalizing before with
  | nil => simp [breakAt] at h
  | cons c cs ih =>
    simp only [breakAt] at h
    split at h
    · rename_i hstop
      simp only [Option.some.injEq, Prod.mk.injEq] at h
      obtain ⟨rfl, rfl⟩ := h
      exact (List.append_eq_of_isPrefixOf?_eq_some hstop).symm
    · split at h
      · rename_i hlater
        simp only [Option.some.injEq, Prod.mk.injEq] at h
        obtain ⟨rfl, rfl⟩ := h
        exact congrArg (c :: ·) (ih hlater)
      · simp at h

/-- A stop mark is found where it was written, if it begins nowhere before. -/
theorem breakAt_append {stop cs : List Char} (rest : List Char) (hstop : stop ≠ [])
    (h : ∀ part, part ≠ [] → part <:+ cs → ¬ stop <+: part ++ (stop ++ rest)) :
    breakAt stop (cs ++ (stop ++ rest)) = some (cs, rest) := by
  induction cs with
  | nil =>
    obtain ⟨s, ss, rfl⟩ := List.exists_cons_of_ne_nil hstop
    have hself : (s :: ss).isPrefixOf? (s :: ss ++ rest) = some rest :=
      List.isPrefixOf?_eq_some_iff_append_eq.2 rfl
    rw [List.nil_append]
    rw [List.cons_append] at hself ⊢
    rw [breakAt, hself]
  | cons c cs ih =>
    have hnot : stop.isPrefixOf? (c :: (cs ++ (stop ++ rest))) = none := by
      rw [Option.eq_none_iff_forall_ne_some]
      intro after hafter
      rw [List.isPrefixOf?_eq_some_iff_append_eq] at hafter
      exact h (c :: cs) (List.cons_ne_nil c cs) (List.suffix_refl _) ⟨after, hafter⟩
    rw [List.cons_append, breakAt, hnot]
    simp only
    rw [ih fun part hne hpart => h part hne (hpart.trans (List.suffix_cons c cs))]

/-- A mark of two characters cannot begin right before another one of its kind. -/
theorem breakAt_append_pair {x y : Char} (hxy : x ≠ y) {cs : List Char}
    (h : ¬ [x, y] <:+: cs) (rest : List Char) :
    breakAt [x, y] (cs ++ ([x, y] ++ rest)) = some (cs, rest) := by
  refine breakAt_append rest (List.cons_ne_nil x _) fun part hne hpart hstop => ?_
  -- an earlier mark would reach into the written one, or lie in the text
  match part, hne with
  | [c], _ =>
    simp only [List.cons_append, List.nil_append, List.cons_prefix_cons] at hstop
    exact hxy hstop.2.1.symm
  | c :: d :: more, _ =>
    simp only [List.cons_append, List.cons_prefix_cons] at hstop
    obtain ⟨rfl, rfl, -⟩ := hstop
    exact h (List.IsInfix.trans ⟨[], more, rfl⟩ hpart.isInfix)

/-- Nor can a mark of three characters that begins with a character twice. -/
theorem breakAt_append_triple {x y : Char} (hxy : x ≠ y) {cs : List Char}
    (h : ¬ [x, x, y] <:+: cs) (rest : List Char) :
    breakAt [x, x, y] (cs ++ ([x, x, y] ++ rest)) = some (cs, rest) := by
  refine breakAt_append rest (List.cons_ne_nil x _) fun part hne hpart hstop => ?_
  match part, hne with
  | [c], _ =>
    simp only [List.cons_append, List.nil_append, List.cons_prefix_cons] at hstop
    exact hxy hstop.2.2.1.symm
  | [c, d], _ =>
    simp only [List.cons_append, List.nil_append, List.cons_prefix_cons] at hstop
    exact hxy hstop.2.2.1.symm
  | c :: d :: e :: more, _ =>
    simp only [List.cons_append, List.cons_prefix_cons] at hstop
    obtain ⟨rfl, rfl, rfl, -⟩ := hstop
    exact h (List.IsInfix.trans ⟨[], more, rfl⟩ hpart.isInfix)

end SqlFragments.Text
