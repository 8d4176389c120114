import SqlFragments.Placeholder.Cursor
import SqlFragments.Proofs.Text.Splitting

/-! # Reading tokens back

The tokens of a text can be written out and read back, if they are such that a text can be made of
them.

* `Token.wellFormedAll` says which lists of tokens these are;
* `Cursor.next_render`: the cursor reads a written token and stops right behind it;
* `tokens_renderAll`: so it reads back the whole list. -/

namespace SqlFragments.Placeholder

open SqlFragments.Text

/-! ## Well-formed tokens -/

/-- Whether a placeholder begins anywhere in a text. -/
def holdsPlaceholder : List Char → Bool
  | [] => false
  | c :: cs => startsPlaceholder (c :: cs) || holdsPlaceholder cs

/-- Whether a text can be a literal stretch. -/
def isLiteralText (cs : List Char) : Bool := cs ≠ [] && !holdsPlaceholder cs

/-- Whether a text can stand in the braces of a parameter. -/
def isParameterText (cs : List Char) : Bool := cs ≠ [] && trim cs = cs && !cs.contains '}'

/-- Whether a text can hold a token. -/
def Token.wellFormed : Token → Bool
  | .literal text => isLiteralText text.toList
  | .variable name => isVariableName name.toList
  | .parameter expr => isParameterText expr.toList
  | .endOfText => false

/-- Whether a token is a literal stretch. -/
def Token.isLiteral : Token → Bool
  | .literal _ => true
  | _ => false

/-- Whether a literal stretch comes first. -/
def Token.startsLiteral : List Token → Bool
  | [] => false
  | t :: _ => t.isLiteral

/-- Whether a text can hold tokens one after the other: no two literal stretches follow each
other. -/
def Token.wellFormedAll : List Token → Bool
  | [] => true
  | t :: ts => t.wellFormed && !(t.isLiteral && startsLiteral ts) && wellFormedAll ts

/-- The written form of tokens that follow each other. -/
def Token.renderAll : List Token → List Char
  | [] => []
  | t :: ts => t.render.toList ++ renderAll ts

/-! ## Names -/

/-- No blank belongs to a name. -/
theorem isBlank_of_isNameChar {c : Char} (h : isNameChar c) : isBlank c = false := by
  -- every blank is looked up in the tables of letters and numerals
  have hranges : ∀ r ∈ blankRanges, ∀ n ∈ List.range' r.1 (r.2 + 1 - r.1),
      letterRanges.holds n = false ∧ numeralRanges.holds n = false ∧ n ≠ '_'.toNat := by
    decide +kernel
  rw [Bool.eq_false_iff]
  intro hblank
  have hincreasing : blankRanges.Increasing := by
    simp [blankRanges, Ranges.Increasing]
  obtain ⟨r, hr, hlo, hhi⟩ := (Ranges.holds_iff hincreasing).1 hblank
  obtain ⟨hletter, hnumeral, hunderscore⟩ := hranges r hr c.toNat (by
    rw [List.mem_range'_1]
    omega)
  have hne : c ≠ '_' := by
    rintro rfl
    exact hunderscore rfl
  simp [isNameChar, isAlphanumeric, isLetter, isNumeral, hletter, hnumeral, hne] at h

/-- All characters of a name but the periods belong to segments. -/
theorem isNameChar_of_mem_name {fresh : Bool} {name : List Char} (h : continuesName fresh name)
    {c : Char} (hc : c ∈ name) : isNameChar c ∨ c = '.' := by
  induction name generalizing fresh with
  | nil => simp at hc
  | cons d ds ih =>
    simp only [continuesName] at h
    -- the first character is looked at by the state, the others by the state that follows it
    rcases List.mem_cons.1 hc with rfl | hc
    · cases fresh with
      | true =>
        rw [if_pos rfl, Bool.and_eq_true] at h
        exact .inl (isNameChar_of_isNameStart h.1)
      | false =>
        by_cases hperiod : c = '.'
        · exact .inr hperiod
        · rw [if_neg Bool.false_ne_true, if_neg hperiod, Bool.and_eq_true] at h
          exact .inl h.1
    · split at h
      · exact ih (Bool.and_eq_true _ _ ▸ h).2 hc
      · split at h
        · exact ih h hc
        · exact ih (Bool.and_eq_true _ _ ▸ h).2 hc

section Characters

variable {name : List Char} (h : ∀ c ∈ name, isNameChar c ∨ c = '.')

include h

/-- No blank stands in a name. -/
theorem isBlank_of_mem_name {c : Char} (hc : c ∈ name) : isBlank c = false := by
  rcases h c hc with hname | rfl
  · exact isBlank_of_isNameChar hname
  · decide

/-- Nor does the brace behind it. -/
theorem brace_notMem_name : '}' ∉ name := by
  intro hmem
  rcases h '}' hmem with hname | hperiod
  · have hbrace : isNameChar '}' = false := by decide +kernel
    rw [hbrace] at hname
    exact Bool.false_ne_true hname
  · exact absurd hperiod (by decide)

end Characters

/-! ## Reading one token -/

/-- Whether a text is at its end or a placeholder in braces comes next. -/
def atBrace : List Char → Bool
  | [] => true
  | '$' :: '{' :: _ => true
  | '#' :: '{' :: _ => true
  | _ => false

/-- Where a placeholder in braces comes next, a placeholder does. -/
theorem startsPlaceholder_of_atBrace {c : Char} {cs : List Char} (h : atBrace (c :: cs)) :
    startsPlaceholder (c :: cs) := by
  unfold atBrace at h
  split at h <;> simp_all [startsPlaceholder]

/-- Two characters decide whether a placeholder begins. -/
theorem startsPlaceholder_cons_cons (c d : Char) (cs : List Char) :
    startsPlaceholder (c :: d :: cs)
      = (c = '$' && (d = '{' || isNameStart d) || c = '#' && d = '{') := by
  unfold startsPlaceholder
  split <;> simp_all

/-- Whether a literal stretch cannot go on with this text: the text is at its end or a placeholder comes
next. -/
def endsLiteral (cs : List Char) : Bool := cs.isEmpty || startsPlaceholder cs

/-- A literal stretch does not go on with a placeholder in braces. -/
theorem endsLiteral_of_atBrace {cs : List Char} (h : atBrace cs) : endsLiteral cs := by
  cases cs with
  | nil => rfl
  | cons c cs => exact startsPlaceholder_of_atBrace h

/-- A placeholder begins with one of the two sigils, and no name does. -/
theorem exists_sigil_of_startsPlaceholder {cs : List Char} (h : startsPlaceholder cs) :
    ∃ c rest, cs = c :: rest ∧ (c = '$' ∨ c = '#') ∧ isNameChar c = false := by
  unfold startsPlaceholder at h
  have hdollar : isNameChar '$' = false := by decide +kernel
  have hhash : isNameChar '#' = false := by decide +kernel
  split at h
  · exact ⟨_, _, rfl, .inl rfl, hdollar⟩
  · exact ⟨_, _, rfl, .inr rfl, hhash⟩
  · exact ⟨_, _, rfl, .inl rfl, hdollar⟩
  · exact absurd h Bool.false_ne_true

/-- No placeholder begins before the sigil of another one. -/
theorem startsPlaceholder_append {c : Char} {cs rest : List Char}
    (h : startsPlaceholder (c :: cs) = false) (hrest : endsLiteral rest) :
    startsPlaceholder (c :: (cs ++ rest)) = false := by
  cases cs with
  | cons d ds =>
    -- both characters stand in the text itself
    rw [startsPlaceholder_cons_cons] at h
    rw [List.cons_append, startsPlaceholder_cons_cons, h]
  | nil =>
    cases rest with
    | nil => exact h
    | cons d rest =>
      -- the character behind is a sigil, with which no name begins
      obtain ⟨_, _, heq, hsigil, hchar⟩ := exists_sigil_of_startsPlaceholder hrest
      obtain ⟨rfl, rfl⟩ := List.cons.inj heq
      have hstart : isNameStart d = false := by
        rw [Bool.eq_false_iff]
        intro hstart
        exact Bool.false_ne_true (hchar.symm.trans (isNameChar_of_isNameStart hstart))
      have hbrace : d ≠ '{' := by
        rcases hsigil with rfl | rfl <;> decide
      simp [startsPlaceholder_cons_cons, hstart, hbrace]

/-- A literal stretch goes on up to the next placeholder. -/
theorem spanLiteral_append_of_endsLiteral {cs rest : List Char} (h : holdsPlaceholder cs = false)
    (hrest : endsLiteral rest) : spanLiteral (cs ++ rest) = (cs, rest) := by
  induction cs with
  | nil =>
    cases rest with
    | nil => rfl
    | cons c rest =>
      have hstarts : startsPlaceholder (c :: rest) := hrest
      rw [List.nil_append, spanLiteral, if_pos hstarts]
  | cons c cs ih =>
    simp only [holdsPlaceholder, Bool.or_eq_false_iff] at h
    have hc := startsPlaceholder_append h.1 hrest
    rw [List.cons_append, spanLiteral, if_neg (by simp [hc]), ih h.2]

/-- Without a closing brace the whole text is taken for the body. -/
theorem spanBody_of_notMem {cs : List Char} (h : '}' ∉ cs) : spanBody cs = (cs, []) := by
  have hall : ∀ c ∈ cs, (c != '}') = true := fun c hc => bne_iff_ne.2 (ne_of_mem_of_not_mem hc h)
  rw [spanBody, List.takeWhile_eq_self_iff.2 hall, List.dropWhile_eq_nil_iff.2 hall]

/-- A body without a closing brace ends at the one behind it. -/
theorem spanBody_append_brace {cs : List Char} (h : '}' ∉ cs) (rest : List Char) :
    spanBody (cs ++ '}' :: rest) = (cs, '}' :: rest) := by
  have hall : ∀ c ∈ cs, (c != '}') = true := fun c hc => bne_iff_ne.2 (ne_of_mem_of_not_mem hc h)
  obtain ⟨htake, hdrop⟩ := span_append hall (show ('}' != '}') = false from rfl) rest
  rw [spanBody, htake, hdrop]

/-- What stands before the first closing brace is read without the blanks around it. -/
theorem readBraced_brace (position : Nat) {cs : List Char} (hbrace : '}' ∉ cs) (rest : List Char)
    (accept : List Char → Except TokenError Token) :
    readBraced position (cs ++ '}' :: rest) accept
      = (if trim cs = [] then .error (.emptyPlaceholder position) else accept (trim cs),
          ⟨position + 2 + cs.length + 1, rest⟩) := by
  simp [readBraced, spanBody_append_brace hbrace]

/-- A body without blanks around it is read as it stands. -/
theorem readBraced_append (position : Nat) {cs : List Char} (hne : cs ≠ []) (htrim : trim cs = cs)
    (hbrace : '}' ∉ cs) (rest : List Char) (accept : List Char → Except TokenError Token) :
    readBraced position (cs ++ '}' :: rest) accept
      = (accept cs, ⟨position + 2 + cs.length + 1, rest⟩) := by
  rw [readBraced_brace position hbrace, htrim, if_neg hne]

/-- Where no placeholder begins, literal text is read. -/
theorem Cursor.next_of_not_startsPlaceholder {position : Nat} {c : Char} {cs : List Char}
    (h : startsPlaceholder (c :: cs) = false) :
    Cursor.next ⟨position, c :: cs⟩ = readLiteral position (c :: cs) := by
  simp only [Cursor.next]
  unfold startsPlaceholder at h
  split <;> simp_all

/-- Literal text is read up to its end. -/
theorem Cursor.next_literal {text rest : List Char} (h : isLiteralText text)
    (hrest : endsLiteral rest) (position : Nat) : Cursor.next ⟨position, text ++ rest⟩
      = (.ok (.literal (String.ofList text)), ⟨position + text.length, rest⟩) := by
  simp only [isLiteralText, Bool.and_eq_true, decide_eq_true_eq, Bool.not_eq_true'] at h
  have hspan := spanLiteral_append_of_endsLiteral h.2 hrest
  have hnext : Cursor.next ⟨position, text ++ rest⟩ = readLiteral position (text ++ rest) := by
    obtain ⟨c, cs, rfl⟩ := List.exists_cons_of_ne_nil h.1
    simp only [holdsPlaceholder, Bool.or_eq_false_iff] at h
    exact next_of_not_startsPlaceholder (startsPlaceholder_append h.2.1 hrest)
  simp only [hnext, readLiteral, hspan]

/-- A well-formed token is not written as nothing. -/
theorem Token.toList_render_ne_nil {t : Token} (h : t.wellFormed) : t.render.toList ≠ [] := by
  cases t with
  | literal text =>
    simp only [wellFormed, isLiteralText, Bool.and_eq_true, decide_eq_true_eq] at h
    exact h.1
  | «variable» name => simp [render]
  | parameter expr => simp [render]
  | endOfText => exact absurd h Bool.false_ne_true

/-- Nor are several. -/
theorem Token.renderAll_ne_nil {ts : List Token} (hne : ts ≠ []) (h : wellFormedAll ts) :
    renderAll ts ≠ [] := by
  obtain ⟨t, ts, rfl⟩ := List.exists_cons_of_ne_nil hne
  simp only [wellFormedAll, Bool.and_eq_true] at h
  exact List.append_ne_nil_of_left_ne_nil (toList_render_ne_nil h.1.1) _

/-- **A written token is read back**, and the cursor stands behind it. -/
theorem Cursor.next_render {t : Token} (h : t.wellFormed) (position : Nat) {rest : List Char}
    (hrest : t.isLiteral → atBrace rest) :
    ∃ after, Cursor.next ⟨position, t.render.toList ++ rest⟩ = (.ok t, ⟨after, rest⟩) := by
  cases t with
  | literal text =>
    -- what comes behind the text keeps the stretch from going on
    have hnext := next_literal h (endsLiteral_of_atBrace (hrest rfl)) position
    rw [String.ofList_toList] at hnext
    exact ⟨_, hnext⟩
  | «variable» name =>
    have hne : name.toList ≠ [] := by
      intro hnil
      simp [Token.wellFormed, hnil, isVariableName, continuesName] at h
    -- a name has no blanks that would be trimmed, and no brace that would end it early
    have hchars := fun c (hc : c ∈ name.toList) => isNameChar_of_mem_name h hc
    have htrim := trim_eq_self fun _ => isBlank_of_mem_name hchars
    have hread := readBraced_append position hne htrim (brace_notMem_name hchars) rest
      (variableToken position)
    refine ⟨position + 2 + name.toList.length + 1, ?_⟩
    have hshape : (Token.variable name).render.toList ++ rest
        = '$' :: '{' :: (name.toList ++ '}' :: rest) := by
      simp [Token.render]
    have hname : variableToken position name.toList = .ok (.variable name) := by
      have hvalid : isVariableName name.toList := h
      rw [variableToken, if_pos hvalid, String.ofList_toList]
    simp only [hshape, Cursor.next, hread, hname]
  | parameter expr =>
    simp only [Token.wellFormed, isParameterText, Bool.and_eq_true, decide_eq_true_eq,
      Bool.not_eq_true', List.contains_eq_mem, decide_eq_false_iff_not] at h
    have hread := readBraced_append position h.1.1 h.1.2 h.2 rest
      fun expr => .ok (.parameter (String.ofList expr))
    refine ⟨position + 2 + expr.toList.length + 1, ?_⟩
    have hshape : (Token.parameter expr).render.toList ++ rest
        = '#' :: '{' :: (expr.toList ++ '}' :: rest) := by
      simp [Token.render]
    simp only [hshape, Cursor.next, hread, String.ofList_toList]
  | endOfText => exact absurd h Bool.false_ne_true

/-! ## Reading all tokens -/

/-- Tokens that do not begin with a literal stretch begin with a brace, or there are none. -/
theorem Token.atBrace_renderAll {ts : List Token} (h : wellFormedAll ts)
    (hstart : startsLiteral ts = false) : atBrace (renderAll ts) := by
  cases ts with
  | nil => rfl
  | cons t ts =>
    simp only [wellFormedAll, Bool.and_eq_true] at h
    cases t with
    | literal text => exact absurd hstart.symm Bool.false_ne_true
    | «variable» name => simp [renderAll, render, atBrace]
    | parameter expr => simp [renderAll, render, atBrace]
    | endOfText => exact absurd h.1.1 Bool.false_ne_true

/-- At the end of a text there are no tokens left. -/
theorem tokens_nil (position : Nat) : Cursor.tokens ⟨position, []⟩ = .ok [] := by
  rw [Cursor.tokens, dif_pos rfl]

/-- **Tokens are read back.** -/
theorem tokens_renderAll {ts : List Token} (h : Token.wellFormedAll ts) (position : Nat) :
    Cursor.tokens ⟨position, Token.renderAll ts⟩ = .ok ts := by
  induction ts generalizing position with
  | nil => exact tokens_nil position
  | cons t ts ih =>
    simp only [Token.wellFormedAll, Bool.and_eq_true, Bool.not_eq_true'] at h
    obtain ⟨⟨ht, hstart⟩, hts⟩ := h
    -- between two literal stretches there would be no border
    have hrest : t.isLiteral → atBrace (Token.renderAll ts) := by
      intro hliteral
      apply Token.atBrace_renderAll hts
      simpa [hliteral] using hstart
    obtain ⟨after, hnext⟩ := Cursor.next_render ht position hrest
    have hne : t.render.toList ++ Token.renderAll ts ≠ [] := by
      simp [Token.toList_render_ne_nil ht]
    rw [Token.renderAll, Cursor.tokens, dif_neg hne, hnext]
    simp only [ih hts after]

/-- A text made of well-formed tokens has these tokens. -/
theorem tokenize_renderAll {ts : List Token} (h : Token.wellFormedAll ts) :
    tokenize (String.ofList (Token.renderAll ts)) = .ok ts := by
  rw [tokenize, Cursor.start, String.toList_ofList]
  exact tokens_renderAll h 0

/-- A text made of one well-formed token has this token. -/
theorem tokenize_render {t : Token} (h : t.wellFormed) : tokenize t.render = .ok [t] := by
  have hall : Token.wellFormedAll [t] := by
    simp [Token.wellFormedAll, Token.startsLiteral, h]
  have hread := tokenize_renderAll hall
  rwa [Token.renderAll, Token.renderAll, List.append_nil, String.ofList_toList] at hread

end SqlFragments.Placeholder
