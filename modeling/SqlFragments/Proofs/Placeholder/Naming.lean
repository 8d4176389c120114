import SqlFragments.Proofs.Placeholder.Rendering

/-! # The names of variables

Names are read in two ways. Between braces a text is split at its periods and each segment is looked
at; a bare name is taken from the text character by character, with a look at the character behind
each period. The two agree but for what a segment behind a period begins with: the bare reader lets
it begin with a numeral.

* `isVariableName_eq_isDotted`: between braces every segment begins as the first one does;
* `spanName_isLongestName`: a bare name is the longest text of segments that are not empty;
* `Cursor.next_eq_variable_iff` says where a variable is read, and which one;
* `Cursor.next_variable_name` says what names variables have. -/

namespace SqlFragments.Placeholder

open SqlFragments.Text

/-! ## Dotted texts -/

/-- Whether a text is a segment of a name whose first character is of the kind `first`. -/
def isSegment (first : Char → Bool) : List Char → Bool
  | [] => false
  | c :: cs => first c && cs.all isNameChar

/-- Whether a text is made of such segments, with single periods between them. -/
def isDotted (first : Char → Bool) (name : List Char) : Bool :=
  (name.splitOn '.').all (isSegment first)

/-- Whether a text is one that is read behind a dollar sign: the first segment begins as the name
of a variable does, the others are only not empty. -/
def isBareName : List Char → Bool
  | [] => false
  | c :: cs => isNameStart c && isDotted isNameChar (c :: cs)

/-- No period belongs to a segment. -/
theorem ne_period_of_isNameChar {c : Char} (h : isNameChar c) : c ≠ '.' := by
  rintro rfl
  rw [isNameChar_period] at h
  exact Bool.false_ne_true h

section Dotted

variable {first : Char → Bool} {c d : Char} {cs : List Char}

/-- The empty text has one segment, which is empty. -/
@[simp]
theorem isDotted_nil : isDotted first [] = false := rfl

/-- A text that begins with a period has an empty segment. -/
@[simp]
theorem isDotted_period : isDotted first ('.' :: cs) = false := by
  simp [isDotted, List.splitOn_cons_eq_if_modifyHead, isSegment]

/-- A character that is no period belongs to the first segment. -/
theorem isDotted_cons (hc : c ≠ '.') {segment : List Char} {segments : List (List Char)}
    (hcs : cs.splitOn '.' = segment :: segments) :
    isDotted first (c :: cs)
      = (first c && segment.all isNameChar && segments.all (isSegment first)) := by
  simp [isDotted, List.splitOn_cons_eq_if_modifyHead, hc, hcs, isSegment]

/-- A single character is a segment if it is of the kind that begins one. -/
theorem isDotted_singleton (hc : c ≠ '.') : isDotted first [c] = first c := by
  simp [isDotted_cons hc (List.splitOn_nil '.')]

/-- A segment of one character ends at the period behind it. -/
theorem isDotted_cons_period (hc : c ≠ '.') :
    isDotted first (c :: '.' :: cs) = (first c && isDotted first cs) := by
  have hsplit : ('.' :: cs).splitOn '.' = [] :: cs.splitOn '.' := by
    simp [List.splitOn_cons_eq_if_modifyHead]
  rw [isDotted_cons hc hsplit, List.all_nil, Bool.and_true, isDotted]

/-- A character inside a segment can be taken out if it belongs to segments. -/
theorem isDotted_cons_cons (hc : c ≠ '.') (hd : d ≠ '.') :
    isDotted first (c :: d :: cs) = (isNameChar d && isDotted first (c :: cs)) := by
  obtain ⟨segment, segments, hcs⟩ := List.exists_cons_of_ne_nil (List.splitOn_ne_nil '.' cs)
  have hsplit : (d :: cs).splitOn '.' = (d :: segment) :: segments := by
    simp [List.splitOn_cons_eq_if_modifyHead, hd, hcs]
  rw [isDotted_cons hc hsplit, isDotted_cons hc hcs, List.all_cons]
  cases isNameChar d <;> simp

/-- The first character begins a segment. -/
theorem head_of_isDotted (h : isDotted first (c :: cs)) : c ≠ '.' ∧ first c := by
  have hperiod : c ≠ '.' := by
    rintro rfl
    exact Bool.false_ne_true (isDotted_period.symm.trans h)
  obtain ⟨segment, segments, hcs⟩ := List.exists_cons_of_ne_nil (List.splitOn_ne_nil '.' cs)
  rw [isDotted_cons hperiod hcs, Bool.and_eq_true, Bool.and_eq_true] at h
  exact ⟨hperiod, h.1.1⟩

/-- It does not matter which character of its kind comes first. -/
theorem isDotted_cons_congr (hc : c ≠ '.') (hd : d ≠ '.') (h : first c = first d) :
    isDotted first (c :: cs) = isDotted first (d :: cs) := by
  obtain ⟨segment, segments, hcs⟩ := List.exists_cons_of_ne_nil (List.splitOn_ne_nil '.' cs)
  rw [isDotted_cons hc hcs, isDotted_cons hd hcs, h]

/-- A text of segments stays one where more characters may begin a segment. -/
theorem isDotted_mono {weaker : Char → Bool} (hweaker : ∀ c, first c → weaker c)
    {name : List Char} (h : isDotted first name) : isDotted weaker name := by
  simp only [isDotted, List.all_eq_true] at h ⊢
  intro segment hsegment
  have hfirst := h segment hsegment
  cases segment with
  | nil => exact hfirst
  | cons c cs =>
    simp only [isSegment, Bool.and_eq_true] at hfirst ⊢
    exact ⟨hweaker c hfirst.1, hfirst.2⟩

/-- Only periods stand between the segments. -/
theorem eq_or_mem_segment {sep : Char} {cs : List Char} (hc : c ∈ cs) :
    c = sep ∨ ∃ segment ∈ cs.splitOn sep, c ∈ segment := by
  induction cs with
  | nil => cases hc
  | cons d cs ih =>
    obtain ⟨segment, segments, hcs⟩ := List.exists_cons_of_ne_nil (List.splitOn_ne_nil sep cs)
    rw [hcs] at ih
    rw [List.splitOn_cons_eq_if_modifyHead, hcs]
    rcases List.mem_cons.1 hc with rfl | hc
    · by_cases hsep : c = sep
      · exact .inl hsep
      · exact .inr ⟨c :: segment, by simp [hsep], List.mem_cons_self⟩
    · refine (ih hc).imp_right ?_
      rintro ⟨other, hother, hmem⟩
      -- what follows has the character in one of its segments; the first of them may have grown
      by_cases hsep : d = sep
      · exact ⟨other, by simp [hsep, hother], hmem⟩
      · rcases List.mem_cons.1 hother with rfl | hother
        · exact ⟨d :: other, by simp [hsep], List.mem_cons_of_mem d hmem⟩
        · exact ⟨other, by simp [hsep, hother], hmem⟩

/-- All characters but the periods belong to segments. -/
theorem isNameChar_of_mem_isDotted {name : List Char} (h : isDotted isNameChar name)
    (hc : c ∈ name) : isNameChar c ∨ c = '.' := by
  refine (eq_or_mem_segment hc).symm.imp_left ?_
  rintro ⟨segment, hsegment, hmem⟩
  rw [isDotted, List.all_eq_true] at h
  have hall := h segment hsegment
  cases segment with
  | nil => cases hmem
  | cons d ds =>
    rw [isSegment, ← List.all_cons, List.all_eq_true] at hall
    exact hall c hmem

end Dotted

/-! ## Names between braces -/

/-- In a segment, a name goes on as it does behind a character with which a segment begins. -/
theorem continuesName_eq (cs : List Char) :
    continuesName true cs = isDotted isNameStart cs
      ∧ continuesName false cs = isDotted isNameStart ('_' :: cs) := by
  -- both states of the reader at once; the underscore stands for the segment that has begun
  have hunderscore : '_' ≠ '.' := by decide
  have hstart : isNameStart '_' = true := by decide +kernel
  induction cs with
  | nil => simp [continuesName, isDotted_singleton hunderscore, hstart]
  | cons c cs ih =>
    obtain ⟨hfresh, hinside⟩ := ih
    by_cases hperiod : c = '.'
    · subst hperiod
      have hnot : isNameStart '.' = false := by decide +kernel
      simp [continuesName, isDotted_cons_period hunderscore, hstart, hnot, hfresh]
    · constructor
      · rw [continuesName, if_pos rfl, hinside]
        -- at the start of a segment the reader wants a character that begins one
        cases hc : isNameStart c with
        | true => rw [Bool.true_and, isDotted_cons_congr hperiod hunderscore (hc.trans hstart.symm)]
        | false =>
          rw [Bool.false_and, eq_comm, Bool.eq_false_iff]
          intro hdotted
          exact Bool.false_ne_true (hc.symm.trans (head_of_isDotted hdotted).2)
      -- inside a segment any character that belongs to one will do
      · rw [continuesName, if_neg Bool.false_ne_true, if_neg hperiod, hinside,
          isDotted_cons_cons hunderscore hperiod]

/-- **Between braces a name is split at its periods**, and every segment begins with a letter or an
underscore. -/
theorem isVariableName_eq_isDotted (name : List Char) :
    isVariableName name = isDotted isNameStart name :=
  (continuesName_eq name).1

/-- What is a name between braces is one behind a dollar sign. -/
theorem isBareName_of_isVariableName {name : List Char} (h : isVariableName name) :
    isBareName name := by
  cases name with
  | nil => exact absurd h Bool.false_ne_true
  | cons c cs =>
    rw [isVariableName_eq_isDotted] at h
    have hdotted := isDotted_mono (fun _ => isNameChar_of_isNameStart) h
    simp [isBareName, (head_of_isDotted h).2, hdotted]

/-! ## Bare names -/

/-- A bare name that begins a text, no longer one beginning it. -/
structure IsLongestName (name text : List Char) : Prop where
  bare : isBareName name
  begins : name <+: text
  longest : ∀ other, isBareName other → other <+: text → other <+: name

/-- There is one longest name. -/
theorem IsLongestName.unique {name other text : List Char} (h : IsLongestName name text)
    (hother : IsLongestName other text) : name = other :=
  antisymm (hother.longest name h.bare h.begins) (h.longest other hother.bare hother.begins)

section Spanning

variable {c : Char}

/-- What reads on from a character reads the text behind it as one that stands alone. -/
theorem isDotted_cons_of_startsNameChar (hc : isNameChar c) {cs : List Char}
    (hcs : startsNameChar cs) : isDotted isNameChar (c :: cs) = isDotted isNameChar cs := by
  cases cs with
  | nil => exact absurd hcs Bool.false_ne_true
  | cons d cs =>
    have hd : isNameChar d := hcs
    have hperiod := ne_period_of_isNameChar hc
    have hperiod' := ne_period_of_isNameChar hd
    rw [isDotted_cons_cons hperiod hperiod', hd, Bool.true_and]
    exact isDotted_cons_congr hperiod hperiod' (hc.trans hd.symm)

/-- A text of segments, seen from each of its characters but the first one. -/
theorem isDotted_cons_iff (hc : isNameChar c) {cs : List Char} :
    isDotted isNameChar (c :: cs)
      ↔ ∀ d rest, d :: rest <:+ cs → isNameChar d ∨ d = '.' ∧ startsNameChar rest := by
  have hperiod := ne_period_of_isNameChar hc
  induction cs with
  | nil => simp [isDotted_singleton hperiod, hc]
  | cons d cs ih =>
    have hsuffix : (∀ e rest, e :: rest <:+ d :: cs → isNameChar e ∨ e = '.' ∧ startsNameChar rest)
        ↔ (isNameChar d ∨ d = '.' ∧ startsNameChar cs) ∧ isDotted isNameChar (c :: cs) := by
      -- the rests of the text are the text itself and the rests of its tail
      simp only [List.suffix_cons_iff, List.cons.injEq]
      grind
    rw [hsuffix]
    by_cases hd : d = '.'
    · subst hd
      rw [isDotted_cons_period hperiod, hc, Bool.true_and]
      -- behind a period the text stands alone
      constructor
      · intro hdotted
        have hstarts : startsNameChar cs := by
          cases cs with
          | nil => simp at hdotted
          | cons e cs => exact (head_of_isDotted hdotted).2
        exact ⟨.inr ⟨rfl, hstarts⟩, by rwa [isDotted_cons_of_startsNameChar hc hstarts]⟩
      · rintro ⟨hchar | ⟨-, hstarts⟩, hdotted⟩
        · exact absurd rfl (ne_period_of_isNameChar hchar)
        · rwa [isDotted_cons_of_startsNameChar hc hstarts] at hdotted
    · simp [isDotted_cons_cons hperiod hd, hd]

/-- A bare name, seen from each of its characters: behind the first one it goes on, or a period
stands before a character with which it goes on. -/
theorem isBareName_cons_iff {cs : List Char} : isBareName (c :: cs) ↔
    isNameStart c ∧ ∀ d rest, d :: rest <:+ cs → isNameChar d ∨ d = '.' ∧ startsNameChar rest := by
  rw [isBareName, Bool.and_eq_true, and_congr_right_iff]
  intro hstart
  exact isDotted_cons_iff (isNameChar_of_isNameStart hstart)

/-- A character of a name is read. -/
theorem spanName_cons (hc : isNameChar c) (cs : List Char) :
    spanName (c :: cs) = (c :: (spanName cs).1, (spanName cs).2) := by
  simp [spanName, hc]

/-- A period is read if the name goes on behind it. -/
theorem spanName_period_cons (hc : isNameChar c) (cs : List Char) :
    spanName ('.' :: c :: cs) = ('.' :: (spanName (c :: cs)).1, (spanName (c :: cs)).2) := by
  rw [spanName]
  simp [startsNameChar, hc]

/-- Reading a name stops before any other character. -/
theorem spanName_eq_nil {cs : List Char} (hc : isNameChar c = false)
    (hperiod : c = '.' → startsNameChar cs = false) : spanName (c :: cs) = ([], c :: cs) := by
  rw [spanName, if_neg]
  by_cases h : c = '.'
  · simp [hc, hperiod h]
  · simp [hc, h]

/-- **What is read is a bare name.** A character of the name stands before the text, which may go
on with a period. -/
theorem isDotted_spanName (hc : isNameChar c) (cs : List Char) :
    isDotted isNameChar (c :: (spanName cs).1) := by
  -- the character in front keeps a period from coming first
  induction cs generalizing c with
  | nil => rw [spanName, isDotted_singleton (ne_period_of_isNameChar hc), hc]
  | cons d cs ih =>
    have hperiod := ne_period_of_isNameChar hc
    by_cases hd : isNameChar d
    · rw [spanName_cons hd, isDotted_cons_cons hperiod (ne_period_of_isNameChar hd), hd, ih hc]
      rfl
    · rw [Bool.not_eq_true] at hd
      cases cs with
      | nil =>
        rw [spanName_eq_nil hd fun _ => rfl, isDotted_singleton hperiod, hc]
      | cons e cs =>
        by_cases hjoins : d = '.' ∧ isNameChar e
        · -- the segment behind the period is read as one that stands alone
          obtain ⟨rfl, he⟩ := hjoins
          have hstarts : startsNameChar (spanName (e :: cs)).1 := by
            rwa [spanName_cons he]
          have hbehind := ih hc
          rw [isDotted_cons_of_startsNameChar hc hstarts] at hbehind
          rw [spanName_period_cons he, isDotted_cons_period hperiod, hc, hbehind]
          rfl
        · have hstops : d = '.' → startsNameChar (e :: cs) = false := by
            rintro rfl
            simpa [startsNameChar] using hjoins
          rw [spanName_eq_nil hd hstops, isDotted_singleton hperiod, hc]

/-- **Nothing longer could be read.** -/
theorem prefix_spanName (hc : isNameChar c) {name cs : List Char}
    (hname : isDotted isNameChar (c :: name)) (h : name <+: cs) : name <+: (spanName cs).1 := by
  -- on the text, the name being read from behind a character of its own segment
  induction cs generalizing c name with
  | nil => rwa [spanName]
  | cons d cs ih =>
    have hperiod := ne_period_of_isNameChar hc
    cases name with
    | nil => exact List.nil_prefix
    | cons d' name =>
      obtain ⟨rfl, hbegins⟩ := List.cons_prefix_cons.1 h
      by_cases hd : d' = '.'
      · -- the name goes on behind the period, so the text does
        subst hd
        rw [isDotted_cons_period hperiod, Bool.and_eq_true] at hname
        cases name with
        | nil => simp at hname
        | cons e name =>
          have he : isNameChar e := (head_of_isDotted hname.2).2
          have hstarts : startsNameChar (e :: name) := he
          have hbehind := hname.2
          rw [← isDotted_cons_of_startsNameChar hc hstarts] at hbehind
          obtain ⟨more, rfl⟩ := hbegins
          rw [List.cons_append, spanName_period_cons he]
          exact List.cons_prefix_cons.2 ⟨rfl, ih hc hbehind (List.prefix_append _ _)⟩
      · rw [isDotted_cons_cons hperiod hd, Bool.and_eq_true] at hname
        rw [spanName_cons hname.1]
        exact List.cons_prefix_cons.2 ⟨rfl, ih hc hname.2 hbegins⟩

/-- The bare name at the head of a text is the longest one. -/
theorem spanName_isLongestName (hc : isNameStart c) (cs : List Char) :
    IsLongestName (spanName (c :: cs)).1 (c :: cs) := by
  have hchar := isNameChar_of_isNameStart hc
  refine ⟨?_, ⟨_, spanName_append (c :: cs)⟩, ?_⟩
  · rw [spanName_cons hchar, isBareName, hc, isDotted_spanName hchar cs]
    rfl
  · intro other hother hbegins
    cases other with
    | nil => exact absurd hother Bool.false_ne_true
    | cons d other =>
      obtain ⟨rfl, hbehind⟩ := List.cons_prefix_cons.1 hbegins
      rw [isBareName, Bool.and_eq_true] at hother
      rw [spanName_cons hchar]
      exact List.cons_prefix_cons.2 ⟨rfl, prefix_spanName hchar hother.2 hbehind⟩

/-- A bare name is a text of segments that are not empty. -/
theorem isDotted_of_isBareName {name : List Char} (h : isBareName name) :
    isDotted isNameChar name := by
  cases name with
  | nil => exact absurd h Bool.false_ne_true
  | cons c cs =>
    rw [isBareName, Bool.and_eq_true] at h
    exact h.2

/-- A bare name begins with a letter or an underscore. -/
theorem exists_of_isBareName {name : List Char} (h : isBareName name) :
    ∃ c cs, name = c :: cs ∧ isNameStart c := by
  cases name with
  | nil => exact absurd h Bool.false_ne_true
  | cons c cs =>
    rw [isBareName, Bool.and_eq_true] at h
    exact ⟨c, cs, rfl, h.1⟩

/-- A name that is written so that it does not go on is read back. -/
theorem spanName_of_isLongestName {name rest : List Char}
    (h : IsLongestName name (name ++ rest)) : spanName (name ++ rest) = (name, rest) := by
  obtain ⟨c, cs, rfl, hc⟩ := exists_of_isBareName h.bare
  have hname : (spanName (c :: cs ++ rest)).1 = c :: cs :=
    (spanName_isLongestName hc (cs ++ rest)).unique h
  have happend := spanName_append (c :: cs ++ rest)
  rw [hname] at happend
  exact Prod.ext hname (List.append_cancel_left happend)

end Spanning

/-! ## Reading a variable -/

/-- How a variable stands at the head of a text, and what follows it there. -/
inductive Spells (name : List Char) : List Char → List Char → Prop where
  /-- Between braces, with blanks around it. -/
  | braced {body rest : List Char} (hbrace : '}' ∉ body) (htrim : trim body = name)
      (hname : isVariableName name) : Spells name ('$' :: '{' :: (body ++ '}' :: rest)) rest
  /-- Right behind a dollar sign, as far as it goes. -/
  | bare {rest : List Char} (hname : IsLongestName name (name ++ rest)) :
      Spells name ('$' :: (name ++ rest)) rest

/-- However a variable is spelled, its name is a bare name. -/
theorem Spells.isBareName {name text rest : List Char} (h : Spells name text rest) :
    isBareName name := by
  cases h with
  | braced _ _ hname => exact isBareName_of_isVariableName hname
  | bare hname => exact hname.bare

/-- No name that stands behind a dollar sign is longer than the one that is read there. -/
theorem Spells.longest {name text rest : List Char} (h : Spells name text rest) (other : List Char)
    (hother : isVariableName other) (hbegins : '$' :: other <+: text) : other <+: name := by
  have hbare := isBareName_of_isVariableName hother
  cases h with
  | braced _ _ hname =>
    -- no name begins with the brace
    obtain ⟨c, cs, rfl, hc⟩ := exists_of_isBareName hbare
    obtain ⟨rfl, -⟩ := List.cons_prefix_cons.1 (List.cons_prefix_cons.1 hbegins).2
    exact absurd hc (by decide +kernel)
  | bare hname => exact hname.longest other hbare (List.cons_prefix_cons.1 hbegins).2

/-- Behind a brace the name of a variable is read up to the closing brace. -/
theorem next_braced (position : Nat) (cs : List Char) :
    Cursor.next ⟨position, '$' :: '{' :: cs⟩ = readBraced position cs (variableToken position) :=
  rfl

/-- Behind a dollar sign that stands before a name, the name is read as far as it goes. -/
theorem next_bare (position : Nat) {c : Char} (hc : isNameStart c) (cs : List Char) :
    Cursor.next ⟨position, '$' :: c :: cs⟩
      = (.ok (.variable (String.ofList (spanName (c :: cs)).1)),
          ⟨position + 1 + (spanName (c :: cs)).1.length, (spanName (c :: cs)).2⟩) := by
  have hbrace : c ≠ '{' := by
    rintro rfl
    have hnot : isNameStart '{' = false := by decide +kernel
    exact Bool.false_ne_true (hnot.symm.trans hc)
  rw [Cursor.next]
  split
  all_goals simp_all

/-- What stands between braces, if it could be read. -/
theorem exists_of_readBraced_eq_ok {position : Nat} {cs : List Char}
    {accept : List Char → Except TokenError Token} {t : Token}
    (h : (readBraced position cs accept).1 = .ok t) :
    ∃ body rest, cs = body ++ '}' :: rest ∧ '}' ∉ body ∧ trim body ≠ [] ∧
      accept (trim body) = .ok t := by
  by_cases hmem : '}' ∈ cs
  -- the body ends at the first closing brace
  · obtain ⟨body, rest, rfl, hbrace⟩ := List.eq_append_cons_of_mem hmem
    rw [readBraced_brace position hbrace] at h
    split at h
    · cases h
    · rename_i hne
      exact ⟨body, rest, rfl, hbrace, hne, h⟩
  · -- without a closing brace there is no answer
    simp [readBraced, spanBody_of_notMem hmem] at h

/-- The body of a placeholder names a variable just if it is a name. -/
theorem variableToken_eq_ok_iff {position : Nat} {cs : List Char} {name : String} :
    variableToken position cs = .ok (.variable name)
      ↔ isVariableName name.toList ∧ cs = name.toList := by
  rw [variableToken]
  constructor
  · intro h
    split at h
    · next hname =>
      cases h
      rw [String.toList_ofList]
      exact ⟨hname, rfl⟩
    · cases h
  · rintro ⟨hname, rfl⟩
    rw [if_pos hname, String.ofList_toList]

/-- A variable is read where a dollar sign stands, before a brace or before a name. -/
theorem Cursor.exists_of_next_eq_variable {position : Nat} {text : List Char} {name : String}
    (h : (Cursor.next ⟨position, text⟩).1 = .ok (.variable name)) :
    (∃ cs, text = '$' :: '{' :: cs) ∨ ∃ c cs, isNameStart c ∧ text = '$' :: c :: cs := by
  simp only [Cursor.next] at h
  split at h
  · simp at h
  · exact .inl ⟨_, rfl⟩
  -- the same reader is used for parameters, which are no variables
  · obtain ⟨body, rest, -, -, -, hparameter⟩ := exists_of_readBraced_eq_ok h
    simp at hparameter
  · split at h
    · next hc => exact .inr ⟨_, _, hc, rfl⟩
    · simp [readLiteral] at h
  · simp [readLiteral] at h

/-- **Where a variable is read**, and which one. -/
theorem Cursor.next_eq_variable_iff {cursor : Cursor} {name : String} {rest : List Char} :
    cursor.next.1 = .ok (.variable name) ∧ cursor.next.2.rest = rest
      ↔ Spells name.toList cursor.rest rest := by
  obtain ⟨position, text⟩ := cursor
  constructor
  · rintro ⟨htoken, rfl⟩
    obtain ⟨cs, rfl⟩ | ⟨c, cs, hc, rfl⟩ := exists_of_next_eq_variable htoken
    · rw [next_braced] at htoken ⊢
      obtain ⟨body, rest, rfl, hbrace, -, hname⟩ := exists_of_readBraced_eq_ok htoken
      rw [variableToken_eq_ok_iff] at hname
      rw [readBraced_brace position hbrace]
      exact .braced hbrace hname.2 hname.1
    · rw [next_bare position hc] at htoken ⊢
      simp only [Except.ok.injEq, Token.variable.injEq] at htoken
      have happend := spanName_append (c :: cs)
      have hlongest : IsLongestName (spanName (c :: cs)).1
          ((spanName (c :: cs)).1 ++ (spanName (c :: cs)).2) := by
        rw [happend]
        exact spanName_isLongestName hc cs
      have hname : name.toList = (spanName (c :: cs)).1 := by
        rw [← htoken, String.toList_ofList]
      have hspells := Spells.bare hlongest
      rwa [happend, ← hname] at hspells
  · intro h
    cases h with
    | @braced body rest hbrace htrim hname =>
      have hne : trim body ≠ [] := by
        rw [htrim]
        intro hnil
        rw [hnil] at hname
        exact Bool.false_ne_true hname
      have htoken : variableToken position (trim body) = .ok (.variable name) :=
        variableToken_eq_ok_iff.2 ⟨hname, htrim⟩
      rw [next_braced, readBraced_brace position hbrace, if_neg hne, htoken]
      exact ⟨rfl, rfl⟩
    | bare hname =>
      -- as the longest name there, it is what the reader stops behind
      have hspan := spanName_of_isLongestName hname
      obtain ⟨c, cs, hcs, hc⟩ := exists_of_isBareName hname.bare
      rw [hcs, List.cons_append] at hspan
      rw [hcs, List.cons_append, next_bare position hc, hspan, ← hcs, String.ofList_toList]
      exact ⟨rfl, rfl⟩

/-! ## Which names there are -/

/-- What belongs to a segment may begin one, unless it is a numeral. -/
theorem isNameStart_iff_of_isNameChar {c : Char} (h : isNameChar c) :
    isNameStart c ↔ (isNumeral c → isLetter c) := by
  have hunderscore : isNumeral '_' = false := by decide +kernel
  simp only [isNameChar, isAlphanumeric, Bool.or_eq_true, beq_iff_eq] at h
  simp only [isNameStart, Bool.or_eq_true, beq_iff_eq]
  constructor
  · rintro (hletter | rfl) hnumeral
    · exact hletter
    · rw [hunderscore] at hnumeral
      exact absurd hnumeral Bool.false_ne_true
  · intro himp
    rcases h with (hletter | hnumeral) | rfl
    · exact .inl hletter
    · exact .inl (himp hnumeral)
    · exact .inr rfl

/-- The two readers agree about a bare name just if none of its segments begins with a numeral. -/
theorem isVariableName_iff_of_isBareName {name : List Char} (h : isBareName name) :
    isVariableName name
      ↔ ∀ segment ∈ name.splitOn '.', ∀ c ∈ segment.head?, isNumeral c → isLetter c := by
  have hdotted := isDotted_of_isBareName h
  simp only [isVariableName_eq_isDotted, isDotted, List.all_eq_true] at hdotted ⊢
  refine forall₂_congr fun segment hsegment => ?_
  have hchars := hdotted segment hsegment
  cases segment with
  | nil => exact absurd hchars Bool.false_ne_true
  | cons c cs =>
    simp only [isSegment, Bool.and_eq_true] at hchars ⊢
    have hstart := isNameStart_iff_of_isNameChar hchars.1
    simp [hchars.2, hstart]

/-- A bare name that is no name of a variable is refused between braces. -/
theorem tokenize_render_of_isBareName {name : String} (h : isBareName name.toList)
    (hname : isVariableName name.toList = false) :
    tokenize (Token.variable name).render = .error (.invalidName name 0) := by
  have hchars := fun c (hc : c ∈ name.toList) => isNameChar_of_mem_isDotted
    (isDotted_of_isBareName h) hc
  have htrim := trim_eq_self fun _ => isBlank_of_mem_name hchars
  have hne : name.toList ≠ [] := by
    obtain ⟨c, cs, hcs, -⟩ := exists_of_isBareName h
    simp [hcs]
  have hread := readBraced_append 0 hne htrim (brace_notMem_name hchars) [] (variableToken 0)
  have hshape : (Token.variable name).render.toList = '$' :: '{' :: (name.toList ++ ['}']) := by
    simp [Token.render]
  rw [tokenize, Cursor.start, hshape, Cursor.tokens, dif_neg (List.cons_ne_nil _ _), next_braced,
    hread, variableToken, hname]
  simp

/-- **The names of variables.** Between braces the name of a variable is one; a bare name is the
longest that stands there, only that its segments behind a period may begin with a numeral. Written
between braces the name is read back, if none does, and is refused otherwise. -/
theorem Cursor.next_variable_name {cursor : Cursor} {name : String}
    (h : cursor.next.1 = .ok (.variable name)) :
    Spells name.toList cursor.rest cursor.next.2.rest
      ∧ isBareName name.toList
      ∧ (∀ other, isVariableName other → '$' :: other <+: cursor.rest → other <+: name.toList)
      ∧ (isVariableName name.toList
          ↔ ∀ segment ∈ name.toList.splitOn '.', ∀ c ∈ segment.head?, isNumeral c → isLetter c)
      ∧ tokenize (Token.variable name).render
          = if isVariableName name.toList then .ok [.variable name]
            else .error (.invalidName name 0) := by
  have hspells := next_eq_variable_iff.1 ⟨h, rfl⟩
  have hbare := hspells.isBareName
  refine ⟨hspells, hbare, hspells.longest, isVariableName_iff_of_isBareName hbare, ?_⟩
  split
  · next hname => exact tokenize_render hname
  · next hname => exact tokenize_render_of_isBareName hbare (Bool.eq_false_iff.2 hname)

/-- A dotted name behind a dollar sign, which is read back between braces. -/
theorem Cursor.next_variable_name_dotted :
    (Cursor.start "$a.b c").next.1 = .ok (.variable "a.b")
      ∧ isVariableName "a.b".toList
      ∧ tokenize "$\x7ba.b\x7d" = .ok [.variable "a.b"] := by
  have hnext : (Cursor.start "$a.b c").next.1 = .ok (.variable "a.b") := by decide +kernel
  have hname : isVariableName "a.b".toList := by decide +kernel
  obtain ⟨-, -, -, -, hread⟩ := next_variable_name hnext
  rw [if_pos hname] at hread
  exact ⟨hnext, hname, hread⟩

/-- The numeral behind the period is taken for a part of the name, though `a` is the longest name
that stands there. -/
theorem Cursor.next_numeral_behind_period :
    (Cursor.start "$a.1").next.1 = .ok (.variable "a.1")
      ∧ isVariableName "a.1".toList = false
      ∧ tokenize "$\x7ba.1\x7d" = .error (.invalidName "a.1" 0) := by
  decide +kernel

end SqlFragments.Placeholder
