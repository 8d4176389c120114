import SqlFragments.Proofs.Placeholder.Reading

/-! # The spans of a text

A text is read span by span: a stretch of literal text, a bare name behind its dollar sign, or what
stands between braces with all that is around it. A span is known by how it is spelled, and the text
behind it is looked at only as far as to see that the span does not go on.

* `Span.Stands`: whether a span ends before the text that follows it;
* `Cursor.next_span`: one read takes one span; `exists_span`: there is one, unless a brace is left open;
* `Fault`: what can be wrong where a placeholder in braces begins;
* `Scans`: good spans one after the other. `exists_scans`: every text has such spans, up to its end or up
  to a fault; `Scans.unique`: in one way only; `Scans.before`: whatever else stands behind them;
* `tokenize_eq_ok_iff`, `tokenize_eq_error_iff`: which tokens are read, and which error is met. -/

namespace SqlFragments.Placeholder

open SqlFragments.Text

/-! ## Spans -/

/-- The characters that begin a placeholder in braces. -/
inductive Sigil where
  /-- For variables. -/
  | dollar
  /-- For parameters. -/
  | hash
  deriving DecidableEq, Repr

/-- How a sigil is written. -/
def Sigil.char : Sigil → Char
  | .dollar => '$'
  | .hash => '#'

/-- What the trimmed text between braces is taken for. -/
def Sigil.accept (position : Nat) : Sigil → List Char → Except TokenError Token
  | .dollar, name => variableToken position name
  | .hash, expr => .ok (.parameter (String.ofList expr))

/-- A stretch of text that is read at once. -/
inductive Span where
  /-- Text that stands for itself. -/
  | literal (text : List Char)
  /-- A name right behind a dollar sign. -/
  | bare (name : List Char)
  /-- What stands between braces behind a sigil. -/
  | braced (sigil : Sigil) (body : List Char)
  deriving DecidableEq, Repr

namespace Span

/-- The characters of a span. -/
def spelling : Span → List Char
  | .literal text => text
  | .bare name => '$' :: name
  | .braced sigil body => sigil.char :: '{' :: (body ++ ['}'])

/-- In a text the brace that closes a placeholder stands between its body and what follows. -/
theorem spelling_braced_append (sigil : Sigil) (body rest : List Char) :
    (braced sigil body).spelling ++ rest = sigil.char :: '{' :: (body ++ '}' :: rest) := by
  simp [spelling]

/-- Whether a span is literal text. -/
def isLiteral : Span → Bool
  | .literal _ => true
  | _ => false

/-- What a span is read as, if it is good. -/
def token : Span → Token
  | .literal text => .literal (String.ofList text)
  | .bare name => .variable (String.ofList name)
  | .braced .dollar body => .variable (String.ofList (trim body))
  | .braced .hash body => .parameter (String.ofList (trim body))

/-- Whether a span can be read: between braces there is a name, or some text for a parameter. -/
def isGood : Span → Bool
  | .literal _ => true
  | .bare _ => true
  | .braced .dollar body => isVariableName (trim body)
  | .braced .hash body => trim body ≠ []

/-- What a span is read as where it begins at `position`. -/
def read (position : Nat) : Span → Except TokenError Token
  | .literal text => .ok (.literal (String.ofList text))
  | .bare name => .ok (.variable (String.ofList name))
  | .braced sigil body =>
    if trim body = [] then .error (.emptyPlaceholder position) else sigil.accept position (trim body)

/-- A good span is read as its token, wherever it begins. -/
theorem read_eq_token {span : Span} (h : span.isGood) (position : Nat) :
    span.read position = .ok span.token := by
  cases span with
  | literal text => rfl
  | bare name => rfl
  | braced sigil body =>
    have hne : trim body ≠ [] := by
      intro hnil
      cases sigil <;> simp [isGood, hnil, isVariableName, continuesName] at h
    rw [read, if_neg hne]
    cases sigil with
    | hash => rfl
    | dollar =>
      have hname : isVariableName (trim body) := h
      rw [Sigil.accept, variableToken, if_pos hname]
      rfl

end Span

/-- The characters of spans that follow each other. -/
def spell (spans : List Span) : List Char := spans.flatMap Span.spelling

@[simp]
theorem spell_nil : spell [] = [] := rfl

@[simp]
theorem spell_cons (span : Span) (spans : List Span) :
    spell (span :: spans) = span.spelling ++ spell spans := rfl

/-! ## Where a bare name ends -/

/-- Whether a bare name goes on with this text: a period belongs to it only before a character of a
name. -/
def goesOn : List Char → Bool
  | [] => false
  | c :: cs => isNameChar c || (c == '.' && startsNameChar cs)

/-- Where a name does not go on, nothing is read. -/
theorem spanName_of_not_goesOn {cs : List Char} (h : goesOn cs = false) :
    spanName cs = ([], cs) := by
  cases cs with
  | nil => rfl
  | cons c cs =>
    have hstop : ¬ (isNameChar c || (c == '.' && startsNameChar cs)) = true := by
      rw [Bool.not_eq_true]
      exact h
    rw [spanName, if_neg hstop]

/-- A name does not go on where its reading stopped. -/
theorem goesOn_spanName (cs : List Char) : goesOn (spanName cs).2 = false := by
  induction cs with
  | nil => rfl
  | cons c cs ih =>
    rw [spanName]
    split
    · exact ih
    · next hstop => exact Bool.eq_false_iff.2 hstop

/-- A name is read up to its end. A character of the name stands before the text, which may go on with
a period. -/
theorem spanName_append_of_isDotted {c : Char} (hc : isNameChar c) {name rest : List Char}
    (hname : isDotted isNameChar (c :: name)) (hrest : goesOn rest = false) :
    spanName (name ++ rest) = (name, rest) := by
  -- the induction is on the name, behind a character of the segment that is being read
  induction name generalizing c with
  | nil => exact spanName_of_not_goesOn hrest
  | cons d name ih =>
    have hperiod := ne_period_of_isNameChar hc
    by_cases hd : d = '.'
    -- what stands behind the period is a text of segments too
    · subst hd
      rw [isDotted_cons_period hperiod, Bool.and_eq_true] at hname
      cases name with
      | nil => simp at hname
      | cons e name =>
        have he : isNameChar e := (head_of_isDotted hname.2).2
        have hstarts : startsNameChar (e :: name) := he
        have hbehind := hname.2
        rw [← isDotted_cons_of_startsNameChar hc hstarts] at hbehind
        have hread := ih hc hbehind
        rw [List.cons_append] at hread
        rw [List.cons_append, List.cons_append, spanName_period_cons he, hread]
    · rw [isDotted_cons_cons hperiod hd, Bool.and_eq_true] at hname
      rw [List.cons_append, spanName_cons hname.1, ih hc hname.2]

/-- A bare name that does not go on is read as it is. -/
theorem spanName_append_of_isBareName {name rest : List Char} (hname : isBareName name)
    (hrest : goesOn rest = false) : spanName (name ++ rest) = (name, rest) := by
  obtain ⟨c, cs, rfl, hc⟩ := exists_of_isBareName hname
  have hchar := isNameChar_of_isNameStart hc
  have hread := spanName_append_of_isDotted hchar (isDotted_of_isBareName hname) hrest
  rw [List.cons_append, spanName_cons hchar, hread]

/-- A text that holds something decides by itself whether a name goes on with it. -/
theorem goesOn_append {cs rest : List Char} (hne : cs ≠ []) (hrest : endsLiteral rest) :
    goesOn (cs ++ rest) = goesOn cs := by
  obtain ⟨c, cs, rfl⟩ := List.exists_cons_of_ne_nil hne
  cases cs with
  | cons d cs => rfl
  | nil =>
    -- a sigil is no character of a name
    have hstarts : startsNameChar rest = false := by
      cases rest with
      | nil => rfl
      | cons d rest =>
        obtain ⟨_, _, heq, -, hchar⟩ := exists_sigil_of_startsPlaceholder hrest
        obtain ⟨rfl, rfl⟩ := List.cons.inj heq
        exact hchar
    show (isNameChar c || (c == '.' && startsNameChar rest)) = goesOn [c]
    rw [hstarts]
    rfl

/-! ## One read -/

/-- Whether a span ends where `rest` follows it, so that it is read as it is spelled. -/
def Span.Stands (rest : List Char) : Span → Prop
  | .literal text => isLiteralText text ∧ endsLiteral rest
  | .bare name => isBareName name ∧ goesOn rest = false
  | .braced _ body => '}' ∉ body

instance (rest : List Char) (span : Span) : Decidable (span.Stands rest) :=
  match span with
  | .literal text => inferInstanceAs (Decidable (isLiteralText text ∧ endsLiteral rest))
  | .bare name => inferInstanceAs (Decidable (isBareName name ∧ goesOn rest = false))
  | .braced _ body => inferInstanceAs (Decidable ('}' ∉ body))

/-- Behind either sigil a placeholder in braces is read up to its closing brace. -/
theorem next_brace (sigil : Sigil) (position : Nat) (cs : List Char) :
    Cursor.next ⟨position, sigil.char :: '{' :: cs⟩
      = readBraced position cs (sigil.accept position) := by
  cases sigil <;> rfl

/-- **One read takes one span**, whether it is a good one or not. -/
theorem Cursor.next_span {span : Span} {rest : List Char} (h : span.Stands rest) (position : Nat) :
    Cursor.next ⟨position, span.spelling ++ rest⟩
      = (span.read position, ⟨position + span.spelling.length, rest⟩) := by
  cases span with
  | literal text => exact next_literal h.1 h.2 position
  | bare name =>
    have hspan := spanName_append_of_isBareName h.1 h.2
    obtain ⟨c, cs, rfl, hc⟩ := exists_of_isBareName h.1
    rw [Span.spelling, List.cons_append, List.cons_append, next_bare position hc,
      ← List.cons_append, hspan, Span.read]
    simp only [List.length_cons]
    congr 2
    omega
  | braced sigil body =>
    rw [Span.spelling_braced_append, next_brace, readBraced_brace position h, Span.read]
    simp only [Span.spelling, List.length_cons, List.length_append, List.length_nil]
    congr 2
    omega

/-- What can be wrong at a place where a placeholder in braces begins, and the error that says so. -/
inductive Fault (position : Nat) : List Char → TokenError → Prop where
  /-- No closing brace follows. -/
  | unterminated {sigil : Sigil} {body : List Char} (hopen : '}' ∉ body) :
    Fault position (sigil.char :: '{' :: body) (.unterminated position)
  /-- Only blanks stand before the first closing brace. -/
  | emptyPlaceholder {sigil : Sigil} {body rest : List Char} (hclosed : '}' ∉ body)
      (hblank : ∀ c ∈ body, isBlank c) :
    Fault position (sigil.char :: '{' :: (body ++ '}' :: rest)) (.emptyPlaceholder position)
  /-- What stands before the first closing brace, if the sigil is that of variables, is no name. -/
  | invalidName {body rest : List Char} (hclosed : '}' ∉ body) (hne : trim body ≠ [])
      (hname : isVariableName (trim body) = false) :
    Fault position ('$' :: '{' :: (body ++ '}' :: rest))
      (.invalidName (String.ofList (trim body)) position)

/-- A placeholder in braces begins there. -/
theorem Fault.exists_sigil {position : Nat} {text : List Char} {e : TokenError}
    (h : Fault position text e) : ∃ sigil cs, text = Sigil.char sigil :: '{' :: cs := by
  cases h with
  | unterminated => exact ⟨_, _, rfl⟩
  | emptyPlaceholder => exact ⟨_, _, rfl⟩
  | invalidName => exact ⟨.dollar, _, rfl⟩

/-- A fault is met by the read that begins there. -/
theorem Fault.next {position : Nat} {text : List Char} {e : TokenError}
    (h : Fault position text e) : (Cursor.next ⟨position, text⟩).1 = .error e := by
  cases h with
  | unterminated hopen => rw [next_brace, readBraced, spanBody_of_notMem hopen]
  | emptyPlaceholder hclosed hblank =>
    rw [next_brace, readBraced_brace position hclosed, if_pos (trim_eq_nil_iff.2 hblank)]
  | invalidName hclosed hne hname =>
    rw [next_braced, readBraced_brace position hclosed, if_neg hne, variableToken, hname]
    rfl

/-- A span between braces is good or a fault. -/
theorem fault_of_not_isGood {span : Span} {rest : List Char} (hstands : span.Stands rest)
    (hbad : span.isGood = false) (position : Nat) :
    ∃ e, Fault position (span.spelling ++ rest) e := by
  cases span with
  | literal => cases hbad
  | bare => cases hbad
  | braced sigil body =>
    rw [Span.spelling_braced_append]
    by_cases hblank : trim body = []
    · exact ⟨_, .emptyPlaceholder hstands (trim_eq_nil_iff.1 hblank)⟩
    · cases sigil with
      | dollar => exact ⟨_, .invalidName hstands hblank hbad⟩
      | hash => simp [Span.isGood, hblank] at hbad

/-- **A span stands at the head of every text**, unless a brace is left open there. -/
theorem exists_span {text : List Char} (hne : text ≠ []) :
    (∃ span rest, text = Span.spelling span ++ rest ∧ span.Stands rest) ∨
      ∃ sigil body, text = Sigil.char sigil :: '{' :: body ∧ '}' ∉ body := by
  -- a sigil with its brace opens a span just if a closing brace follows
  have hbrace : ∀ sigil cs, text = Sigil.char sigil :: '{' :: cs →
      (∃ span rest, text = Span.spelling span ++ rest ∧ span.Stands rest) ∨
        ∃ sigil body, text = Sigil.char sigil :: '{' :: body ∧ '}' ∉ body := by
    rintro sigil cs rfl
    by_cases hmem : '}' ∈ cs
    · obtain ⟨body, rest, rfl, hclosed⟩ := List.eq_append_cons_of_mem hmem
      exact .inl ⟨.braced sigil body, rest, by simp [Span.spelling], hclosed⟩
    · exact .inr ⟨sigil, cs, rfl, hmem⟩
  by_cases hstart : startsPlaceholder text
  · rcases startsPlaceholder_cases hstart with ⟨cs, heq⟩ | ⟨cs, heq⟩ | ⟨c, cs, hc, rfl⟩
    · exact hbrace .dollar cs heq
    · exact hbrace .hash cs heq
    -- the bare name that is read there does not go on
    · refine .inl ⟨.bare (spanName (c :: cs)).1, (spanName (c :: cs)).2, ?_, ?_, goesOn_spanName _⟩
      · rw [Span.spelling, List.cons_append, spanName_append]
      · exact (spanName_isLongestName hc cs).bare
  · -- up to the next placeholder the text is literal
    obtain ⟨hholds, hbehind⟩ := spanLiteral_normal text
    have hspan : (spanLiteral text).1 ≠ [] := by
      obtain ⟨c, cs, rfl⟩ := List.exists_cons_of_ne_nil hne
      simp [spanLiteral, hstart]
    refine .inl ⟨.literal (spanLiteral text).1, (spanLiteral text).2, ?_, ?_, ?_⟩
    · exact (spanLiteral_append text).symm
    · simp [isLiteralText, hspan, hholds]
    · cases hrest : (spanLiteral text).2 with
      | nil => rfl
      | cons c cs =>
        rw [← hrest]
        have hstarts := hbehind (by simp [hrest])
        simp [endsLiteral, hstarts]

/-! ## Where spans meet -/

/-- No span is spelled with no character. -/
theorem Span.spelling_ne_nil {span : Span} {rest : List Char} (h : span.Stands rest) :
    span.spelling ≠ [] := by
  cases span with
  | literal text =>
    simp only [Stands, isLiteralText, Bool.and_eq_true, decide_eq_true_eq] at h
    exact h.1.1
  | bare name => exact List.cons_ne_nil _ _
  | braced sigil body => exact List.cons_ne_nil _ _

/-- A literal stretch ends before every span but another one of its kind. -/
theorem Span.endsLiteral_spelling {span : Span} {rest : List Char} (h : span.Stands rest) :
    endsLiteral (span.spelling ++ rest) = !span.isLiteral := by
  cases span with
  | literal text =>
    have htext := h.1
    simp only [isLiteralText, Bool.and_eq_true, decide_eq_true_eq, Bool.not_eq_true'] at htext
    obtain ⟨c, cs, rfl⟩ := List.exists_cons_of_ne_nil htext.1
    simp only [holdsPlaceholder, Bool.or_eq_false_iff] at htext
    exact startsPlaceholder_append htext.2.1 h.2
  | bare name =>
    obtain ⟨c, cs, rfl, hc⟩ := exists_of_isBareName h.1
    simp [endsLiteral, spelling, isLiteral, startsPlaceholder_cons_cons, hc]
  | braced sigil body => cases sigil <;> rfl

/-- A bare name goes on with nothing but literal text. -/
theorem Span.goesOn_spelling {span : Span} {rest : List Char} (h : span.Stands rest) :
    goesOn (span.spelling ++ rest) = (span.isLiteral && goesOn span.spelling) := by
  cases span with
  | literal text => exact goesOn_append (spelling_ne_nil h) h.2
  | bare name =>
    have hdollar : isNameChar '$' = false := by decide +kernel
    simp [goesOn, spelling, isLiteral, hdollar]
  | braced sigil body =>
    have hsigil : isNameChar sigil.char = false ∧ sigil.char ≠ '.' := by
      cases sigil <;> decide +kernel
    simp [goesOn, spelling, isLiteral, hsigil]

/-- Whether a span ends before another one does not depend on what follows that one. -/
theorem Span.Stands.beside {span next : Span} {rest rest' : List Char}
    (h : span.Stands (next.spelling ++ rest)) (hnext : next.Stands rest)
    (hnext' : next.Stands rest') : span.Stands (next.spelling ++ rest') := by
  cases span with
  | literal text => exact ⟨h.1, by rw [endsLiteral_spelling hnext', ← endsLiteral_spelling hnext, h.2]⟩
  | bare name => exact ⟨h.1, by rw [goesOn_spelling hnext', ← goesOn_spelling hnext, h.2]⟩
  | braced sigil body => exact h

/-- Before a sigil with its brace, and before the end of the text, every span ends that ends
anywhere. -/
theorem Span.Stands.of_atBrace {span : Span} {rest rest' : List Char} (h : span.Stands rest)
    (hrest' : atBrace rest') : span.Stands rest' := by
  cases span with
  | literal text => exact ⟨h.1, endsLiteral_of_atBrace hrest'⟩
  | bare name =>
    refine ⟨h.1, ?_⟩
    cases rest' with
    | nil => rfl
    | cons c cs =>
      obtain ⟨_, _, heq, hsigil, hchar⟩ :=
        exists_sigil_of_startsPlaceholder (startsPlaceholder_of_atBrace hrest')
      obtain ⟨rfl, rfl⟩ := List.cons.inj heq
      have hperiod : c ≠ '.' := by
        rcases hsigil with rfl | rfl <;> decide
      simp [goesOn, hchar, hperiod]
  | braced sigil body => exact h

/-- **A text has one span at its head.** -/
theorem Span.Stands.unique {span other : Span} {rest rest' : List Char} (h : span.Stands rest)
    (hother : other.Stands rest') (heq : span.spelling ++ rest = other.spelling ++ rest') :
    span = other ∧ rest = rest' := by
  -- the read that begins there stops at one place
  have hnext := Cursor.next_span h 0
  rw [heq, Cursor.next_span hother 0, Prod.mk.injEq, Cursor.mk.injEq] at hnext
  obtain ⟨-, -, rfl⟩ := hnext
  have hspelling := List.append_cancel_right heq
  have hliteral : span.isLiteral = other.isLiteral := by
    have hends := endsLiteral_spelling h
    rw [heq, endsLiteral_spelling hother] at hends
    simpa using hends.symm
  refine ⟨?_, rfl⟩
  have hname : ∀ {name : List Char} {sigil : Sigil} {body : List Char}, isBareName name →
      (bare name).spelling ≠ (braced sigil body).spelling := by
    intro name sigil body hname heq
    obtain ⟨c, cs, rfl, hc⟩ := exists_of_isBareName hname
    obtain ⟨rfl, -⟩ := List.cons.inj (List.cons.inj heq).2
    exact absurd hc (by decide +kernel)
  -- spans of different kinds are spelled differently: literal text does not end before literal
  -- text, and no name begins with a brace
  cases span with
  | literal text =>
    cases other with
    | literal text' => exact congrArg literal hspelling
    | bare | braced => cases hliteral
  | bare name =>
    cases other with
    | literal => cases hliteral
    | bare name' => exact congrArg bare (List.cons.inj hspelling).2
    | braced sigil body => exact absurd hspelling (hname h.1)
  | braced sigil body =>
    cases other with
    | literal => cases hliteral
    | bare name => exact absurd hspelling.symm (hname hother.1)
    | braced sigil' body' =>
      obtain ⟨hchar, hbody⟩ := List.cons.inj hspelling
      have hsigil : sigil = sigil' := by
        cases sigil <;> cases sigil' <;> simp_all [Sigil.char]
      rw [hsigil, List.append_cancel_right (List.cons.inj hbody).2]

/-! ## Reading on -/

/-- Good spans that stand one after the other at the head of a text, and what follows them. -/
inductive Scans : List Char → List Span → List Char → Prop where
  | done (text : List Char) : Scans text [] text
  | span {span : Span} {spans : List Span} {rest last : List Char} (hstands : span.Stands rest)
      (hgood : span.isGood) (hrest : Scans rest spans last) :
    Scans (span.spelling ++ rest) (span :: spans) last

section Scanning

variable {text rest last : List Char} {spans : List Span}

/-- Without spans the whole text is left. -/
theorem scans_nil_iff : Scans text [] rest ↔ text = rest := by
  constructor
  · intro h
    cases h
    rfl
  · rintro rfl
    exact .done _

/-- The first of several spans stands at the head of the text. -/
theorem scans_cons_iff {span : Span} : Scans text (span :: spans) last ↔
    ∃ rest, text = span.spelling ++ rest ∧ span.Stands rest ∧ span.isGood ∧
      Scans rest spans last := by
  constructor
  · intro h
    cases h with
    | span hstands hgood hrest => exact ⟨_, rfl, hstands, hgood, hrest⟩
  · rintro ⟨rest, rfl, hstands, hgood, hrest⟩
    exact .span hstands hgood hrest

/-- **Nothing is lost, repeated or moved.** -/
theorem Scans.spelled (h : Scans text spans rest) : text = spell spans ++ rest := by
  induction h with
  | done text => rfl
  | span _ _ _ ih => rw [spell_cons, List.append_assoc, ← ih]

/-- Spans can be scanned in two stages. -/
theorem scans_append_iff {before after : List Span} : Scans text (before ++ after) last ↔
    ∃ rest, Scans text before rest ∧ Scans rest after last := by
  induction before generalizing text with
  | nil => simp [scans_nil_iff]
  | cons span before ih =>
    simp only [List.cons_append, scans_cons_iff, ih]
    constructor
    · rintro ⟨mid, heq, hstands, hgood, rest, hbefore, hafter⟩
      exact ⟨rest, ⟨mid, heq, hstands, hgood, hbefore⟩, hafter⟩
    · rintro ⟨rest, ⟨mid, heq, hstands, hgood, hbefore⟩, hafter⟩
      exact ⟨mid, heq, hstands, hgood, rest, hbefore, hafter⟩

/-- **Good spans are read.** -/
theorem Scans.tokens (h : Scans text spans rest) (position : Nat) : Cursor.tokens ⟨position, text⟩
    = (Cursor.tokens ⟨position + (spell spans).length, rest⟩).map (spans.map Span.token ++ ·) := by
  induction h generalizing position with
  | done text =>
    simp only [spell_nil, List.length_nil, Nat.add_zero, List.map_nil, List.nil_append]
    cases Cursor.tokens ⟨position, text⟩ <;> rfl
  | @span span spans rest last hstands hgood hrest ih =>
    have hne : span.spelling ++ rest ≠ [] :=
      List.append_ne_nil_of_left_ne_nil (Span.spelling_ne_nil hstands) rest
    rw [Cursor.tokens, dif_neg hne, Cursor.next_span hstands, Span.read_eq_token hgood]
    simp only [ih (position + span.spelling.length)]
    rw [spell_cons, List.length_append, ← Nat.add_assoc]
    cases Cursor.tokens ⟨position + span.spelling.length + (spell spans).length, last⟩ <;> rfl

/-- A fault at the head of a text is its error. -/
theorem Fault.tokens {position : Nat} {e : TokenError} (h : Fault position text e) :
    Cursor.tokens ⟨position, text⟩ = .error e := by
  have hne : text ≠ [] := by
    obtain ⟨sigil, cs, rfl⟩ := h.exists_sigil
    exact List.cons_ne_nil _ _
  rw [Cursor.tokens, dif_neg hne, h.next]

/-- **Every text can be scanned**, up to its end or up to a fault. -/
theorem exists_scans (position : Nat) (text : List Char) : ∃ spans rest, Scans text spans rest ∧
    (rest = [] ∨ ∃ e, Fault (position + (spell spans).length) rest e) := by
  -- by the length of the text, since a span is never empty
  induction hlength : text.length using Nat.strongRecOn generalizing position text with
  | ind n ih =>
    by_cases hne : text = []
    · exact ⟨[], text, .done text, .inl hne⟩
    rcases exists_span hne with ⟨span, rest, rfl, hstands⟩ | ⟨sigil, body, rfl, hopen⟩
    -- a good span is taken, and what follows it is shorter
    · cases hgood : span.isGood with
      | false => exact ⟨[], _, .done _, .inr (fault_of_not_isGood hstands hgood position)⟩
      | true =>
        have hshorter : rest.length < n := by
          have hpos := List.length_pos_iff.2 (Span.spelling_ne_nil hstands)
          rw [List.length_append] at hlength
          omega
        obtain ⟨spans, last, hrest, hlast⟩ :=
          ih _ hshorter (position + span.spelling.length) rest rfl
        rw [Nat.add_assoc, ← List.length_append, ← spell_cons] at hlast
        exact ⟨span :: spans, last, .span hstands hgood hrest, hlast⟩
    · exact ⟨[], _, .done _, .inr ⟨_, .unterminated hopen⟩⟩

/-- **A text is scanned in one way.** -/
theorem Scans.unique {others : List Span} (h : Scans text spans []) (hothers : Scans text others []) :
    others = spans := by
  generalize hend : ([] : List Char) = last at h
  induction h generalizing others with
  | done text =>
    subst hend
    cases others with
    | nil => rfl
    | cons other others =>
      obtain ⟨rest, heq, hstands, -, -⟩ := scans_cons_iff.1 hothers
      exact absurd (List.append_eq_nil_iff.1 heq.symm).1 (Span.spelling_ne_nil hstands)
  | @span span spans rest last hstands hgood hrest ih =>
    cases others with
    | nil =>
      have hnil := scans_nil_iff.1 hothers
      exact absurd (List.append_eq_nil_iff.1 hnil).1 (Span.spelling_ne_nil hstands)
    | cons other others =>
      obtain ⟨rest', heq, hstands', -, hrest'⟩ := scans_cons_iff.1 hothers
      obtain ⟨rfl, rfl⟩ := hstands.unique hstands' heq
      rw [ih hrest' hend]

/-- What follows the spans can be changed, if the last of them still ends there. -/
theorem Scans.before (h : Scans text spans rest) {rest' : List Char}
    (hrest' : ∀ span : Span, span.Stands rest → span.Stands rest') :
    Scans (spell spans ++ rest') spans rest' := by
  induction h with
  | done text => exact .done rest'
  | @span span spans rest last hstands hgood hrest ih =>
    rw [spell_cons, List.append_assoc]
    refine .span ?_ hgood (ih hrest')
    cases spans with
    | nil =>
      obtain rfl := scans_nil_iff.1 hrest
      exact hrest' span hstands
    | cons next spans =>
      -- the next span keeps apart what stands before it and behind it
      obtain ⟨_, rfl, hnext, -, -⟩ := scans_cons_iff.1 hrest
      obtain ⟨_, heq, hnext', -, -⟩ := scans_cons_iff.1 (ih hrest')
      rw [heq]
      exact hstands.beside hnext hnext'

/-- The same spans are scanned where a sigil with its brace follows them. -/
theorem Scans.before_brace (h : Scans text spans rest) {rest' : List Char} (hrest' : atBrace rest') :
    Scans (spell spans ++ rest') spans rest' :=
  h.before fun _ hstands => hstands.of_atBrace hrest'

end Scanning

/-- The tokens of a text are what its spans are read as. -/
theorem tokens_eq_ok_iff {position : Nat} {text : List Char} {ts : List Token} :
    Cursor.tokens ⟨position, text⟩ = .ok ts
      ↔ ∃ spans, Scans text spans [] ∧ spans.map Span.token = ts := by
  constructor
  · intro h
    obtain ⟨spans, rest, hscans, rfl | ⟨e, he⟩⟩ := exists_scans position text
    · rw [hscans.tokens, tokens_nil] at h
      refine ⟨spans, hscans, ?_⟩
      simpa [Except.map] using h
    -- behind good spans a fault would be the answer
    · rw [hscans.tokens, he.tokens] at h
      cases h
  · rintro ⟨spans, hscans, rfl⟩
    rw [hscans.tokens, tokens_nil]
    simp [Except.map]

/-- The error of a text is the fault behind its good spans. -/
theorem tokens_eq_error_iff {position : Nat} {text : List Char} {e : TokenError} :
    Cursor.tokens ⟨position, text⟩ = .error e
      ↔ ∃ spans rest, Scans text spans rest ∧ Fault (position + (spell spans).length) rest e := by
  constructor
  · intro h
    obtain ⟨spans, rest, hscans, rfl | ⟨other, hother⟩⟩ := exists_scans position text
    · have hok : Cursor.tokens ⟨position, text⟩ = .ok (spans.map Span.token) :=
        tokens_eq_ok_iff.2 ⟨spans, hscans, rfl⟩
      rw [h] at hok
      cases hok
    · rw [hscans.tokens, hother.tokens] at h
      obtain rfl := Except.error.inj h
      exact ⟨spans, rest, hscans, hother⟩
  · rintro ⟨spans, rest, hscans, he⟩
    rw [hscans.tokens, he.tokens]
    rfl

/-- **Which tokens a text has**: those of the spans that it is scanned into. -/
theorem tokenize_eq_ok_iff {text : String} {ts : List Token} : tokenize text = .ok ts
    ↔ ∃ spans, Scans text.toList spans [] ∧ spans.map Span.token = ts :=
  tokens_eq_ok_iff

/-- **Which error a text has**: the fault behind its good spans. -/
theorem tokenize_eq_error_iff {text : String} {e : TokenError} : tokenize text = .error e
    ↔ ∃ spans rest, Scans text.toList spans rest ∧ Fault (spell spans).length rest e := by
  rw [tokenize, Cursor.start, tokens_eq_error_iff]
  simp only [Nat.zero_add]

end SqlFragments.Placeholder
