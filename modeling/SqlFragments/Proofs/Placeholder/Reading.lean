import Mathlib.Data.List.Chain
import SqlFragments.Proofs.Placeholder.Naming

/-! # What is read from a text

Reading and writing tokens are inverse to each other but for how a placeholder is spelled. What a
written list of tokens has to be like in order to be read back, every list that has been read is like,
apart from the names of variables: a bare name need not be one that can stand between braces.

* `startsPlaceholder_cases`: the three ways in which a placeholder begins;
* `spanLiteral_normal`: a literal stretch holds no placeholder and goes on up to the next one;
* `Token.Normal`: lists of tokens as they are read;
* `Cursor.next_normal`: one read; `Cursor.tokens_normal`: reading up to the end of a text;
* `tokenize_renderAll_normal`: tokens in this form are read back, and no others are read. -/

namespace SqlFragments.Placeholder

open SqlFragments.Text

/-! ## Where placeholders begin -/

/-- How a placeholder begins. -/
theorem startsPlaceholder_cases {text : List Char} (h : startsPlaceholder text) :
    (∃ cs, text = '$' :: '{' :: cs) ∨ (∃ cs, text = '#' :: '{' :: cs) ∨
      ∃ c cs, isNameStart c ∧ text = '$' :: c :: cs := by
  unfold startsPlaceholder at h
  split at h
  · exact .inl ⟨_, rfl⟩
  · exact .inr (.inl ⟨_, rfl⟩)
  · exact .inr (.inr ⟨_, _, h, rfl⟩)
  · exact absurd h Bool.false_ne_true

/-- A placeholder that begins a text begins every longer one. -/
theorem startsPlaceholder_of_begins {cs text : List Char} (h : startsPlaceholder cs)
    (hbegins : cs <+: text) : startsPlaceholder text := by
  obtain ⟨rest, rfl⟩ := hbegins
  rcases startsPlaceholder_cases h with ⟨body, rfl⟩ | ⟨body, rfl⟩ | ⟨c, body, hc, rfl⟩
  · rfl
  · rfl
  · simp [startsPlaceholder_cons_cons, hc]

/-- A text holds a placeholder if one begins where some part at its end begins. -/
theorem holdsPlaceholder_iff {cs : List Char} :
    holdsPlaceholder cs ↔ ∃ part, part <:+ cs ∧ startsPlaceholder part := by
  induction cs with
  | nil => simp [holdsPlaceholder, startsPlaceholder]
  | cons c cs ih =>
    rw [holdsPlaceholder, Bool.or_eq_true, ih]
    simp only [List.suffix_cons_iff, or_and_right, exists_or, exists_eq_left]

/-- What a part of a text holds, the text holds. -/
theorem holdsPlaceholder_of_part {cs text : List Char} (hcs : cs <:+: text)
    (h : holdsPlaceholder cs) : holdsPlaceholder text := by
  rw [holdsPlaceholder_iff] at h ⊢
  obtain ⟨part, ⟨front, rfl⟩, hpart⟩ := h
  obtain ⟨before, after, rfl⟩ := hcs
  have hbegins : part <+: part ++ after := List.prefix_append part after
  exact ⟨part ++ after, ⟨before ++ front, by simp⟩, startsPlaceholder_of_begins hpart hbegins⟩

/-- **A literal stretch is as long as it can be**: no placeholder begins in it, and if it does not
reach the end of the text then one begins behind it. -/
theorem spanLiteral_normal (cs : List Char) :
    holdsPlaceholder (spanLiteral cs).1 = false ∧
      ((spanLiteral cs).2 ≠ [] → startsPlaceholder (spanLiteral cs).2) := by
  induction cs with
  | nil => exact ⟨rfl, fun h => absurd rfl h⟩
  | cons c cs ih =>
    rw [spanLiteral]
    by_cases hstart : startsPlaceholder (c :: cs)
    · rw [if_pos hstart]
      exact ⟨rfl, fun _ => hstart⟩
    · rw [if_neg hstart]
      refine ⟨?_, ih.2⟩
      -- what begins no placeholder in the text begins none in a part of it
      have hbegins : c :: (spanLiteral cs).1 <+: c :: cs :=
        List.cons_prefix_cons.2 ⟨rfl, _, spanLiteral_append cs⟩
      have hpart : startsPlaceholder (c :: (spanLiteral cs).1) = false := by
        rw [Bool.eq_false_iff]
        intro h
        exact hstart (startsPlaceholder_of_begins h hbegins)
      rw [holdsPlaceholder, hpart, ih.1]
      rfl

/-! ## Tokens as they are read -/

/-- Whether a token can be read. The name of a variable is not looked at. -/
def Token.isNormal : Token → Bool
  | .literal text => isLiteralText text.toList
  | .variable _ => true
  | .parameter expr => isParameterText expr.toList
  | .endOfText => false

/-- Lists of tokens as they are read. A literal stretch is not empty and holds no placeholder, the
text of a parameter is not empty, has no blanks around it and no closing brace, and the end of the
text is not among the tokens; no two literal stretches follow each other. -/
structure Token.Normal (ts : List Token) : Prop where
  each : ∀ t ∈ ts, t.isNormal
  apart : ts.IsChain fun t u => ¬ (t.isLiteral ∧ u.isLiteral)

/-- No tokens at all are in normal form. -/
theorem Token.normal_nil : Normal [] := ⟨by simp, .nil⟩

/-- A token in front of others. -/
theorem Token.normal_cons_iff {t : Token} {ts : List Token} :
    Normal (t :: ts) ↔ t.isNormal ∧ (t.isLiteral → startsLiteral ts = false) ∧ Normal ts := by
  -- only the token right behind the first one matters to it
  have hhead : (∀ u ∈ ts.head?, ¬ (t.isLiteral ∧ u.isLiteral))
      ↔ (t.isLiteral → startsLiteral ts = false) := by
    cases ts with
    | nil => simp [startsLiteral]
    | cons u ts => simp [startsLiteral]
  constructor
  · rintro ⟨heach, hapart⟩
    rw [List.isChain_cons] at hapart
    rw [List.forall_mem_cons] at heach
    exact ⟨heach.1, hhead.1 hapart.1, heach.2, hapart.2⟩
  · rintro ⟨ht, hboundary, hts⟩
    refine ⟨List.forall_mem_cons.2 ⟨ht, hts.each⟩, ?_⟩
    exact List.isChain_cons.2 ⟨hhead.2 hboundary, hts.apart⟩

/-- What can be written is what is read, with names for variables that can stand between braces. -/
theorem Token.wellFormed_iff (t : Token) :
    t.wellFormed ↔ t.isNormal ∧ ∀ name, t = .variable name → isVariableName name.toList := by
  cases t <;> simp [wellFormed, isNormal]

/-- The same for a list of tokens: those that can be written are those that are read, with names
that can stand between braces. -/
theorem Token.wellFormedAll_iff (ts : List Token) : wellFormedAll ts
    ↔ Normal ts ∧ ∀ name, .variable name ∈ ts → isVariableName name.toList := by
  induction ts with
  | nil => simp [wellFormedAll, normal_nil]
  | cons t ts ih =>
    -- the reader of written lists asks the same of two neighbours as a chain does
    have hboundary : (!(t.isLiteral && startsLiteral ts)) = true
        ↔ (t.isLiteral → startsLiteral ts = false) := by
      cases t.isLiteral <;> simp
    rw [wellFormedAll, Bool.and_eq_true, Bool.and_eq_true, hboundary, wellFormed_iff, ih,
      normal_cons_iff]
    simp only [List.mem_cons, or_imp, forall_and, @eq_comm _ t]
    tauto

/-! ## Reading -/

/-- Behind a number sign and a brace the text of a parameter is read. -/
theorem next_parameter (position : Nat) (cs : List Char) :
    Cursor.next ⟨position, '#' :: '{' :: cs⟩
      = readBraced position cs fun expr => .ok (.parameter (String.ofList expr)) :=
  rfl

/-- The text between the braces of a parameter, trimmed. -/
theorem isParameterText_trim {body : List Char} (hbrace : '}' ∉ body) (hne : trim body ≠ []) :
    isParameterText (trim body) := by
  have htrimmed : '}' ∉ trim body := fun h => hbrace ((trim_sublist body).subset h)
  simp [isParameterText, hne, trim_trim, htrimmed]

/-- **One read.** A literal stretch is read where no placeholder begins, and behind it one does. -/
theorem Cursor.next_normal {cursor : Cursor} {t : Token} (hrest : cursor.rest ≠ [])
    (h : cursor.next.1 = .ok t) :
    t.isNormal ∧ t.isLiteral = !startsPlaceholder cursor.rest ∧
      (t.isLiteral → cursor.next.2.rest ≠ [] → startsPlaceholder cursor.next.2.rest) := by
  obtain ⟨position, text⟩ := cursor
  by_cases hstart : startsPlaceholder text
  · -- a placeholder, which is no literal stretch
    suffices hnormal : t.isNormal ∧ t.isLiteral = false by
      refine ⟨hnormal.1, by rw [hnormal.2, hstart]; rfl, fun hliteral => ?_⟩
      rw [hnormal.2] at hliteral
      exact absurd hliteral Bool.false_ne_true
    rcases startsPlaceholder_cases hstart with ⟨cs, rfl⟩ | ⟨cs, rfl⟩ | ⟨c, cs, hc, rfl⟩
    -- a variable between braces
    · rw [next_braced] at h
      obtain ⟨body, rest, -, -, -, hname⟩ := exists_of_readBraced_eq_ok h
      rw [variableToken] at hname
      split at hname
      · obtain rfl := Except.ok.inj hname
        exact ⟨rfl, rfl⟩
      · cases hname
    -- a parameter, trimmed by the reader
    · rw [next_parameter] at h
      obtain ⟨body, rest, -, hbrace, hne, hexpr⟩ := exists_of_readBraced_eq_ok h
      cases hexpr
      refine ⟨?_, rfl⟩
      rw [Token.isNormal, String.toList_ofList]
      exact isParameterText_trim hbrace hne
    -- a bare name
    · rw [next_bare position hc] at h
      cases h
      exact ⟨rfl, rfl⟩
  -- literal text, up to the next placeholder
  · rw [Bool.not_eq_true] at hstart
    obtain ⟨c, cs, rfl⟩ := List.exists_cons_of_ne_nil hrest
    rw [next_of_not_startsPlaceholder hstart] at h ⊢
    obtain ⟨hholds, hbehind⟩ := spanLiteral_normal (c :: cs)
    have heq : .literal (String.ofList (spanLiteral (c :: cs)).1) = t := Except.ok.inj h
    subst heq
    refine ⟨?_, by rw [hstart]; rfl, fun _ => hbehind⟩
    rw [Token.isNormal, String.toList_ofList]
    have hne : (spanLiteral (c :: cs)).1 ≠ [] := by
      simp [spanLiteral, hstart]
    simp [isLiteralText, hne, hholds]

/-- **Reading up to the end.** If a literal stretch comes first then no placeholder begins there. -/
theorem Cursor.tokens_normal {cursor : Cursor} {ts : List Token} (h : cursor.tokens = .ok ts) :
    Token.Normal ts ∧ (Token.startsLiteral ts → startsPlaceholder cursor.rest = false) := by
  fun_induction Cursor.tokens cursor generalizing ts with
  | case1 cursor hend =>
    cases h
    exact ⟨Token.normal_nil, fun h => absurd h Bool.false_ne_true⟩
  | case2 => cases h
  | case3 => cases h
  | case4 cursor hrest t hnext more hmore ih =>
    cases h
    obtain ⟨ht, hliteral, hbehind⟩ := next_normal hrest hnext
    obtain ⟨hnormal, hstart⟩ := ih hmore
    refine ⟨Token.normal_cons_iff.2 ⟨ht, fun hlit => ?_, hnormal⟩, fun hlit => ?_⟩
    · -- behind a literal stretch the text ends or a placeholder begins
      by_cases hend : cursor.next.2.rest = []
      · rw [tokens, dif_pos hend] at hmore
        cases hmore
        rfl
      · rw [Bool.eq_false_iff]
        intro hmoreLit
        have hbegins := hbehind hlit hend
        rw [hstart hmoreLit] at hbegins
        exact Bool.false_ne_true hbegins
    · have hlit : t.isLiteral = true := hlit
      rw [hlit] at hliteral
      simpa using hliteral.symm

/-- **Reading and writing.** A list of tokens that is in normal form and in which all names can stand
between braces is read back when it is written out: literal stretches as they are, variables and
parameters in braces. Whatever list is read from a text, and however its placeholders are spelled
there, is in normal form. -/
theorem tokenize_renderAll_normal (ts : List Token) :
    (Token.Normal ts → (∀ name, .variable name ∈ ts → isVariableName name.toList) →
      tokenize (String.ofList (Token.renderAll ts)) = .ok ts) ∧
    ∀ text, tokenize text = .ok ts → Token.Normal ts := by
  constructor
  · intro hnormal hnames
    exact tokenize_renderAll ((Token.wellFormedAll_iff ts).2 ⟨hnormal, hnames⟩)
  · intro text h
    exact (Cursor.tokens_normal h).1

/-- Literal stretches that end in a sigil, one of them right before a placeholder, and a parameter with
sigils and an opening brace in it. -/
def Token.sigilSample : List Token :=
  [.literal "a #$", .variable "t.b", .parameter "$x, #\x7by", .literal "$ #"]

/-- The sigils of literal text stay literal, and blanks inside the braces of a parameter are taken
off. -/
theorem tokenize_renderAll_normal_sigils :
    Token.Normal Token.sigilSample ∧
    (∀ name, .variable name ∈ Token.sigilSample → isVariableName name.toList) ∧
    tokenize "a #$$\x7bt.b\x7d#\x7b$x, #\x7by\x7d$ #" = .ok Token.sigilSample ∧
    tokenize "a #$$t.b#\x7b $x, #\x7by \x7d$ #" = .ok Token.sigilSample := by
  obtain ⟨hnormal, hnames⟩ :=
    (Token.wellFormedAll_iff Token.sigilSample).1 (by decide +kernel)
  have hread := (tokenize_renderAll_normal Token.sigilSample).1 hnormal hnames
  have htext : String.ofList (Token.renderAll Token.sigilSample)
      = "a #$$\x7bt.b\x7d#\x7b$x, #\x7by\x7d$ #" := by decide +kernel
  rw [htext] at hread
  -- other spellings of the placeholders are read alike, but they are not what is written
  have hspelled : tokenize "a #$$t.b#\x7b $x, #\x7by \x7d$ #" = .ok Token.sigilSample := by
    decide +kernel
  exact ⟨(tokenize_renderAll_normal _).2 _ hspelled, hnames, hread, hspelled⟩

end SqlFragments.Placeholder
