import SqlFragments.Proofs.Placeholder.Spans

/-! # The errors of a text

A text is refused for the first placeholder in braces that is bad, and the error says where its sigil
stands and what is wrong with it. Nothing behind the placeholder matters, unless its brace is left
open.

* `Fault.cases_of_drop`: the cause can be read off the text behind the brace;
* `TokenError.BelongsTo`: what a text is like that is refused with an error;
* `tokenize_first_fault`: a text is refused just if a fault stands behind good spans, and the error
  belongs to it. -/

namespace SqlFragments.Placeholder

open SqlFragments.Text

/-- Where the sigil of the bad placeholder stands. -/
def TokenError.start : TokenError → Nat
  | .unterminated start => start
  | .emptyPlaceholder start => start
  | .invalidName _ start => start

/-- What a text is like that is refused with an error. -/
structure TokenError.BelongsTo (e : TokenError) (text : List Char) : Prop where
  /-- Everything before the bad placeholder can be read. -/
  readable : ∃ ts, tokenize (String.ofList (text.take e.start)) = .ok ts
  /-- The error points at a sigil and its brace. -/
  begins : ∃ sigil cs, text.drop e.start = Sigil.char sigil :: '{' :: cs
  /-- No closing brace follows. -/
  unterminated_iff : e = .unterminated e.start ↔ '}' ∉ text.drop (e.start + 2)
  /-- Only blanks stand before the first closing brace. -/
  emptyPlaceholder_iff : e = .emptyPlaceholder e.start ↔
    ∃ body rest, text.drop (e.start + 2) = body ++ '}' :: rest ∧ '}' ∉ body ∧ ∀ c ∈ body, isBlank c
  /-- The sigil is a dollar sign, and what stands before the first closing brace is no name. -/
  invalidName_iff (name : String) : e = .invalidName name e.start ↔
    text[e.start]? = some '$' ∧ ∃ body rest, text.drop (e.start + 2) = body ++ '}' :: rest ∧
      '}' ∉ body ∧ trim body = name.toList ∧ name.toList ≠ [] ∧ isVariableName name.toList = false
  /-- What stands behind the first closing brace can be changed. -/
  unaffected : ∀ body rest, text.drop (e.start + 2) = body ++ '}' :: rest → '}' ∉ body →
    ∀ other, tokenize (String.ofList (text.take (e.start + 2) ++ (body ++ '}' :: other))) = .error e

section

variable {position : Nat} {text : List Char} {e : TokenError}

/-- The error points at the place where the fault was found. -/
theorem Fault.start_eq (h : Fault position text e) : e.start = position := by
  cases h <;> rfl

/-- The first closing brace stands at one place. -/
theorem eq_of_append_brace {body body' rest rest' : List Char} (hclosed : '}' ∉ body)
    (hclosed' : '}' ∉ body') (heq : body ++ '}' :: rest = body' ++ '}' :: rest') : body = body' := by
  have hspan := spanBody_append_brace hclosed rest
  rw [heq, spanBody_append_brace hclosed' rest'] at hspan
  exact (Prod.mk.inj hspan).1.symm

/-- What is wrong where a placeholder begins is seen from the text behind the brace. -/
theorem Fault.cases_of_drop (h : Fault position text e) :
    (e = .unterminated position ∧ '}' ∉ text.drop 2) ∨
      ∃ body rest, text.drop 2 = body ++ '}' :: rest ∧ '}' ∉ body ∧
        ((e = .emptyPlaceholder position ∧ ∀ c ∈ body, isBlank c) ∨
          (e = .invalidName (String.ofList (trim body)) position ∧ text[0]? = some '$' ∧
            trim body ≠ [] ∧ isVariableName (trim body) = false)) := by
  cases h with
  | unterminated hopen => exact .inl ⟨rfl, hopen⟩
  | emptyPlaceholder hclosed hblank => exact .inr ⟨_, _, rfl, hclosed, .inl ⟨rfl, hblank⟩⟩
  | invalidName hclosed hne hname =>
    exact .inr ⟨_, _, rfl, hclosed, .inr ⟨rfl, rfl, hne, hname⟩⟩

/-- The placeholder is unterminated just if no closing brace follows it. -/
theorem Fault.unterminated_iff (h : Fault position text e) :
    e = .unterminated position ↔ '}' ∉ text.drop 2 := by
  obtain ⟨rfl, hopen⟩ | ⟨body, rest, heq, -, hcause⟩ := h.cases_of_drop
  · exact iff_of_true rfl hopen
  · refine iff_of_false ?_ (by simp [heq])
    rcases hcause with ⟨rfl, -⟩ | ⟨rfl, -⟩
    · exact TokenError.noConfusion
    · exact TokenError.noConfusion

/-- The placeholder is empty just if only blanks stand before its closing brace. -/
theorem Fault.emptyPlaceholder_iff (h : Fault position text e) : e = .emptyPlaceholder position ↔
    ∃ body rest, text.drop 2 = body ++ '}' :: rest ∧ '}' ∉ body ∧ ∀ c ∈ body, isBlank c := by
  obtain ⟨rfl, hopen⟩ | ⟨body, rest, heq, hclosed, ⟨rfl, hblank⟩ | ⟨rfl, -, hne, -⟩⟩ := h.cases_of_drop
  -- one case for each cause; the other two contradict what stands before the brace
  · refine iff_of_false TokenError.noConfusion ?_
    rintro ⟨body, rest, heq, -⟩
    simp [heq] at hopen
  · exact iff_of_true rfl ⟨body, rest, heq, hclosed, hblank⟩
  · refine iff_of_false TokenError.noConfusion ?_
    rintro ⟨body', rest', heq', hclosed', hblank⟩
    obtain rfl := eq_of_append_brace hclosed hclosed' (heq.symm.trans heq')
    exact hne (trim_eq_nil_iff.2 hblank)

/-- The name is invalid just if the sigil is a dollar sign and what stands before the closing brace,
trimmed, is not empty and no name. -/
theorem Fault.invalidName_iff (h : Fault position text e) (name : String) :
    e = .invalidName name position ↔ text[0]? = some '$' ∧
      ∃ body rest, text.drop 2 = body ++ '}' :: rest ∧ '}' ∉ body ∧ trim body = name.toList ∧
        name.toList ≠ [] ∧ isVariableName name.toList = false := by
  obtain ⟨rfl, hopen⟩ | ⟨body, rest, heq, hclosed, ⟨rfl, hblank⟩ | ⟨rfl, hsigil, hne, hname⟩⟩ :=
    h.cases_of_drop
  -- as before, one case for each cause
  · refine iff_of_false TokenError.noConfusion ?_
    rintro ⟨-, body, rest, heq, -⟩
    simp [heq] at hopen
  · refine iff_of_false TokenError.noConfusion ?_
    rintro ⟨-, body', rest', heq', hclosed', htrim, hne, -⟩
    obtain rfl := eq_of_append_brace hclosed hclosed' (heq.symm.trans heq')
    exact hne (htrim.symm.trans (trim_eq_nil_iff.2 hblank))
  · constructor
    · intro hinvalid
      obtain rfl := (TokenError.invalidName.inj hinvalid).1
      rw [String.toList_ofList]
      exact ⟨hsigil, body, rest, heq, hclosed, rfl, hne, hname⟩
    · rintro ⟨-, body', rest', heq', hclosed', htrim, -⟩
      obtain rfl := eq_of_append_brace hclosed hclosed' (heq.symm.trans heq')
      rw [htrim, String.ofList_toList]

/-- What follows the closing brace has no part in a fault. -/
theorem Fault.unaffected {sigil : Sigil} {body rest : List Char}
    (h : Fault position (sigil.char :: '{' :: (body ++ '}' :: rest)) e) (hclosed : '}' ∉ body)
    (other : List Char) : Fault position (sigil.char :: '{' :: (body ++ '}' :: other)) e := by
  obtain ⟨-, hopen⟩ | ⟨body', rest', heq, hclosed', hcause⟩ := h.cases_of_drop
  · simp at hopen
  · obtain rfl := eq_of_append_brace hclosed hclosed' heq
    rcases hcause with ⟨rfl, hblank⟩ | ⟨rfl, hsigil, hne, hname⟩
    · exact .emptyPlaceholder hclosed hblank
    · have hdollar : sigil.char = '$' := Option.some.inj hsigil
      rw [hdollar]
      exact .invalidName hclosed hne hname

/-- A fault behind good spans is what its error says. -/
theorem Fault.belongsTo {spans : List Span} {rest : List Char} (hscans : Scans text spans rest)
    (h : Fault (spell spans).length rest e) : e.BelongsTo text := by
  -- the text is the good spans and then the bad placeholder
  have htext := hscans.spelled
  have htake : text.take e.start = spell spans := by
    rw [h.start_eq, htext, List.take_left]
  have hdrop : ∀ n, text.drop (e.start + n) = rest.drop n := by
    intro n
    rw [h.start_eq, htext, List.drop_append, List.drop_of_length_le (Nat.le_add_right _ n)]
    simp
  have hhead : text[e.start]? = rest[0]? := by
    rw [h.start_eq, htext, List.getElem?_append_right (Nat.le_refl _), Nat.sub_self]
  obtain ⟨sigil, cs, hrest⟩ := h.exists_sigil
  refine ⟨?_, ⟨sigil, cs, (hdrop 0).trans hrest⟩, ?_, ?_, ?_, ?_⟩
  · -- the end of a text bounds its last span as the sigil does
    have hbefore : Scans (spell spans ++ []) spans [] := hscans.before_brace rfl
    rw [List.append_nil] at hbefore
    refine ⟨spans.map Span.token, ?_⟩
    rw [htake, tokenize, Cursor.start, String.toList_ofList, tokens_eq_ok_iff]
    exact ⟨spans, hbefore, rfl⟩
  · rw [hdrop, h.start_eq]
    exact h.unterminated_iff
  · rw [hdrop, h.start_eq]
    exact h.emptyPlaceholder_iff
  · intro name
    rw [hdrop, hhead, h.start_eq]
    exact h.invalidName_iff name
  · intro body more hbody hclosed other
    rw [hdrop, hrest] at hbody
    obtain rfl : cs = body ++ '}' :: more := hbody
    subst hrest
    have htake' : text.take (e.start + 2) = spell spans ++ [sigil.char, '{'] := by
      rw [h.start_eq, htext, List.take_append]
      simp
    have hchanged := h.unaffected hclosed other
    have hbrace : atBrace (sigil.char :: '{' :: (body ++ '}' :: other)) := by
      cases sigil <;> rfl
    rw [htake', List.append_assoc, tokenize, Cursor.start, String.toList_ofList, tokens_eq_error_iff]
    exact ⟨spans, _, hscans.before_brace hbrace, by rwa [Nat.zero_add]⟩

end

/-- **The first fault decides.** A text is refused just if its good spans lead to a bad placeholder in
braces; the error is that of this placeholder, and stays the same whatever stands behind it. -/
theorem tokenize_first_fault (text : String) (e : TokenError) :
    (tokenize text = .error e ↔ ∃ spans rest, Scans text.toList spans rest ∧
      Fault (spell spans).length rest e) ∧
    (tokenize text = .error e → e.BelongsTo text.toList) := by
  refine ⟨tokenize_eq_error_iff, fun herror => ?_⟩
  obtain ⟨spans, rest, hscans, hfault⟩ := tokenize_eq_error_iff.1 herror
  exact hfault.belongsTo hscans

/-- A bare name, a name in braces, an empty parameter and, behind it, a name that is none. The answer
is the same if a brace is left open there. -/
theorem tokenize_first_fault_emptyParameter :
    tokenize "a$b.c $\x7b x \x7d#\x7b \x7d!$\x7b1\x7d" = .error (.emptyPlaceholder 12) ∧
      (TokenError.emptyPlaceholder 12).BelongsTo
        "a$b.c $\x7b x \x7d#\x7b \x7d!$\x7b1\x7d".toList ∧
      tokenize "a$b.c $\x7b x \x7d#\x7b \x7d$\x7b" = .error (.emptyPlaceholder 12) := by
  have herror : tokenize "a$b.c $\x7b x \x7d#\x7b \x7d!$\x7b1\x7d"
      = .error (.emptyPlaceholder 12) := by decide +kernel
  have hbelongs := (tokenize_first_fault _ _).2 herror
  refine ⟨herror, hbelongs, ?_⟩
  exact hbelongs.unaffected [' '] "!$\x7b1\x7d".toList (by decide +kernel) (by decide)
    "$\x7b".toList

end SqlFragments.Placeholder
