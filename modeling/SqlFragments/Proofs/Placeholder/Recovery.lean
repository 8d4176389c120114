import SqlFragments.Proofs.Placeholder.Faults

/-! # Reading goes on

A cursor can be read from as often as one likes, also when a read has failed. Each read takes the
characters from where it begins to where the next one begins, and before the end of the text these are
never none; so the end is reached, and nothing is left out or read twice.

* `Span.read_cases`: what a span can be read as;
* `Cursor.skip`, `Cursor.stretch`: the cursor after a number of reads, and the characters that one read
  takes;
* `Cursor.next_cases`: one read takes a span, or all that is left behind an open brace;
* `Cursor.EndsAfter`: after how many reads the end is reached; `Cursor.exists_endsAfter`: it always is;
* `Recovers`, `exists_recovers`: what any number of reads comes to, and that `tokenize` answers with it. -/

namespace SqlFragments.Placeholder

open SqlFragments.Text

/-! ## One read -/

/-- A span is read as a token of its own, or else it is a placeholder in braces and the error is about
what stands between them. It is never the end of the text. -/
theorem Span.read_cases (span : Span) (position : Nat) :
    (∃ t, span.read position = .ok t ∧ t ≠ .endOfText) ∨
      ∃ e, span.read position = .error e ∧ e.start = position ∧ e ≠ .unterminated position ∧
        ∃ sigil body, span = .braced sigil body := by
  by_cases hgood : span.isGood
  · refine .inl ⟨span.token, read_eq_token hgood position, ?_⟩
    -- no token of a span is the end of the text
    rcases span with _ | _ | ⟨_ | _, _⟩ <;> exact Token.noConfusion
  · right
    cases span with
    | literal text => exact absurd rfl hgood
    | bare name => exact absurd rfl hgood
    -- between braces nothing stands, or no name does
    | braced sigil body =>
      by_cases hblank : trim body = []
      · refine ⟨.emptyPlaceholder position, ?_, rfl, TokenError.noConfusion, sigil, body, rfl⟩
        rw [read, if_pos hblank]
      · cases sigil with
        | hash => exact absurd (decide_eq_true hblank) hgood
        | dollar =>
          have hname : ¬ isVariableName (trim body) = true := hgood
          refine ⟨.invalidName (String.ofList (trim body)) position, ?_, rfl, TokenError.noConfusion,
            .dollar, body, rfl⟩
          rw [read, if_neg hblank, Sigil.accept, variableToken, if_neg hname]

namespace Cursor

/-- The cursor after a number of reads, whatever they answer. -/
def skip (cursor : Cursor) : Nat → Cursor
  | 0 => cursor
  | k + 1 => cursor.next.2.skip k

/-- The characters that a read takes: those between where it begins and where the next one does. -/
def stretch (cursor : Cursor) : List Char :=
  cursor.rest.take (cursor.next.2.position - cursor.position)

section

variable {cursor : Cursor}

/-- The last of several reads begins where the others have stopped. -/
theorem skip_succ (cursor : Cursor) (k : Nat) : cursor.skip (k + 1) = (cursor.skip k).next.2 := by
  induction k generalizing cursor with
  | zero => rfl
  | succ k ih => exact ih cursor.next.2

/-- At the end of the text a read changes nothing. -/
theorem next_of_rest_eq_nil (h : cursor.rest = []) : cursor.next = (.ok .endOfText, cursor) := by
  rw [next, h]

/-- A read that begins with these characters and leaves the others takes just them. -/
theorem stretch_eq {taken rest : List Char} (hrest : cursor.rest = taken ++ rest)
    (hnext : cursor.next.2 = ⟨cursor.position + taken.length, rest⟩) : cursor.stretch = taken := by
  have hlength : cursor.position + taken.length - cursor.position = taken.length := by omega
  rw [stretch, hnext, hrest, hlength, List.take_left]

/-- **One read.** Before the end of the text it takes the span that stands there, or, if a brace is left
open, everything. -/
theorem next_cases (h : cursor.rest ≠ []) :
    (∃ span : Span, cursor.next.1 = span.read cursor.position ∧ cursor.stretch = span.spelling ∧
      span.Stands cursor.next.2.rest) ∧ cursor.rest = cursor.stretch ++ cursor.next.2.rest ∧
        cursor.next.2.position = cursor.position + cursor.stretch.length ∨
    cursor.next.1 = .error (.unterminated cursor.position) ∧ cursor.stretch = cursor.rest ∧
      cursor.next.2 = ⟨cursor.position + cursor.rest.length, []⟩ := by
  obtain ⟨position, text⟩ := cursor
  rcases exists_span h with ⟨span, rest, rfl, hstands⟩ | ⟨sigil, body, rfl, hopen⟩
  · have hnext := next_span hstands position
    have hstretch : stretch ⟨position, span.spelling ++ rest⟩ = span.spelling :=
      stretch_eq rfl (congrArg Prod.snd hnext)
    refine .inl ⟨⟨span, congrArg Prod.fst hnext, hstretch, ?_⟩, ?_, ?_⟩
    · rw [hnext]
      exact hstands
    · rw [hstretch, hnext]
    · rw [hstretch, hnext]
  · have hnext : next ⟨position, sigil.char :: '{' :: body⟩ = (.error (.unterminated position),
        ⟨position + (sigil.char :: '{' :: body).length, []⟩) := by
      rw [next_brace, readBraced, spanBody_of_notMem hopen]
      simp only [List.length_cons]
      congr 2
      omega
    refine .inr ⟨congrArg Prod.fst hnext, ?_, congrArg Prod.snd hnext⟩
    exact stretch_eq (List.append_nil _).symm (congrArg Prod.snd hnext)

/-- **Nothing is left out.** What a read takes and what it leaves is what there was. -/
theorem rest_eq (cursor : Cursor) : cursor.rest = cursor.stretch ++ cursor.next.2.rest := by
  by_cases h : cursor.rest = []
  · simp only [stretch, next_of_rest_eq_nil h, h, List.take_nil, List.append_nil]
  · rcases next_cases h with ⟨-, hrest, -⟩ | ⟨-, hstretch, hnext⟩
    · exact hrest
    · rw [hnext, hstretch, List.append_nil]

/-- A read moves the cursor on by what it takes. -/
theorem position_next (cursor : Cursor) :
    cursor.next.2.position = cursor.position + cursor.stretch.length := by
  by_cases h : cursor.rest = []
  · simp only [stretch, next_of_rest_eq_nil h, h, List.take_nil, List.length_nil, Nat.add_zero]
  · rcases next_cases h with ⟨-, -, hposition⟩ | ⟨-, hstretch, hnext⟩
    · exact hposition
    · rw [hnext, hstretch]

/-- **A read before the end moves on.** -/
theorem stretch_ne_nil (h : cursor.rest ≠ []) : cursor.stretch ≠ [] := by
  rcases next_cases h with ⟨⟨span, -, hstretch, hstands⟩, -⟩ | ⟨-, hstretch, -⟩
  · rw [hstretch]
    exact Span.spelling_ne_nil hstands
  · rwa [hstretch]

/-- The answer is the end of the text just if nothing is left. -/
theorem next_eq_endOfText_iff : cursor.next.1 = .ok .endOfText ↔ cursor.rest = [] := by
  constructor
  · intro hend
    by_contra h
    -- a span is read as a token of its own or as an error
    rcases next_cases h with ⟨⟨span, hread, -⟩, -⟩ | ⟨hread, -⟩
    · rw [hread] at hend
      rcases span.read_cases cursor.position with ⟨t, ht, hne⟩ | ⟨e, he, -⟩
      · exact hne (Except.ok.inj (ht.symm.trans hend))
      · rw [he] at hend
        cases hend
    · rw [hread] at hend
      cases hend
  · intro h
    rw [next_of_rest_eq_nil h]

/-- **A read that fails** for an open brace takes everything, and every other one takes a placeholder
up to its first closing brace. -/
theorem next_eq_error_cases {e : TokenError} (h : cursor.next.1 = .error e) :
    e.start = cursor.position ∧
      ((e = .unterminated e.start ∧ cursor.next.2.rest = []) ∨
        (e ≠ .unterminated e.start ∧ ∃ sigil body, '}' ∉ body ∧
          cursor.stretch = Sigil.char sigil :: '{' :: (body ++ ['}']))) := by
  have hrest : cursor.rest ≠ [] := by
    intro hend
    rw [next_of_rest_eq_nil hend] at h
    cases h
  rcases next_cases hrest with ⟨⟨span, hread, hstretch, hstands⟩, -⟩ | ⟨hread, -, hnext⟩
  · rw [hread] at h
    rcases span.read_cases cursor.position with
      ⟨t, ht, -⟩ | ⟨cause, hcause, hstart, hne, sigil, body, rfl⟩
    · rw [ht] at h
      cases h
    · obtain rfl := Except.error.inj (hcause.symm.trans h)
      rw [hstart]
      exact ⟨rfl, .inr ⟨hne, sigil, body, hstands, hstretch⟩⟩
  · obtain rfl := Except.error.inj (hread.symm.trans h)
    refine ⟨rfl, .inl ⟨rfl, ?_⟩⟩
    rw [hnext]

end

/-! ## Up to the end -/

/-- The end of the text is reached after so many reads, and not before. -/
def EndsAfter (cursor : Cursor) (count : Nat) : Prop :=
  ∀ k, (cursor.skip k).rest = [] ↔ count ≤ k

/-- The first answers of a cursor. -/
def answers (cursor : Cursor) (count : Nat) : List (Except TokenError Token) :=
  (List.range count).map fun k => (cursor.skip k).next.1

/-- What the first reads take, one after the other. -/
def stretches (cursor : Cursor) (count : Nat) : List Char :=
  (List.range count).flatMap fun k => (cursor.skip k).stretch

section

variable {cursor : Cursor} {count : Nat}

/-- At the end of the text no number of reads changes anything. -/
theorem skip_of_rest_eq_nil (h : cursor.rest = []) (k : Nat) : cursor.skip k = cursor := by
  induction k with
  | zero => rfl
  | succ k ih => rw [skip_succ, ih, next_of_rest_eq_nil h]

/-- No read is needed at the end of a text, and only there. -/
theorem endsAfter_zero_iff : cursor.EndsAfter 0 ↔ cursor.rest = [] := by
  constructor
  · intro h
    exact (h 0).2 (Nat.le_refl 0)
  · intro h k
    rw [skip_of_rest_eq_nil h]
    exact iff_of_true h (Nat.zero_le k)

/-- One read fewer is to be made behind the first one. -/
theorem endsAfter_succ_iff :
    cursor.EndsAfter (count + 1) ↔ cursor.rest ≠ [] ∧ cursor.next.2.EndsAfter count := by
  constructor
  · intro h
    refine ⟨fun hend => ?_, fun k => ?_⟩
    · exact absurd ((h 0).1 hend) (by omega)
    · exact (h (k + 1)).trans (by omega)
  · rintro ⟨hrest, hmore⟩ k
    cases k with
    | zero => exact iff_of_false hrest (by omega)
    | succ k => exact (hmore k).trans (by omega)

/-- **The end is reached**, since each read before it leaves less of the text. -/
theorem exists_endsAfter (cursor : Cursor) : ∃ count, cursor.EndsAfter count := by
  -- the induction is on what is left: a read can take any number of characters
  induction hlength : cursor.rest.length using Nat.strongRecOn generalizing cursor with
  | ind n ih =>
    by_cases hrest : cursor.rest = []
    · exact ⟨0, endsAfter_zero_iff.2 hrest⟩
    · have hshorter := next_rest_length_lt hrest
      obtain ⟨count, hcount⟩ := ih cursor.next.2.rest.length (by omega) cursor.next.2 rfl
      exact ⟨count + 1, endsAfter_succ_iff.2 ⟨hrest, hcount⟩⟩

/-- No more reads are needed than there are characters. -/
theorem EndsAfter.le_length (h : cursor.EndsAfter count) : count ≤ cursor.rest.length := by
  induction count generalizing cursor with
  | zero => exact Nat.zero_le _
  | succ count ih =>
    obtain ⟨hrest, hmore⟩ := endsAfter_succ_iff.1 h
    have hshorter := next_rest_length_lt hrest
    have hfewer := ih hmore
    omega

/-- The first answer, and then those of the cursor behind it. -/
theorem answers_succ (cursor : Cursor) (count : Nat) :
    cursor.answers (count + 1) = cursor.next.1 :: cursor.next.2.answers count := by
  rw [answers, List.range_succ_eq_map, List.map_cons, List.map_map]
  rfl

/-- What the first read takes, and then what the others take from behind it. -/
theorem stretches_succ (cursor : Cursor) (count : Nat) :
    cursor.stretches (count + 1) = cursor.stretch ++ cursor.next.2.stretches count := by
  rw [stretches, List.range_succ_eq_map, List.flatMap_cons, List.flatMap_map]
  rfl

/-- **The reads follow one another.** What has been read and what is left make up the text, -/
theorem stretches_append_rest (cursor : Cursor) (k : Nat) :
    cursor.stretches k ++ (cursor.skip k).rest = cursor.rest := by
  induction k generalizing cursor with
  | zero => rfl
  | succ k ih => rw [stretches_succ, List.append_assoc, skip, ih, ← rest_eq]

/-- and the cursor stands right behind what has been read. -/
theorem position_skip (cursor : Cursor) (k : Nat) :
    (cursor.skip k).position = cursor.position + (cursor.stretches k).length := by
  induction k generalizing cursor with
  | zero => rfl
  | succ k ih =>
    rw [skip, ih, position_next, stretches_succ, List.length_append, Nat.add_assoc]

/-- **The tokens are the answers**, if none of them is an error. -/
theorem EndsAfter.tokens_eq_ok_iff (h : cursor.EndsAfter count) {ts : List Token} :
    cursor.tokens = .ok ts ↔ cursor.answers count = ts.map .ok := by
  induction count generalizing cursor ts with
  | zero =>
    rw [tokens, dif_pos (endsAfter_zero_iff.1 h)]
    cases ts <;> simp [answers]
  | succ count ih =>
    obtain ⟨hrest, hmore⟩ := endsAfter_succ_iff.1 h
    rw [tokens, dif_neg hrest, answers_succ]
    cases hfirst : cursor.next.1 with
    | error e => cases ts <;> simp
    | ok t =>
      -- the tokens behind the first one are those of the next cursor
      cases htail : cursor.next.2.tokens with
      | error e =>
        have hnone : ∀ us : List Token, cursor.next.2.answers count ≠ us.map .ok := by
          intro us hus
          rw [← ih hmore, htail] at hus
          cases hus
        cases ts with
        | nil => simp
        | cons u us => simp [hnone us]
      | ok us =>
        rw [(ih hmore).1 htail]
        have hinj : Function.Injective (Except.ok (ε := TokenError) (α := Token)) :=
          fun _ _ => Except.ok.inj
        rw [← List.map_cons, (List.map_injective_iff.2 hinj).eq_iff, Except.ok.injEq]

/-- **Otherwise the first error among the answers counts.** -/
theorem EndsAfter.tokens_eq_error_iff (h : cursor.EndsAfter count) {e : TokenError} :
    cursor.tokens = .error e
      ↔ ∃ (before : List Token) (after : List (Except TokenError Token)),
          cursor.answers count = before.map .ok ++ .error e :: after := by
  induction count generalizing cursor with
  | zero =>
    rw [tokens, dif_pos (endsAfter_zero_iff.1 h)]
    simp [answers]
  | succ count ih =>
    obtain ⟨hrest, hmore⟩ := endsAfter_succ_iff.1 h
    rw [tokens, dif_neg hrest, answers_succ]
    cases hfirst : cursor.next.1 with
    | error cause =>
      constructor
      · intro hfail
        obtain rfl := Except.error.inj hfail
        exact ⟨[], _, rfl⟩
      · rintro ⟨before, after, heq⟩
        cases before with
        | nil => exact congrArg Except.error (Except.error.inj (List.cons.inj heq).1)
        | cons t before => cases (List.cons.inj heq).1
    | ok t =>
      have htail : (∃ (before : List Token) (after : List (Except TokenError Token)),
          Except.ok t :: cursor.next.2.answers count = before.map .ok ++ .error e :: after)
            ↔ cursor.next.2.tokens = .error e := by
        rw [ih hmore]
        constructor
        · rintro ⟨before, after, heq⟩
          cases before with
          | nil => cases (List.cons.inj heq).1
          | cons u before => exact ⟨before, after, (List.cons.inj heq).2⟩
        · rintro ⟨before, after, heq⟩
          exact ⟨t :: before, after, congrArg (Except.ok t :: ·) heq⟩
      rw [htail]
      cases cursor.next.2.tokens <;> simp

end

end Cursor

/-! ## Texts -/

/-- What any number of reads from a text comes to, the end being reached after `count` of them. -/
structure Recovers (text : String) (count : Nat) : Prop where
  /-- The cursor never leaves the text. -/
  inside : ∀ k, ((Cursor.start text).skip k).position ≤ text.length
  /-- The reads follow one another: what has been taken and what is left make up the text, and the
  cursor stands between the two. -/
  follows : ∀ k, (Cursor.start text).stretches k ++ ((Cursor.start text).skip k).rest = text.toList ∧
    ((Cursor.start text).skip k).position = ((Cursor.start text).stretches k).length
  /-- Every read that does not answer with the end of the text moves on. -/
  moves : ∀ k, ((Cursor.start text).skip k).next.1 ≠ .ok .endOfText →
    ((Cursor.start text).skip k).position < ((Cursor.start text).skip (k + 1)).position
  /-- There are no more of these than characters. -/
  few : count ≤ text.length
  /-- They come first, and from then on the answer is the end of the text again and again. -/
  ends : ∀ k, ((Cursor.start text).skip k).next.1 = .ok .endOfText ↔ count ≤ k
  /-- Behind an open brace nothing is left. -/
  unterminated : ∀ k position,
    ((Cursor.start text).skip k).next.1 = .error (.unterminated position) → count = k + 1
  /-- Every other error belongs to a placeholder that begins where the read does, and the next read
  begins right behind its closing brace. -/
  closed : ∀ k e, ((Cursor.start text).skip k).next.1 = .error e → e ≠ .unterminated e.start →
    ((Cursor.start text).skip k).position = e.start ∧ ∃ sigil body, '}' ∉ body ∧
      ((Cursor.start text).skip k).stretch = Sigil.char sigil :: '{' :: (body ++ ['}']) ∧
      ((Cursor.start text).skip (k + 1)).position = e.start + 2 + body.length + 1
  /-- What they take makes up the whole text. -/
  spelled : (Cursor.start text).stretches count = text.toList
  /-- The tokens of the text are the answers before the end, if none of them is an error. -/
  tokens : ∀ ts, tokenize text = .ok ts ↔ (Cursor.start text).answers count = ts.map .ok
  /-- Otherwise the error of the text is the first of them that is one. -/
  error : ∀ e, tokenize text = .error e ↔
    ∃ (before : List Token) (after : List (Except TokenError Token)),
      (Cursor.start text).answers count = before.map .ok ++ .error e :: after

/-- **Reading always moves on and recovers.** From every text any number of reads can be made. -/
theorem exists_recovers (text : String) : ∃ count, Recovers text count := by
  obtain ⟨count, hcount⟩ := (Cursor.start text).exists_endsAfter
  have hends : ∀ k, ((Cursor.start text).skip k).next.1 = .ok .endOfText ↔ count ≤ k := fun k =>
    Cursor.next_eq_endOfText_iff.trans (hcount k)
  have hfollows := (Cursor.start text).stretches_append_rest
  have hposition : ∀ k, ((Cursor.start text).skip k).position
      = ((Cursor.start text).stretches k).length := fun k =>
    ((Cursor.start text).position_skip k).trans (Nat.zero_add _)
  refine ⟨count, ?_, fun k => ⟨hfollows k, hposition k⟩, ?_, hcount.le_length, hends, ?_, ?_, ?_, ?_, ?_⟩
  · intro k
    have hlength := congrArg List.length (hfollows k)
    rw [List.length_append, Cursor.start, String.length_toList] at hlength
    rw [hposition]
    exact Nat.le.intro hlength
  · intro k hread
    have hrest := fun h => hread (Cursor.next_eq_endOfText_iff.2 h)
    have htaken := List.length_pos_iff.2 (Cursor.stretch_ne_nil hrest)
    rw [Cursor.skip_succ, Cursor.position_next]
    omega
  · intro k position hread
    -- this read is one of the first ones, and the next one finds the end
    have hbefore : ¬ count ≤ k := by
      rw [← hends, hread]
      intro hend
      cases hend
    obtain ⟨-, ⟨-, hend⟩ | ⟨hne, -⟩⟩ := Cursor.next_eq_error_cases hread
    · rw [← Cursor.skip_succ, hcount] at hend
      omega
    · exact absurd rfl hne
  · intro k e hread hne
    obtain ⟨hposition, ⟨heq, -⟩ | ⟨-, sigil, body, hclosed, hstretch⟩⟩ :=
      Cursor.next_eq_error_cases hread
    · exact absurd heq hne
    · refine ⟨hposition.symm, sigil, body, hclosed, hstretch, ?_⟩
      rw [Cursor.skip_succ, Cursor.position_next, hstretch, ← hposition]
      simp only [List.length_cons, List.length_append, List.length_nil]
      omega
  · have hall := hfollows count
    rwa [(hcount count).2 (Nat.le_refl count), List.append_nil] at hall
  · exact fun ts => hcount.tokens_eq_ok_iff
  · exact fun e => hcount.tokens_eq_error_iff

/-- Every kind of error is met on the way through this text, and the first of them is its error. -/
example : (Cursor.start "#\x7b \x7da$\x7b1\x7d$b\x23$\x7b").answers 6
    = [.error (.emptyPlaceholder 0), .ok (.literal "a"), .error (.invalidName "1" 5),
      .ok (.variable "b"), .ok (.literal "#"), .error (.unterminated 12)] := by
  decide +kernel

end SqlFragments.Placeholder
