import SqlFragments.Markup.Tag

/-! # Reading markup

A reader goes through a document from one event to the next: tags, stretches of text, and
markup that says nothing about the content. It keeps the names of the open elements, so that an
end tag is let through only if it belongs to the innermost of them. Elements that are still open
at the end of the document are no error.

* `Reader.next_length_lt`: every event uses up some of the document;
* `Reader.skip` reads on to the end of an element. -/

namespace SqlFragments.Markup

open SqlFragments.Text

/-- What a document is made of. -/
inductive Event where
  /-- The start tag of an element. -/
  | open (tag : Tag)
  /-- An element written as one tag. -/
  | empty (tag : Tag)
  /-- The end tag of the innermost open element, by its full name. -/
  | close (name : List Char)
  /-- Text with entities. -/
  | text (raw : List Char)
  /-- Text that stands for itself. -/
  | cdata (raw : List Char)
  /-- A comment, a processing instruction, a declaration or a document type. -/
  | aside
  deriving DecidableEq, Repr

/-- A place in a document. -/
structure Reader where
  /-- The document from there on. -/
  rest : List Char
  /-- The full names of the open elements, innermost first. -/
  opened : List (List Char)
  deriving DecidableEq, Repr

/-- The start of a document, behind a byte order mark. -/
def Reader.start (document : String) : Reader :=
  match document.toList with
  | '\uFEFF' :: cs => ⟨cs, []⟩
  | cs => ⟨cs, []⟩

/-- The text of a tag up to the first angle bracket outside of quotes, and what follows that
bracket. `quote` is the quote that is open. -/
def spanTag (quote : Option Char) : List Char → Option (List Char × List Char)
  | [] => none
  | c :: cs =>
    match quote with
    | some q =>
      (spanTag (if c = q then none else some q) cs).map fun p => (c :: p.1, p.2)
    | none =>
      if c = '>' then some ([], cs)
      else
        (spanTag (if c = '"' ∨ c = '\'' then some c else none) cs).map fun p => (c :: p.1, p.2)

/-- The text up to the angle bracket that closes as many as are open, `depth` inner ones among
them, and what follows it. -/
def spanNested (depth : Nat) : List Char → Option (List Char × List Char)
  | [] => none
  | c :: cs =>
    if c = '<' then (spanNested (depth + 1) cs).map fun p => (c :: p.1, p.2)
    else if c = '>' then
      match depth with
      | 0 => some ([], cs)
      | depth + 1 => (spanNested depth cs).map fun p => (c :: p.1, p.2)
    else (spanNested depth cs).map fun p => (c :: p.1, p.2)

/-- Whether a text begins with a word in capitals, written in any case, and what follows it. -/
def dropWord : List Char → List Char → Option (List Char)
  | [], cs => some cs
  | _ :: _, [] => none
  | w :: word, c :: cs => if c.toUpper = w then dropWord word cs else none

/-- An end tag without the spaces at its end, unless it is made of spaces alone. -/
def closingName (content : List Char) : List Char :=
  match (content.reverse.dropWhile isSpace).reverse with
  | [] => content
  | name => name

/-- Reads a document type, given the text behind the exclamation mark. -/
def readDoctype (opened : List (List Char)) (cs : List Char) :
    Except MarkupError (Event × Reader) :=
  match dropWord "DOCTYPE".toList cs with
  | none => .error .unclosedDoctype
  | some cs =>
    match spanNested 0 cs with
    | none => .error .unclosedDoctype
    | some (content, rest) =>
      if content.all isSpace then .error .missingDoctypeName else .ok (.aside, ⟨rest, opened⟩)

/-- Reads a section of literal text, given the text behind the exclamation mark. -/
def readCData (opened : List (List Char)) (cs : List Char) :
    Except MarkupError (Event × Reader) :=
  match "[CDATA[".toList.isPrefixOf? cs with
  | none => .error .unclosedCData
  | some cs =>
    match breakAt "]]>".toList cs with
    | none => .error .unclosedCData
    | some (content, rest) => .ok (.cdata content, ⟨rest, opened⟩)

/-- Reads a comment, given the text behind the exclamation mark. -/
def readComment (opened : List (List Char)) (cs : List Char) :
    Except MarkupError (Event × Reader) :=
  match "--".toList.isPrefixOf? cs with
  | none => .error .unclosedComment
  | some cs =>
    match breakAt "-->".toList cs with
    | none => .error .unclosedComment
    | some (_, rest) => .ok (.aside, ⟨rest, opened⟩)

/-- Reads markup that begins with an exclamation mark, given the text behind it. -/
def readBang (opened : List (List Char)) (cs : List Char) : Except MarkupError (Event × Reader) :=
  match cs with
  | '-' :: _ => readComment opened cs
  | '[' :: _ => readCData opened cs
  | 'D' :: _ => readDoctype opened cs
  | 'd' :: _ => readDoctype opened cs
  | _ => .error .invalidBang

/-- Reads a processing instruction or a declaration, given the text behind the question mark. One
question mark does not both open and close it. -/
def readInstruction (opened : List (List Char)) (cs : List Char) :
    Except MarkupError (Event × Reader) :=
  match cs with
  -- this bracket ends the markup at once, so a later `?>` does not close it
  | '>' :: _ => .error .unclosedInstruction
  | _ =>
    match breakAt "?>".toList cs with
    | none => .error .unclosedInstruction
    | some (_, rest) => .ok (.aside, ⟨rest, opened⟩)

/-- Reads an end tag, given the text behind the slash. -/
def readEndTag (opened : List (List Char)) (cs : List Char) :
    Except MarkupError (Event × Reader) :=
  match spanTag none cs with
  | none => .error .unclosedTag
  | some (content, rest) =>
    let name := closingName content
    match opened with
    | [] => .error (.unmatchedEndTag (String.ofList name))
    | expected :: outer =>
      if name = expected then .ok (.close name, ⟨rest, outer⟩)
      else .error (.mismatchedEndTag (String.ofList expected) (String.ofList name))

/-- Reads a start tag or an element in one tag, given the text behind the bracket. -/
def readStartTag (opened : List (List Char)) (cs : List Char) :
    Except MarkupError (Event × Reader) :=
  match spanTag none cs with
  | none => .error .unclosedTag
  | some (content, rest) =>
    if content.getLast? = some '/' then .ok (.empty ⟨content.dropLast⟩, ⟨rest, opened⟩)
    else .ok (.open ⟨content⟩, ⟨rest, Tag.name ⟨content⟩ :: opened⟩)

/-- Reads markup, given the text behind the opening angle bracket. -/
def readMarkup (opened : List (List Char)) (cs : List Char) :
    Except MarkupError (Event × Reader) :=
  match cs with
  | '!' :: cs => readBang opened cs
  | '?' :: cs => readInstruction opened cs
  | '/' :: cs => readEndTag opened cs
  | cs => readStartTag opened cs

/-- Reads the next event, if there is one. -/
def Reader.next (reader : Reader) : Except MarkupError (Option (Event × Reader)) :=
  match reader.rest with
  | [] => .ok none
  | '<' :: cs =>
    match readMarkup reader.opened cs with
    | .error e => .error e
    | .ok r => .ok (some r)
  | c :: cs =>
    .ok (some (.text (c :: cs.takeWhile (· != '<')), ⟨cs.dropWhile (· != '<'), reader.opened⟩))

/-! ## Progress -/

/-- What follows a tag is no longer than the text that it was read from. -/
theorem spanTag_length_le {quote : Option Char} {cs content rest : List Char}
    (h : spanTag quote cs = some (content, rest)) : rest.length ≤ cs.length := by
  induction cs generalizing quote content with
  | nil => simp [spanTag] at h
  | cons c cs ih =>
    simp only [spanTag] at h
    split at h
    · simp only [Option.map_eq_some_iff, Prod.mk.injEq, Prod.exists] at h
      obtain ⟨_, r, h, -, rfl⟩ := h
      exact Nat.le_succ_of_le (ih h)
    · split at h
      · simp only [Option.some.injEq, Prod.mk.injEq] at h
        simp [h.2]
      · simp only [Option.map_eq_some_iff, Prod.mk.injEq, Prod.exists] at h
        obtain ⟨_, r, h, -, rfl⟩ := h
        exact Nat.le_succ_of_le (ih h)

/-- What follows nested brackets is no longer than the text that they were read from. -/
theorem spanNested_length_le {depth : Nat} {cs content rest : List Char}
    (h : spanNested depth cs = some (content, rest)) : rest.length ≤ cs.length := by
  induction cs generalizing depth content with
  | nil => simp [spanNested] at h
  | cons c cs ih =>
    simp only [spanNested] at h
    split at h
    · simp only [Option.map_eq_some_iff, Prod.mk.injEq, Prod.exists] at h
      obtain ⟨_, r, h, -, rfl⟩ := h
      exact Nat.le_succ_of_le (ih h)
    · split at h
      · split at h
        · simp only [Option.some.injEq, Prod.mk.injEq] at h
          simp [h.2]
        · simp only [Option.map_eq_some_iff, Prod.mk.injEq, Prod.exists] at h
          obtain ⟨_, r, h, -, rfl⟩ := h
          exact Nat.le_succ_of_le (ih h)
      · simp only [Option.map_eq_some_iff, Prod.mk.injEq, Prod.exists] at h
        obtain ⟨_, r, h, -, rfl⟩ := h
        exact Nat.le_succ_of_le (ih h)

/-- What follows a word is no longer than the text that it was read from. -/
theorem dropWord_length_le {word cs rest : List Char} (h : dropWord word cs = some rest) :
    rest.length ≤ cs.length := by
  induction word generalizing cs with
  | nil =>
    simp only [dropWord, Option.some.injEq] at h
    simp [h]
  | cons w word ih =>
    cases cs with
    | nil => simp [dropWord] at h
    | cons c cs =>
      simp only [dropWord] at h
      split at h
      · exact Nat.le_succ_of_le (ih h)
      · simp at h

/-- Reading a document type does not go back. -/
theorem readDoctype_length_le {opened : List (List Char)} {cs : List Char} {r : Event × Reader}
    (h : readDoctype opened cs = .ok r) : r.2.rest.length ≤ cs.length := by
  simp only [readDoctype] at h
  split at h
  · simp at h
  · rename_i heq
    split at h
    · simp at h
    · rename_i heq'
      split at h
      · simp at h
      · simp only [Except.ok.injEq] at h
        subst h
        exact Nat.le_trans (spanNested_length_le heq') (dropWord_length_le heq)

/-- Reading a section of literal text does not go back. -/
theorem readCData_length_le {opened : List (List Char)} {cs : List Char} {r : Event × Reader}
    (h : readCData opened cs = .ok r) : r.2.rest.length ≤ cs.length := by
  simp only [readCData] at h
  split at h
  · simp at h
  · rename_i heq
    split at h
    · simp at h
    · rename_i heq'
      simp only [Except.ok.injEq] at h
      subst h
      exact Nat.le_trans (breakAt_length_le heq') (length_le_of_isPrefixOf? heq)

/-- Reading a comment does not go back. -/
theorem readComment_length_le {opened : List (List Char)} {cs : List Char} {r : Event × Reader}
    (h : readComment opened cs = .ok r) : r.2.rest.length ≤ cs.length := by
  simp only [readComment] at h
  split at h
  · simp at h
  · rename_i heq
    split at h
    · simp at h
    · rename_i heq'
      simp only [Except.ok.injEq] at h
      subst h
      exact Nat.le_trans (breakAt_length_le heq') (length_le_of_isPrefixOf? heq)

/-- Whatever begins with an exclamation mark, reading it does not go back. -/
theorem readBang_length_le {opened : List (List Char)} {cs : List Char} {r : Event × Reader}
    (h : readBang opened cs = .ok r) : r.2.rest.length ≤ cs.length := by
  unfold readBang at h
  split at h
  · exact readComment_length_le h
  · exact readCData_length_le h
  · exact readDoctype_length_le h
  · exact readDoctype_length_le h
  · simp at h

/-- Reading a processing instruction does not go back. -/
theorem readInstruction_length_le {opened : List (List Char)} {cs : List Char}
    {r : Event × Reader} (h : readInstruction opened cs = .ok r) :
    r.2.rest.length ≤ cs.length := by
  unfold readInstruction at h
  split at h
  · simp at h
  · split at h
    · simp at h
    · rename_i heq
      simp only [Except.ok.injEq] at h
      subst h
      exact breakAt_length_le heq

/-- Reading an end tag does not go back. -/
theorem readEndTag_length_le {opened : List (List Char)} {cs : List Char} {r : Event × Reader}
    (h : readEndTag opened cs = .ok r) : r.2.rest.length ≤ cs.length := by
  simp only [readEndTag] at h
  split at h
  · simp at h
  · rename_i heq
    split at h
    · simp at h
    · split at h
      · simp only [Except.ok.injEq] at h
        subst h
        exact spanTag_length_le heq
      · simp at h

/-- Reading a start tag does not go back. -/
theorem readStartTag_length_le {opened : List (List Char)} {cs : List Char} {r : Event × Reader}
    (h : readStartTag opened cs = .ok r) : r.2.rest.length ≤ cs.length := by
  simp only [readStartTag] at h
  split at h
  · simp at h
  · rename_i heq
    split at h <;>
    · simp only [Except.ok.injEq] at h
      subst h
      exact spanTag_length_le heq

/-- No kind of markup takes the reader back. -/
theorem readMarkup_length_le {opened : List (List Char)} {cs : List Char} {r : Event × Reader}
    (h : readMarkup opened cs = .ok r) : r.2.rest.length ≤ cs.length := by
  unfold readMarkup at h
  split at h
  · exact Nat.le_succ_of_le (readBang_length_le h)
  · exact Nat.le_succ_of_le (readInstruction_length_le h)
  · exact Nat.le_succ_of_le (readEndTag_length_le h)
  · exact readStartTag_length_le h

/-- **Progress.** Every event uses up some of the document. -/
theorem Reader.next_length_lt {reader after : Reader} {event : Event}
    (h : reader.next = .ok (some (event, after))) :
    after.rest.length < reader.rest.length := by
  obtain ⟨rest, opened⟩ := reader
  simp only [Reader.next] at h
  split at h
  · simp at h
  · split at h
    · simp at h
    · rename_i heq
      simp only [Except.ok.injEq, Option.some.injEq] at h
      have := readMarkup_length_le heq
      rw [h] at this
      exact Nat.lt_succ_of_le this
  · rename_i c cs _
    simp only [Except.ok.injEq, Option.some.injEq, Prod.mk.injEq] at h
    obtain ⟨-, rfl⟩ := h
    exact Nat.lt_succ_of_le (List.dropWhile_sublist _).length_le

/-! ## Skipping -/

/-- Reads on to the end tag of an element of the given full name, inside of which `depth` others
of that name are open. Tags are checked, attributes and entities are not. -/
def Reader.skip (name : List Char) (depth : Nat) (reader : Reader) : Except MarkupError Reader :=
  match _h : reader.next with
  | .error e => .error e
  | .ok none => .error (.missingEndTag (String.ofList name))
  | .ok (some (event, after)) =>
    match event with
    -- only elements of the same name count: others are balanced by the reader itself
    | .open tag => after.skip name (if tag.name = name then depth + 1 else depth)
    | .close closed =>
      if closed = name then
        match depth with
        | 0 => .ok after
        | depth + 1 => after.skip name depth
      else after.skip name depth
    | _ => after.skip name depth
termination_by reader.rest.length
decreasing_by all_goals exact Reader.next_length_lt _h

/-- Skipping to an end tag does not go back. -/
theorem Reader.skip_length_le {name : List Char} {depth : Nat} {reader after : Reader}
    (h : reader.skip name depth = .ok after) : after.rest.length ≤ reader.rest.length := by
  induction hn : reader.rest.length using Nat.strongRecOn generalizing reader depth with
  | ind n ih =>
    subst hn
    unfold Reader.skip at h
    split at h
    · simp at h
    · simp at h
    · rename_i event next heq
      have hlt := Reader.next_length_lt heq
      split at h
      · exact Nat.le_of_lt (Nat.lt_of_le_of_lt (ih _ hlt h rfl) hlt)
      · split at h
        · split at h
          · simp only [Except.ok.injEq] at h
            exact Nat.le_of_lt (h ▸ hlt)
          · exact Nat.le_of_lt (Nat.lt_of_le_of_lt (ih _ hlt h rfl) hlt)
        · exact Nat.le_of_lt (Nat.lt_of_le_of_lt (ih _ hlt h rfl) hlt)
      · exact Nat.le_of_lt (Nat.lt_of_le_of_lt (ih _ hlt h rfl) hlt)

end SqlFragments.Markup
