import SqlFragments.Markup.Entity
import SqlFragments.Node.Basic

/-! # Tags and their attributes

What stands in a start tag: the name of the element and its attributes. Elements and attributes
are known by their local names, what follows the first colon; that no attribute stands twice is
checked on full names. -/

namespace SqlFragments.Markup

open SqlFragments.Text

/-- The part of a name behind its first colon, or the whole name. -/
def localName (name : List Char) : List Char :=
  match name.dropWhile (· != ':') with
  | [] => name
  | _ :: rest => rest

/-- The text of a start tag or of an empty element, without the angle brackets and without the
slash at its end. -/
structure Tag where
  content : List Char
  deriving DecidableEq, Repr

/-- The full name of the element. -/
def Tag.name (tag : Tag) : List Char := tag.content.takeWhile (! isSpace ·)

/-- The local name of the element. -/
def Tag.localName (tag : Tag) : List Char := Markup.localName tag.name

/-- An attribute as it stands in a tag. -/
structure RawAttribute where
  /-- The full name. -/
  key : List Char
  /-- Where the name begins. -/
  place : Nat
  /-- The text between the quotes. -/
  value : List Char
  deriving DecidableEq, Repr

/-- Reads the value of an attribute, `cs` being the text behind the equals sign. `place` gives the
place where a rest of the tag begins. -/
def readValue (place : List Char → Nat) (cs : List Char) :
    Except AttributeError (List Char × List Char) :=
  match cs.dropWhile isSpace with
  | [] => .error (.expectedValue (place []))
  | quote :: rest =>
    if quote = '"' ∨ quote = '\'' then
      match rest.dropWhile (· != quote) with
      | [] => .error (.expectedQuote (place []) quote)
      | _ :: after => .ok (rest.takeWhile (· != quote), after)
    else .error (.unquotedValue (place (quote :: rest)))

/-- Reads the next attribute, if there is one. `earlier` are those read before, the latest first,
and `place` gives the place where a rest of the tag begins. -/
def readAttribute (place : List Char → Nat) (earlier : List RawAttribute) (cs : List Char) :
    Except AttributeError (Option (RawAttribute × List Char)) :=
  match cs.dropWhile isSpace with
  | [] => .ok none
  | c :: rest =>
    let key := c :: rest.takeWhile fun d => d != '=' && !isSpace d
    let start := place (c :: rest)
    match (rest.dropWhile fun d => d != '=' && !isSpace d).dropWhile isSpace with
    | '=' :: after =>
      match earlier.find? (·.key = key) with
      | some previous => .error (.duplicated start previous.place)
      | none =>
        match readValue place after with
        | .error e => .error e
        | .ok (value, more) => .ok (some (⟨key, start, value⟩, more))
    | other => .error (.expectedEq (place other))

/-- What follows a value is no longer than the text that it was read from. -/
theorem readValue_length_le {place : List Char → Nat} {cs value rest : List Char}
    (h : readValue place cs = .ok (value, rest)) : rest.length ≤ cs.length := by
  have h₁ : (cs.dropWhile isSpace).length ≤ cs.length := (List.dropWhile_sublist _).length_le
  simp only [readValue] at h
  split at h
  · simp at h
  · rename_i quote more heq
    rw [heq, List.length_cons] at h₁
    split at h
    · split at h
      · simp at h
      · rename_i after heq'
        have h₂ : (more.dropWhile (· != quote)).length ≤ more.length :=
          (List.dropWhile_sublist _).length_le
        simp only [Except.ok.injEq, Prod.mk.injEq] at h
        rw [heq', List.length_cons, h.2] at h₂
        omega
    · simp at h

/-- **Progress.** Every attribute uses up some of the tag. -/
theorem readAttribute_length_lt {place : List Char → Nat} {earlier : List RawAttribute}
    {cs rest : List Char} {attr : RawAttribute}
    (h : readAttribute place earlier cs = .ok (some (attr, rest))) : rest.length < cs.length := by
  have h₁ : (cs.dropWhile isSpace).length ≤ cs.length := (List.dropWhile_sublist _).length_le
  simp only [readAttribute] at h
  split at h
  · simp at h
  · rename_i c more heq
    rw [heq, List.length_cons] at h₁
    split at h
    · rename_i after heq'
      -- behind the key come the blanks before the equals sign
      have h₂ := ((List.dropWhile_sublist isSpace).trans
        (List.dropWhile_sublist (l := more) fun d => d != '=' && !isSpace d)).length_le
      rw [heq', List.length_cons] at h₂
      split at h
      · simp at h
      · split at h
        · simp at h
        · rename_i heq''
          have h₃ := readValue_length_le heq''
          simp only [Except.ok.injEq, Option.some.injEq, Prod.mk.injEq] at h
          rw [h.2] at h₃
          omega
    · simp at h

/-- Reads attributes one after the other and replaces the entities of each value before the next
attribute is looked at. -/
def readAttributes (place : List Char → Nat) (earlier : List RawAttribute) (cs : List Char) :
    Except MarkupError (List Attribute) :=
  match _h : readAttribute place earlier cs with
  | .error e => .error (.attribute e)
  | .ok none => .ok []
  | .ok (some (attr, rest)) =>
    match unescape attr.value with
    | .error e => .error (.entity e)
    | .ok value =>
      match readAttributes place (attr :: earlier) rest with
      | .error e => .error e
      | .ok attrs =>
        .ok (⟨String.ofList (localName attr.key), String.ofList value⟩ :: attrs)
termination_by cs.length
decreasing_by exact readAttribute_length_lt _h

/-- The attributes of a tag, by their local names and with entities replaced. -/
def Tag.attributes (tag : Tag) : Except MarkupError (List Attribute) :=
  let place (rest : List Char) : Nat := byteLength tag.content - byteLength rest
  readAttributes place [] (tag.content.dropWhile (! isSpace ·))

end SqlFragments.Markup
