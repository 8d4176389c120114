import SqlFragments.Proofs.Markup.Events

/-! # Writing tags and texts

Texts and the values of attributes are written with entities for the marks of markup, tags with
their attributes in double quotes.

* `unescape_escape`: the entities are replaced by what they stand for;
* `Tag.attributes_write`: the attributes of a written tag are read back;
* `Tag.wellFormed_write`: a written tag is well-spelled. -/

namespace SqlFragments.Markup

open SqlFragments.Text

/-! ## Entities -/

/-- The name of the entity for a mark. -/
def entityName : Char → Option (List Char)
  | '<' => some ['l', 't']
  | '>' => some ['g', 't']
  | '&' => some ['a', 'm', 'p']
  | '\'' => some ['a', 'p', 'o', 's']
  | '"' => some ['q', 'u', 'o', 't']
  | _ => none

/-- A character as it is written where some marks have a meaning of their own. -/
def escapeChar (marks : List Char) (c : Char) : List Char :=
  match entityName c with
  | some name => if c ∈ marks then '&' :: (name ++ [';']) else [c]
  | none => [c]

/-- The written form of a text where some marks have a meaning of their own. -/
def escape (marks cs : List Char) : List Char := cs.flatMap (escapeChar marks)

/-- The marks of text. -/
def textMarks : List Char := ['&', '<', '>']

/-- The marks of the values of attributes. -/
def valueMarks : List Char := ['&', '<', '>', '"', '\'']

/-- Nothing is written as nothing. -/
theorem escape_nil (marks : List Char) : escape marks [] = [] := rfl

/-- Characters are written one after the other. -/
theorem escape_cons (marks : List Char) (c : Char) (cs : List Char) :
    escape marks (c :: cs) = escapeChar marks c ++ escape marks cs :=
  List.flatMap_cons

/-- A character is written as one character or more. -/
theorem escapeChar_ne_nil (marks : List Char) (c : Char) : escapeChar marks c ≠ [] := by
  rw [escapeChar]
  split
  · split <;> exact List.cons_ne_nil _ _
  · exact List.cons_ne_nil _ _

/-- So a text that is there is written as one that is. -/
theorem escape_ne_nil {cs : List Char} (h : cs ≠ []) (marks : List Char) :
    escape marks cs ≠ [] := by
  obtain ⟨c, cs, rfl⟩ := List.exists_cons_of_ne_nil h
  rw [escape_cons]
  exact List.append_ne_nil_of_left_ne_nil (escapeChar_ne_nil marks c) _

/-- The name of an entity stands for its mark and holds no mark itself. -/
theorem entityName_eq_some {c : Char} {name : List Char} (h : entityName c = some name) :
    namedCharacter name = some c ∧ name.head? ≠ some '#' ∧
      ∀ d ∈ name, entityName d = none ∧ d ≠ ';' := by
  -- the last kind of character has no entity, and all others are alike
  unfold entityName at h
  split at h
  case h_6 => cases h
  all_goals
    cases h
    exact ⟨rfl, by decide, by simp [entityName]⟩

/-- An entity is read as its mark, at every place. -/
theorem unescapeFrom_entity {c : Char} {name : List Char} (h : entityName c = some name)
    {cs ds : List Char} (hcs : ∀ place, unescapeFrom place cs = .ok ds) (place : Nat) :
    unescapeFrom place ('&' :: (name ++ ';' :: cs)) = .ok (c :: ds) := by
  obtain ⟨hcharacter, hnumber, hname⟩ := entityName_eq_some h
  have hall : ∀ d ∈ name, (d != '&' && d != ';') = true := by
    intro d hd
    obtain ⟨hmark, hend⟩ := hname d hd
    have hamp : d ≠ '&' := by
      rintro rfl
      cases hmark
    simp [hamp, hend]
  have hend : (';' != '&' && ';' != ';') = false := rfl
  obtain ⟨htake, hdrop⟩ := span_append (p := fun d => d != '&' && d != ';') hall hend cs
  rw [unescapeFrom, if_pos rfl, htake]
  split
  · rename_i rest heq
    rw [hdrop] at heq
    cases heq
    simp only [hcharacter, hcs]
    split
    · exact absurd rfl hnumber
    · rfl
  · rename_i hother
    exact absurd hdrop (hother cs)

/-- Any other character is read as it stands. -/
theorem unescapeFrom_cons {c : Char} (h : c ≠ '&') {cs ds : List Char}
    (hcs : ∀ place, unescapeFrom place cs = .ok ds) (place : Nat) :
    unescapeFrom place (c :: cs) = .ok (c :: ds) := by
  rw [unescapeFrom, if_neg h, hcs]
  rfl

/-- **Entities are read back**, if their own mark is among those that are written so. -/
theorem unescape_escape {marks : List Char} (h : '&' ∈ marks) (cs : List Char) :
    unescape (escape marks cs) = .ok cs := by
  -- places matter for errors only, and there are none
  suffices hall : ∀ place, unescapeFrom place (escape marks cs) = .ok cs from hall 0
  induction cs with
  | nil =>
    intro place
    rw [escape_nil, unescapeFrom]
  | cons c cs ih =>
    intro place
    rw [escape_cons, escapeChar]
    cases hname : entityName c with
    | none =>
      have hc : c ≠ '&' := by
        rintro rfl
        cases hname
      exact unescapeFrom_cons hc ih place
    | some name =>
      by_cases hc : c ∈ marks
      · simp only [if_pos hc, List.cons_append, List.append_assoc, List.nil_append]
        exact unescapeFrom_entity hname ih place
      · simp only [if_neg hc]
        have hamp : c ≠ '&' := by
          rintro rfl
          exact hc h
        exact unescapeFrom_cons hamp ih place

/-- Of the marks, none but that of the entities themselves stands in a written text. -/
theorem eq_of_mem_escape {marks cs : List Char} {d : Char} (h : d ∈ escape marks cs)
    (hmark : d ∈ marks) (hname : entityName d ≠ none) : d = '&' := by
  obtain ⟨c, -, hc⟩ := List.mem_flatMap.1 h
  rw [escapeChar] at hc
  cases hentity : entityName c with
  | none =>
    rw [hentity] at hc
    rw [List.mem_singleton.1 hc] at hname
    exact absurd hentity hname
  | some name =>
    rw [hentity] at hc
    simp only at hc
    split at hc
    · rw [List.mem_cons, List.mem_append, List.mem_singleton] at hc
      rcases hc with hamp | hmem | hend
      · exact hamp
      · exact absurd ((entityName_eq_some hentity).2.2 d hmem).1 hname
      · rw [hend] at hname
        exact absurd rfl hname
    · rename_i hc'
      rw [List.mem_singleton.1 hc] at hmark
      exact absurd hmark hc'

/-! ## Tags -/

/-- Whether a text can be the name of an element or of an attribute without further ado. -/
def isPlainName (name : List Char) : Bool :=
  name ≠ [] && name.all fun c => !isSpace c && c ∉ ['=', ':', '"', '\'', '>', '/', '!', '?']

/-- The written form of attributes. -/
def writeAttributes : List Attribute → List Char
  | [] => []
  | attr :: attrs =>
    ' ' :: (attr.name.toList
      ++ '=' :: '"' :: (escape valueMarks attr.value.toList ++ '"' :: writeAttributes attrs))

/-- A tag with a name and attributes. -/
def Tag.write (name : String) (attrs : List Attribute) : Tag :=
  ⟨name.toList ++ writeAttributes attrs⟩

/-- What a plain name is: spaces and the marks of tags are not in it. -/
theorem isPlainName_iff {name : List Char} :
    isPlainName name ↔ name ≠ [] ∧ ∀ c ∈ name, isSpace c = false ∧ c ≠ '=' ∧ c ≠ ':' ∧ c ≠ '"' ∧
      c ≠ '\'' ∧ c ≠ '>' ∧ c ≠ '/' ∧ c ≠ '!' ∧ c ≠ '?' := by
  simp [isPlainName]

/-- A plain name goes on through all of its characters. -/
theorem not_isSpace_of_isPlainName {name : List Char} (h : isPlainName name) :
    ∀ c ∈ name, (! isSpace c) = true := by
  intro c hc
  rw [((isPlainName_iff.1 h).2 c hc).1, Bool.not_false]

/-- A written name ends where the attributes begin. -/
theorem takeWhile_append_writeAttributes {name : List Char} (h : isPlainName name)
    (attrs : List Attribute) :
    (name ++ writeAttributes attrs).takeWhile (! isSpace ·) = name := by
  rw [List.takeWhile_append_of_pos (not_isSpace_of_isPlainName h)]
  cases attrs with
  | nil => exact List.append_nil _
  | cons attr attrs => exact List.append_nil _

/-- Behind a written name there are the attributes. -/
theorem dropWhile_append_writeAttributes {name : List Char} (h : isPlainName name)
    (attrs : List Attribute) :
    (name ++ writeAttributes attrs).dropWhile (! isSpace ·) = writeAttributes attrs := by
  rw [List.dropWhile_append_of_pos (not_isSpace_of_isPlainName h)]
  cases attrs <;> rfl

/-- A plain name has no prefix. -/
theorem localName_of_isPlainName {name : List Char} (h : isPlainName name) :
    localName name = name := by
  have hdrop : name.dropWhile (· != ':') = [] := by
    rw [List.dropWhile_eq_nil_iff]
    intro c hc
    rw [bne_iff_ne]
    exact ((isPlainName_iff.1 h).2 c hc).2.2.1
  rw [localName, hdrop]

/-- A written tag has the name that it is written with. -/
theorem Tag.localName_write {name : String} (h : isPlainName name.toList)
    (attrs : List Attribute) : (Tag.write name attrs).localName = name.toList := by
  rw [Tag.localName, Tag.name, Tag.write, takeWhile_append_writeAttributes h,
    localName_of_isPlainName h]

/-- The value of an attribute is written without quotes. -/
theorem quote_notMem_escape (cs : List Char) : '"' ∉ escape valueMarks cs := fun h =>
  absurd (eq_of_mem_escape h (by decide) (by decide)) (by decide)

/-- So its reader stops at the quote behind it. -/
theorem readValue_write (place : List Char → Nat) (value rest : List Char) :
    readValue place ('"' :: (escape valueMarks value ++ '"' :: rest))
      = .ok (escape valueMarks value, rest) := by
  have hall : ∀ d ∈ escape valueMarks value, (d != '"') = true := fun d hd =>
    bne_iff_ne.2 (ne_of_mem_of_not_mem hd (quote_notMem_escape value))
  have hquote : ('"' != '"') = false := rfl
  obtain ⟨htake, hdrop⟩ := span_append (p := (· != '"')) hall hquote rest
  rw [readValue, List.dropWhile_cons_of_neg (by decide)]
  simp only [hdrop, htake, true_or, if_true]

/-- **A written attribute is read back.** -/
theorem readAttribute_write (place : List Char → Nat) {earlier : List RawAttribute}
    {attr : Attribute} (h : isPlainName attr.name.toList)
    (hnew : ∀ previous ∈ earlier, previous.key ≠ attr.name.toList) (attrs : List Attribute) :
    ∃ start, readAttribute place earlier (writeAttributes (attr :: attrs))
      = .ok (some (⟨attr.name.toList, start, escape valueMarks attr.value.toList⟩,
          writeAttributes attrs)) := by
  obtain ⟨hne, hplain⟩ := isPlainName_iff.1 h
  obtain ⟨c, cs, hname⟩ := List.exists_cons_of_ne_nil hne
  rw [hname] at hplain hnew
  have hspace : isSpace c = false := (hplain c List.mem_cons_self).1
  have hall : ∀ d ∈ cs, (d != '=' && !isSpace d) = true := by
    intro d hd
    obtain ⟨hd, heq, -⟩ := hplain d (List.mem_cons_of_mem c hd)
    simp [hd, heq]
  have hearlier : earlier.find? (·.key = c :: cs) = none := by
    rw [List.find?_eq_none]
    intro previous hprevious
    simpa using hnew previous hprevious
  have hend : ('=' != '=' && !isSpace '=') = false := rfl
  obtain ⟨htake, hdrop⟩ := span_append (p := fun d => d != '=' && !isSpace d) hall hend
    ('"' :: (escape valueMarks attr.value.toList ++ '"' :: writeAttributes attrs))
  have hvalue := readValue_write place attr.value.toList (writeAttributes attrs)
  refine ⟨place (c :: (cs ++ '=' :: '"' :: (escape valueMarks attr.value.toList
    ++ '"' :: writeAttributes attrs))), ?_⟩
  have hequals : isSpace '=' = false := rfl
  rw [readAttribute, writeAttributes, hname, List.cons_append,
    List.dropWhile_cons_of_pos (by rfl), List.dropWhile_cons_of_neg (by simp [hspace])]
  -- the name ends at the equals sign and the value at its quote
  simp only [htake, hdrop, hearlier, List.dropWhile_cons, hequals, Bool.false_eq_true, if_false,
    hvalue]

/-- Several attributes are read back one after the other, behind others with names of their own. -/
theorem readAttributes_write (place : List Char → Nat) {earlier : List RawAttribute}
    {attrs : List Attribute} (h : ∀ attr ∈ attrs, isPlainName attr.name.toList)
    (hnodup : (attrs.map (·.name)).Nodup)
    (hnew : ∀ previous ∈ earlier, ∀ attr ∈ attrs, previous.key ≠ attr.name.toList) :
    readAttributes place earlier (writeAttributes attrs) = .ok attrs := by
  -- on the attributes that are left, with those read so far
  induction attrs generalizing earlier with
  | nil =>
    rw [readAttributes]
    rfl
  | cons attr attrs ih =>
    rw [List.map_cons, List.nodup_cons] at hnodup
    have hattr := h attr List.mem_cons_self
    obtain ⟨start, hread⟩ := readAttribute_write place hattr
      (fun previous hprevious => hnew previous hprevious attr List.mem_cons_self) attrs
    have hvalue : unescape (escape valueMarks attr.value.toList) = .ok attr.value.toList :=
      unescape_escape (by decide) _
    have hrest : readAttributes place
        (⟨attr.name.toList, start, escape valueMarks attr.value.toList⟩ :: earlier)
        (writeAttributes attrs) = .ok attrs := by
      refine ih (fun other hother => h other (List.mem_cons_of_mem attr hother)) hnodup.2 ?_
      intro previous hprevious other hother
      rcases List.mem_cons.1 hprevious with rfl | hprevious
      · -- the attribute just read is not named again
        intro heq
        exact hnodup.1 (String.toList_inj.1 heq ▸ List.mem_map_of_mem hother)
      · exact hnew previous hprevious other (List.mem_cons_of_mem attr hother)
    have hlocal := localName_of_isPlainName hattr
    rw [readAttributes]
    split
    · rename_i heq
      rw [hread] at heq
      cases heq
    · rename_i heq
      rw [hread] at heq
      cases heq
    · rename_i heq
      rw [hread] at heq
      cases heq
      simp only [hvalue, hrest, hlocal, String.ofList_toList]

/-- **The attributes of a written tag are read back.** -/
theorem Tag.attributes_write {name : String} (hname : isPlainName name.toList)
    {attrs : List Attribute} (h : ∀ attr ∈ attrs, isPlainName attr.name.toList)
    (hnodup : (attrs.map (·.name)).Nodup) : (Tag.write name attrs).attributes = .ok attrs := by
  rw [Tag.attributes, Tag.write, dropWhile_append_writeAttributes hname]
  exact readAttributes_write _ h hnodup fun _ hprevious => absurd hprevious List.not_mem_nil

/-! ## Spelling -/

/-- A plain name opens no quotes. -/
theorem quotesClosed_of_isPlainName {name : List Char} (h : isPlainName name) :
    quotesClosed none name := by
  obtain ⟨-, hplain⟩ := isPlainName_iff.1 h
  clear h
  induction name with
  | nil => rfl
  | cons c cs ih =>
    obtain ⟨-, -, -, hdouble, hsingle, hbracket, -⟩ := hplain c List.mem_cons_self
    have hrest := ih fun d hd => hplain d (List.mem_cons_of_mem c hd)
    simp [quotesClosed, hdouble, hsingle, hbracket, hrest]

/-- A quote stays open up to the next quote of its kind. -/
theorem quotesClosed_quoted {quote : Char} {cs : List Char} (h : quote ∉ cs) (rest : List Char) :
    quotesClosed (some quote) (cs ++ quote :: rest) = quotesClosed none rest := by
  induction cs with
  | nil => simp [quotesClosed]
  | cons c cs ih =>
    rw [List.mem_cons, not_or] at h
    rw [List.cons_append, quotesClosed, if_neg (Ne.symm h.1), ih h.2]

/-- Written attributes close their quotes. -/
theorem quotesClosed_writeAttributes {attrs : List Attribute}
    (h : ∀ attr ∈ attrs, isPlainName attr.name.toList) :
    quotesClosed none (writeAttributes attrs) := by
  induction attrs with
  | nil => rfl
  | cons attr attrs ih =>
    have hname := quotesClosed_of_isPlainName (h attr List.mem_cons_self)
    have hvalue := quotesClosed_quoted (quote_notMem_escape attr.value.toList)
      (writeAttributes attrs)
    have hrest := ih fun other hother => h other (List.mem_cons_of_mem attr hother)
    have hequals : quotesClosed none ('=' :: '"' :: (escape valueMarks attr.value.toList
        ++ '"' :: writeAttributes attrs)) := hvalue.trans hrest
    exact quotesClosed_append hname hequals

/-- Written attributes end with a quote. -/
theorem getLast?_writeAttributes (attrs : List Attribute) :
    ∀ c ∈ (writeAttributes attrs).getLast?, c = '"' := by
  induction attrs with
  | nil => exact fun c hc => absurd hc (by simp [writeAttributes])
  | cons attr attrs ih =>
    intro c hc
    simp only [writeAttributes, List.getLast?_cons, List.getLast?_append, Option.some_or,
      Option.getD_some, Option.mem_def, Option.some.injEq] at hc
    cases hlast : (writeAttributes attrs).getLast? with
    | none =>
      rw [hlast] at hc
      exact hc.symm
    | some last =>
      rw [hlast] at hc
      exact hc ▸ ih last hlast

/-- **A written tag is well-spelled.** -/
theorem Tag.wellFormed_write {name : String} (hname : isPlainName name.toList)
    {attrs : List Attribute} (h : ∀ attr ∈ attrs, isPlainName attr.name.toList) :
    (Tag.write name attrs).wellFormed := by
  obtain ⟨hne, hplain⟩ := isPlainName_iff.1 hname
  have hquotes : quotesClosed none (Tag.write name attrs).content :=
    quotesClosed_append (quotesClosed_of_isPlainName hname) (quotesClosed_writeAttributes h)
  have htag : (Tag.write name attrs).name = name.toList :=
    takeWhile_append_writeAttributes hname attrs
  obtain ⟨c, cs, hcs⟩ := List.exists_cons_of_ne_nil hne
  have hhead : (Tag.write name attrs).content.headD ' ' = c := by
    rw [Tag.write, hcs]
    rfl
  obtain ⟨-, -, -, -, -, -, hslash, hbang, hquestion⟩ := hplain c (hcs ▸ List.mem_cons_self)
  refine Tag.wellFormed_iff.2 ⟨htag ▸ hne, ?_, hquotes⟩
  rw [hhead]
  simp [hslash, hbang, hquestion]

/-- It can be a start tag, too: its last character is a quote or one of its name. -/
theorem Tag.wellFormedStart_write {name : String} (hname : isPlainName name.toList)
    {attrs : List Attribute} (h : ∀ attr ∈ attrs, isPlainName attr.name.toList) :
    (Tag.write name attrs).wellFormedStart := by
  obtain ⟨hne, hplain⟩ := isPlainName_iff.1 hname
  have htag : (Tag.write name attrs).name = name.toList :=
    takeWhile_append_writeAttributes hname attrs
  have hlast : (Tag.write name attrs).content.getLast? ≠ some '/' := by
    rw [Tag.write, List.getLast?_append]
    intro hslash
    cases hattrs : (writeAttributes attrs).getLast? with
    | none =>
      rw [hattrs, Option.none_or] at hslash
      exact (hplain '/' (List.mem_of_getLast? hslash)).2.2.2.2.2.2.1 rfl
    | some c =>
      rw [hattrs, Option.some_or, Option.some.injEq] at hslash
      have hquote := getLast?_writeAttributes attrs c hattrs
      rw [hslash] at hquote
      exact absurd hquote (by decide)
  exact Tag.wellFormedStart_iff.2
    ⟨Tag.wellFormed_write hname h, hlast, htag ▸ quotesClosed_of_isPlainName hname⟩

end SqlFragments.Markup
