import SqlFragments.Markup.Reader
import SqlFragments.Proofs.Markup.Tree
import SqlFragments.Proofs.Text.Splitting

/-! # Reading a tree event by event

The reader delivers the parts of a well-formed tree one after the other, each as the event that it
stands for, and goes on right behind it.

* `Reader.next_open`, `Reader.next_endTag`, `Reader.next_text`, …: the event of each part;
* `Content.wellFormedAll_cons`: what a part may meet behind it;
* `Reader.start_render`: the reader begins with the first part, behind a byte order mark. -/

namespace SqlFragments.Markup

open SqlFragments.Text

/-! ## Tags -/

/-- Where all quotes are closed, others may be opened and closed behind them. -/
theorem quotesClosed_append {quote : Option Char} {cs ds : List Char}
    (hcs : quotesClosed quote cs) (hds : quotesClosed none ds) : quotesClosed quote (cs ++ ds) := by
  induction cs generalizing quote with
  | nil =>
    cases quote with
    | none => exact hds
    | some q => simp [quotesClosed] at hcs
  | cons c cs ih =>
    cases quote with
    | none =>
      simp only [quotesClosed, Bool.and_eq_true] at hcs
      simp only [List.cons_append, quotesClosed, Bool.and_eq_true]
      exact ⟨hcs.1, ih hcs.2⟩
    | some q =>
      simp only [quotesClosed] at hcs
      simp only [List.cons_append, quotesClosed]
      exact ih hcs

/-- Spaces open no quotes. -/
theorem quotesClosed_of_all_isSpace {cs : List Char} (h : cs.all isSpace) :
    quotesClosed none cs := by
  induction cs with
  | nil => rfl
  | cons c cs ih =>
    simp only [List.all_cons, Bool.and_eq_true] at h
    have hspace : c = ' ' ∨ c = '\t' ∨ c = '\n' ∨ c = '\r' := by
      simpa [isSpace, or_assoc] using h.1
    rcases hspace with rfl | rfl | rfl | rfl <;> simpa [quotesClosed] using ih h.2

/-- A tag ends at the first angle bracket behind it. -/
theorem spanTag_append {quote : Option Char} {cs : List Char} (h : quotesClosed quote cs)
    (rest : List Char) : spanTag quote (cs ++ '>' :: rest) = some (cs, rest) := by
  induction cs generalizing quote with
  | nil =>
    cases quote with
    | none => simp [spanTag]
    | some q => simp [quotesClosed] at h
  | cons c cs ih =>
    cases quote with
    | none =>
      simp only [quotesClosed, Bool.and_eq_true, decide_eq_true_eq] at h
      simp [spanTag, h.1, ih h.2]
    | some q =>
      simp only [quotesClosed] at h
      simp [spanTag, ih h]

/-- The spaces behind the name of an end tag do not count. -/
theorem closingName_append {name spaces : List Char} (hne : name ≠ [])
    (hname : ∀ c ∈ name, isSpace c = false) (hspaces : spaces.all isSpace) :
    closingName (name ++ spaces) = name := by
  have hall : ∀ c ∈ spaces.reverse, isSpace c = true := fun c hc =>
    List.all_eq_true.1 hspaces c (List.mem_reverse.1 hc)
  have hkeep : name.reverse.dropWhile isSpace = name.reverse := by
    cases h : name.reverse with
    | nil => rfl
    | cons c cs =>
      have hc : isSpace c = false := hname c (List.mem_reverse.1 (h ▸ List.mem_cons_self))
      rw [List.dropWhile_cons_of_neg (by simp [hc])]
  rw [closingName, List.reverse_append, List.dropWhile_append_of_pos hall, hkeep,
    List.reverse_reverse]
  cases name with
  | nil => exact absurd rfl hne
  | cons c cs => rfl

/-- A tag's name has no space in it. -/
theorem Tag.not_isSpace_of_mem_name {tag : Tag} {c : Char} (h : c ∈ tag.name) :
    isSpace c = false := by
  simpa using List.mem_takeWhile_imp h

/-! ## Events -/

/-- Whether a text is at its end or markup comes next. -/
def atMarkup : List Char → Bool
  | [] => true
  | c :: _ => c = '<'

/-- Text goes to the next markup, or to the end. -/
theorem Reader.next_text {raw : List Char} (h : (Content.text raw).wellFormed)
    {rest : List Char} (hrest : atMarkup rest) (opened : List (List Char)) :
    Reader.next ⟨raw ++ rest, opened⟩ = .ok (some (.text raw, ⟨rest, opened⟩)) := by
  obtain ⟨hne, hraw⟩ := Content.wellFormed_text_iff.1 h
  -- the first character is not looked at again, so it must not be an angle bracket
  cases raw with
  | nil => exact absurd rfl hne
  | cons c cs =>
    rw [List.mem_cons, not_or] at hraw
    have hall : ∀ d ∈ cs, (d != '<') = true := fun d hd =>
      bne_iff_ne.2 (ne_of_mem_of_not_mem hd hraw.2)
    have hstop : rest.takeWhile (· != '<') = [] ∧ rest.dropWhile (· != '<') = rest := by
      cases rest with
      | nil => exact ⟨rfl, rfl⟩
      | cons d ds =>
        have hd : d = '<' := by simpa [atMarkup] using hrest
        simp [hd]
    have htake : (cs ++ rest).takeWhile (· != '<') = cs := by
      rw [List.takeWhile_append_of_pos hall, hstop.1, List.append_nil]
    have hdrop : (cs ++ rest).dropWhile (· != '<') = rest := by
      rw [List.dropWhile_append_of_pos hall, hstop.2]
    simp only [List.cons_append, Reader.next]
    split
    · rename_i heq
      cases heq
    · rename_i heq
      simp only [List.cons.injEq] at heq
      exact absurd heq.1.symm hraw.1
    · rename_i d ds _ heq
      simp only [List.cons.injEq] at heq
      obtain ⟨rfl, rfl⟩ := heq
      rw [htake, hdrop]

/-- Where an angle bracket stands, what is delivered is markup. -/
theorem Reader.next_of_readMarkup {opened : List (List Char)} {cs : List Char}
    {r : Event × Reader} (h : readMarkup opened cs = .ok r) :
    Reader.next ⟨'<' :: cs, opened⟩ = .ok (some r) := by
  simp only [Reader.next, h]

/-- What a tag begins with is not taken for other markup. -/
theorem readMarkup_content {tag : Tag} (h : tag.wellFormed) (opened : List (List Char))
    (rest : List Char) :
    readMarkup opened (tag.content ++ rest) = readStartTag opened (tag.content ++ rest) := by
  obtain ⟨hname, hmark, -⟩ := Tag.wellFormed_iff.1 h
  obtain ⟨content⟩ := tag
  cases content with
  | nil => exact absurd rfl hname
  | cons c cs =>
    simp at hmark
    simp only [List.cons_append]
    unfold readMarkup
    split <;> simp_all

/-- A start tag opens an element of its name. -/
theorem Reader.next_open {tag : Tag} (h : tag.wellFormedStart) (opened : List (List Char))
    (rest : List Char) :
    Reader.next ⟨'<' :: (tag.content ++ '>' :: rest), opened⟩
      = .ok (some (.open tag, ⟨rest, tag.name :: opened⟩)) := by
  obtain ⟨hwf, hslash, -⟩ := Tag.wellFormedStart_iff.1 h
  obtain ⟨-, -, hquotes⟩ := Tag.wellFormed_iff.1 hwf
  apply next_of_readMarkup
  rw [readMarkup_content hwf, readStartTag, spanTag_append hquotes]
  simp [hslash]

/-- A tag that is the whole of an element opens nothing. -/
theorem Reader.next_single {tag : Tag} (h : tag.wellFormed) (opened : List (List Char))
    (rest : List Char) :
    Reader.next ⟨'<' :: (tag.content ++ '/' :: '>' :: rest), opened⟩
      = .ok (some (.empty tag, ⟨rest, opened⟩)) := by
  have hquotes : quotesClosed none (tag.content ++ ['/']) :=
    quotesClosed_append (Tag.wellFormed_iff.1 h).2.2 rfl
  apply next_of_readMarkup
  rw [readMarkup_content h, readStartTag, List.append_cons, spanTag_append hquotes]
  simp

/-- An end tag of the right name ends the innermost element. -/
theorem Reader.next_endTag {tag : Tag} (h : tag.wellFormedStart) {spaces : List Char}
    (hspaces : spaces.all isSpace) (outer : List (List Char)) (rest : List Char) :
    Reader.next ⟨endTag tag.name spaces ++ rest, tag.name :: outer⟩
      = .ok (some (.close tag.name, ⟨rest, outer⟩)) := by
  obtain ⟨hwf, -, hquotes⟩ := Tag.wellFormedStart_iff.1 h
  obtain ⟨hname, -, -⟩ := Tag.wellFormed_iff.1 hwf
  have hspan := spanTag_append
    (quotesClosed_append hquotes (quotesClosed_of_all_isSpace hspaces)) rest
  have hclosing := closingName_append hname (fun _ => Tag.not_isSpace_of_mem_name) hspaces
  have hshape : endTag tag.name spaces ++ rest
      = '<' :: '/' :: ((tag.name ++ spaces) ++ '>' :: rest) := by
    simp [endTag]
  rw [hshape]
  apply next_of_readMarkup
  simp only [readMarkup, readEndTag, hspan, hclosing, if_true]

/-- Angle brackets are counted on behind a text from what it leaves open. -/
theorem spanNested_append {depth left : Nat} {cs : List Char}
    (h : bracketDepth depth cs = some left) (rest : List Char) :
    spanNested depth (cs ++ rest) = (spanNested left rest).map fun p => (cs ++ p.1, p.2) := by
  -- on the text, with what is open before it
  induction cs generalizing depth with
  | nil =>
    rw [Option.some.inj h, List.nil_append]
    simp
  | cons c cs ih =>
    simp only [bracketDepth] at h
    simp only [List.cons_append, spanNested]
    split at h
    · rename_i hopen
      rw [if_pos hopen, ih h, Option.map_map]
      rfl
    · rename_i hopen
      rw [if_neg hopen]
      split at h
      · rename_i hclose
        rw [if_pos hclose]
        cases depth with
        | zero => simp at h
        | succ depth =>
          simp only at h
          simp only [ih h, Option.map_map]
          rfl
      · rename_i hclose
        rw [if_neg hclose, ih h, Option.map_map]
        rfl

/-- A section goes to the first end mark behind it. -/
theorem readCData_append {raw : List Char} (h : ¬ [']', ']', '>'] <:+: raw)
    (opened : List (List Char)) (rest : List Char) :
    readCData opened ("[CDATA[".toList ++ (raw ++ ("]]>".toList ++ rest)))
      = .ok (.cdata raw, ⟨rest, opened⟩) := by
  have hbreak : breakAt "]]>".toList (raw ++ ("]]>".toList ++ rest)) = some (raw, rest) :=
    breakAt_append_triple (by decide) h rest
  simp only [readCData, List.isPrefixOf?_eq_some_iff_append_eq.2 rfl, hbreak]

/-- So does a comment. -/
theorem readComment_append {raw : List Char} (h : ¬ ['-', '-', '>'] <:+: raw)
    (opened : List (List Char)) (rest : List Char) :
    readComment opened ("--".toList ++ (raw ++ ("-->".toList ++ rest)))
      = .ok (.aside, ⟨rest, opened⟩) := by
  have hbreak : breakAt "-->".toList (raw ++ ("-->".toList ++ rest)) = some (raw, rest) :=
    breakAt_append_triple (by decide) h rest
  simp only [readComment, List.isPrefixOf?_eq_some_iff_append_eq.2 rfl, hbreak]

/-- And so does an instruction. -/
theorem readInstruction_append {raw : List Char} (h : ¬ ['?', '>'] <:+: raw)
    (hhead : raw.head? ≠ some '>') (opened : List (List Char)) (rest : List Char) :
    readInstruction opened (raw ++ ("?>".toList ++ rest)) = .ok (.aside, ⟨rest, opened⟩) := by
  have hbreak : breakAt "?>".toList (raw ++ ("?>".toList ++ rest)) = some (raw, rest) :=
    breakAt_append_pair (by decide) h rest
  unfold readInstruction
  split
  · rename_i heq
    cases raw with
    | nil => simp at heq
    | cons c cs =>
      simp only [List.cons_append, List.cons.injEq] at heq
      exact absurd (congrArg some heq.1) hhead
  · simp only [hbreak]

/-- A document type goes to the angle bracket that closes its own. -/
theorem readDoctype_append {raw : List Char} (h : bracketDepth 0 raw = some 0)
    (hraw : raw.all isSpace = false) (opened : List (List Char)) (rest : List Char) :
    readDoctype opened ("DOCTYPE".toList ++ (raw ++ (">".toList ++ rest)))
      = .ok (.aside, ⟨rest, opened⟩) := by
  have hword : dropWord "DOCTYPE".toList ("DOCTYPE".toList ++ (raw ++ (">".toList ++ rest)))
      = some (raw ++ (">".toList ++ rest)) := rfl
  have hspan : spanNested 0 (raw ++ (">".toList ++ rest)) = some (raw, rest) := by
    rw [spanNested_append h]
    simp [spanNested]
  simp only [readDoctype, hword, hspan, hraw, Bool.false_eq_true, if_false]

/-- A section is delivered as it stands. -/
theorem Reader.next_cdata {raw : List Char} (h : (Content.cdata raw).wellFormed)
    (opened : List (List Char)) (rest : List Char) :
    Reader.next ⟨(Content.cdata raw).render ++ rest, opened⟩
      = .ok (some (.cdata raw, ⟨rest, opened⟩)) := by
  simp only [Content.wellFormed, Bool.not_eq_true', decide_eq_false_iff_not] at h
  rw [Content.render, List.append_assoc, List.append_assoc]
  exact next_of_readMarkup (readCData_append h opened rest)

/-- Comments, instructions and document types are delivered without what is in them. -/
theorem Reader.next_aside {a : Aside} (h : a.wellFormed) (opened : List (List Char))
    (rest : List Char) :
    Reader.next ⟨a.render ++ rest, opened⟩ = .ok (some (.aside, ⟨rest, opened⟩)) := by
  cases a with
  | comment raw =>
    simp only [Aside.wellFormed, Bool.not_eq_true', decide_eq_false_iff_not] at h
    rw [Aside.render, List.append_assoc, List.append_assoc]
    exact next_of_readMarkup (readComment_append h opened rest)
  | instruction raw =>
    simp only [Aside.wellFormed, Bool.and_eq_true, Bool.not_eq_true', decide_eq_false_iff_not,
      decide_eq_true_eq] at h
    rw [Aside.render, List.append_assoc, List.append_assoc]
    exact next_of_readMarkup (readInstruction_append h.1 h.2 opened rest)
  | doctype raw =>
    simp only [Aside.wellFormed, Bool.and_eq_true, Bool.not_eq_true', decide_eq_true_eq] at h
    rw [Aside.render, List.append_assoc, List.append_assoc]
    exact next_of_readMarkup (readDoctype_append h.1 h.2 opened rest)

/-! ## Boundaries between parts -/

/-- All parts but text begin with markup. -/
theorem atMarkup_render_append {c : Content} (h : c.isText = false) (rest : List Char) :
    atMarkup (c.render ++ rest) := by
  cases c with
  | element tag spaces children => simp [Content.render, atMarkup]
  | single tag => simp [Content.render, atMarkup]
  | text raw => simp [Content.isText] at h
  | cdata raw => simp [Content.render, atMarkup]
  | aside a => cases a <;> simp [Content.render, Aside.render, atMarkup]

/-- Markup comes next where a list of parts begins without text. -/
theorem atMarkup_renderAll_append {cs : List Content} (h : Content.startsText cs = false)
    {rest : List Char} (hrest : atMarkup rest) : atMarkup (Content.renderAll cs ++ rest) := by
  cases cs with
  | nil => exact hrest
  | cons c cs =>
    rw [Content.renderAll, List.append_assoc]
    exact atMarkup_render_append h _

/-- So does an end tag. -/
theorem atMarkup_endTag_append (name spaces rest : List Char) :
    atMarkup (endTag name spaces ++ rest) := by
  simp [endTag, atMarkup]

/-- Where parts follow each other, each meets markup or is itself no text. -/
theorem Content.wellFormedAll_cons {c : Content} {cs : List Content}
    (h : Content.wellFormedAll (c :: cs)) {rest : List Char} (hrest : atMarkup rest) :
    c.wellFormed ∧ (c.isText → atMarkup (Content.renderAll cs ++ rest)) ∧
      Content.wellFormedAll cs := by
  simp only [wellFormedAll, Bool.and_eq_true, Bool.not_eq_true'] at h
  refine ⟨h.1.1, fun htext => ?_, h.2⟩
  apply atMarkup_renderAll_append ?_ hrest
  simpa [htext] using h.1.2

/-- An element is no text. -/
theorem Content.isText_of_isElement {c : Content} (h : c.isElement) : c.isText = false := by
  cases c with
  | text raw => exact absurd h Bool.false_ne_true
  | _ => rfl

/-- What may stand around the root are no elements. -/
theorem Content.isElement_of_all_isMisc {cs : List Content} (h : cs.all isMisc) :
    ∀ c ∈ cs, c.isElement = false := by
  intro c hc
  have hmisc := List.all_eq_true.1 h c hc
  cases c with
  | element tag spaces children => exact absurd hmisc Bool.false_ne_true
  | single tag => exact absurd hmisc Bool.false_ne_true
  | _ => rfl

/-- Well-spelled parts can follow each other if no two texts do. -/
theorem Content.wellFormedAll_of_isChain {cs : List Content} (h : ∀ c ∈ cs, c.wellFormed)
    (hchain : cs.IsChain fun a b => ¬ (a.isText ∧ b.isText)) : Content.wellFormedAll cs := by
  induction cs with
  | nil => rfl
  | cons c cs ih =>
    have hc := h c List.mem_cons_self
    have hcs := fun d hd => h d (List.mem_cons_of_mem c hd)
    cases cs with
    | nil => simp [wellFormedAll, hc, startsText]
    | cons d cs =>
      obtain ⟨hnot, hchain⟩ := List.isChain_cons_cons.1 hchain
      have hboundary : (c.isText && d.isText) = false := by
        rw [Bool.eq_false_iff, ne_eq, Bool.and_eq_true]
        exact hnot
      rw [wellFormedAll, hc, startsText, hboundary, ih hcs hchain]
      rfl

/-- So well-spelled elements can. -/
theorem Content.wellFormedAll_of_isElement {cs : List Content}
    (h : ∀ c ∈ cs, c.wellFormed ∧ c.isElement) : Content.wellFormedAll cs := by
  induction cs with
  | nil => rfl
  | cons c cs ih =>
    obtain ⟨hc, helement⟩ := h c List.mem_cons_self
    rw [wellFormedAll, hc, isText_of_isElement helement,
      ih fun d hd => h d (List.mem_cons_of_mem c hd)]
    rfl

/-- An element is spelled by its start tag, its children and its end tag. -/
theorem Content.render_element_append (tag : Tag) (spaces : List Char) (children : List Content)
    (rest : List Char) :
    (Content.element tag spaces children).render ++ rest
      = '<' :: (tag.content ++ '>' :: (renderAll children ++ (endTag tag.name spaces ++ rest))) := by
  simp [render]

/-- An element in one tag is spelled with a slash. -/
theorem Content.render_single_append (tag : Tag) (rest : List Char) :
    (Content.single tag).render ++ rest = '<' :: (tag.content ++ '/' :: '>' :: rest) := by
  simp [render]

/-! ## The start of a document -/

/-- What may stand in a document outside of its root, and the root, do not begin with a byte order
mark. -/
theorem Content.exists_render_eq_cons {c : Content} (h : c.wellFormed)
    (hc : (c.isMisc || c.isElement) = true) :
    ∃ d ds, c.render = d :: ds ∧ d ≠ '\uFEFF' := by
  cases c with
  | element tag spaces children =>
    exact ⟨'<', _, rfl, by decide⟩
  | single tag => exact ⟨'<', _, rfl, by decide⟩
  | text raw =>
    cases raw with
    | nil => simp [Content.wellFormed] at h
    | cons d ds =>
      refine ⟨d, ds, rfl, ?_⟩
      rintro rfl
      have hmark : isSpace '\uFEFF' = false := by decide
      simp [Content.isMisc, Content.isElement, hmark] at hc
  | cdata raw => exact absurd hc Bool.false_ne_true
  | aside a => cases a <;> exact ⟨'<', _, rfl, by decide⟩

/-- **The reader starts with the first part**, whether there is a byte order mark or not. -/
theorem Reader.start_render {d : Document} (h : d.wellFormed) :
    Reader.start d.render = ⟨Content.renderAll d.parts, []⟩ := by
  -- without a mark, what comes first is the root or something that may stand before it
  have hhead : ∀ cs, Content.renderAll d.parts ≠ '\uFEFF' :: cs := by
    simp only [Document.wellFormed, Bool.and_eq_true] at h
    obtain ⟨⟨⟨hparts, hprolog⟩, hroot⟩, -⟩ := h
    obtain ⟨c, cs, hcs, hc⟩ : ∃ c cs, d.parts = c :: cs ∧ (c.isMisc || c.isElement) = true := by
      rw [Document.parts]
      cases hp : d.prolog with
      | nil => exact ⟨d.root, d.epilog, rfl, by simp [hroot]⟩
      | cons c cs =>
        rw [hp, List.all_cons, Bool.and_eq_true] at hprolog
        exact ⟨c, _, rfl, by simp [hprolog.1]⟩
    rw [hcs] at hparts ⊢
    have hend : atMarkup [] := rfl
    obtain ⟨first, more, hrender, hfirst⟩ :=
      Content.exists_render_eq_cons (Content.wellFormedAll_cons hparts hend).1 hc
    intro rest hrest
    rw [Content.renderAll, hrender, List.cons_append, List.cons.injEq] at hrest
    exact hfirst hrest.1
  rw [Reader.start, Document.render, String.toList_ofList]
  cases d.mark with
  | true => rfl
  | false =>
    simp only [Bool.false_eq_true, if_false, List.nil_append]

end SqlFragments.Markup
