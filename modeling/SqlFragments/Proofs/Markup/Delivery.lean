import SqlFragments.Proofs.Markup.Events

/-! # The events of a document

A reader delivers the events of a document one after the other, and what stands in the document is
read off this list: the events of a tree are those of its parts in order, an element's between its
start tag and its end tag.

* `Reader.Delivers`: what is delivered from one place to another; `Reader.events`: all of it, and
  the elements that are open at the end of the document;
* `Content.delivers_renderAll`: the written form of a tree has the events of the tree;
* `Reader.Delivers.unended_or`: every document goes on with whole parts, up to an end tag or the end
  of the document, where some elements may be open (`Event.Unended`);
* `Reader.skip_element`: skipping goes to the end of an element, whatever is in it. -/

namespace SqlFragments.Markup

open SqlFragments.Text

/-! ## Delivery -/

/-- From one place to another, a reader delivers these events. -/
inductive Reader.Delivers : Reader → List Event → Reader → Prop where
  | done (reader : Reader) : Delivers reader [] reader
  | next {reader mid last : Reader} {event : Event} {events : List Event}
    (hnext : reader.next = .ok (some (event, mid))) (hrest : Delivers mid events last) :
    Delivers reader (event :: events) last

/-- The events of the rest of a document, and the names of the elements that are open at its
end. -/
def Reader.events (reader : Reader) : Except MarkupError (List Event × List (List Char)) :=
  match _h : reader.next with
  | .error e => .error e
  | .ok none => .ok ([], reader.opened)
  | .ok (some (event, after)) => after.events.map fun r => (event :: r.1, r.2)
termination_by reader.rest.length
decreasing_by exact next_length_lt _h

namespace Reader

variable {a b c : Reader} {event : Event} {es fs : List Event}

/-- One event is delivered by one step. -/
theorem Delivers.single (h : a.next = .ok (some (event, b))) : a.Delivers [event] b :=
  .next h (.done b)

/-- Events one after the other are delivered one after the other. -/
theorem Delivers.append (h : a.Delivers es b) (h' : b.Delivers fs c) : a.Delivers (es ++ fs) c := by
  induction h with
  | done => exact h'
  | next hnext _ ih => exact .next hnext (ih h')

/-- The first of several events is delivered first. -/
theorem delivers_cons_iff :
    a.Delivers (event :: es) c ↔ ∃ b, a.next = .ok (some (event, b)) ∧ b.Delivers es c := by
  constructor
  · intro h
    cases h with
    | next hnext hrest => exact ⟨_, hnext, hrest⟩
  · rintro ⟨b, hnext, hrest⟩
    exact .next hnext hrest

/-- Between the first events and the others there is a place where the reader stands. -/
theorem delivers_append_iff :
    a.Delivers (es ++ fs) c ↔ ∃ b, a.Delivers es b ∧ b.Delivers fs c := by
  refine ⟨fun h => ?_, fun ⟨b, h, h'⟩ => h.append h'⟩
  induction es generalizing a with
  | nil => exact ⟨a, .done a, h⟩
  | cons event es ih =>
    obtain ⟨mid, hnext, hrest⟩ := delivers_cons_iff.1 h
    obtain ⟨b, hb, hc⟩ := ih hrest
    exact ⟨b, .next hnext hb, hc⟩

/-- A reader that delivers nothing stays where it is. -/
theorem Delivers.eq_of_nil (h : a.Delivers [] b) : b = a := by
  cases h
  rfl

/-- The events of a document begin with the next one. -/
theorem events_of_next (h : a.next = .ok (some (event, b))) :
    a.events = b.events.map fun r => (event :: r.1, r.2) := by
  rw [events]
  split <;> simp_all

/-- **What is delivered up to the end are the events of the document.** -/
theorem Delivers.events_eq (h : a.Delivers es b) (hend : b.next = .ok none) :
    a.events = .ok (es, b.opened) := by
  induction h with
  | done =>
    rw [events]
    split <;> simp_all
  | next hnext _ ih =>
    rw [events_of_next hnext, ih hend]
    rfl

/-! ## Open elements -/

end Reader

/-- What an event does to the names of the open elements. -/
def Event.Moves : Event → List (List Char) → List (List Char) → Prop
  | .open tag, before, after => after = tag.name :: before
  | .close name, before, after => before = name :: after
  | _, before, after => after = before

section

variable {opened : List (List Char)} {cs : List Char} {r : Event × Reader}

/-- A document type opens nothing. -/
theorem readDoctype_moves (h : readDoctype opened cs = .ok r) : r.1.Moves opened r.2.opened := by
  simp only [readDoctype] at h
  split at h
  · cases h
  · split at h
    · cases h
    · split at h
      · cases h
      · cases h
        rfl

/-- Nor does a section. -/
theorem readCData_moves (h : readCData opened cs = .ok r) : r.1.Moves opened r.2.opened := by
  simp only [readCData] at h
  split at h
  · cases h
  · split at h
    · cases h
    · cases h
      rfl

/-- Nor does a comment. -/
theorem readComment_moves (h : readComment opened cs = .ok r) : r.1.Moves opened r.2.opened := by
  simp only [readComment] at h
  split at h
  · cases h
  · split at h
    · cases h
    · cases h
      rfl

/-- So nothing does that begins with an exclamation mark. -/
theorem readBang_moves (h : readBang opened cs = .ok r) : r.1.Moves opened r.2.opened := by
  unfold readBang at h
  split at h
  · exact readComment_moves h
  · exact readCData_moves h
  · exact readDoctype_moves h
  · exact readDoctype_moves h
  · cases h

/-- Nor does an instruction. -/
theorem readInstruction_moves (h : readInstruction opened cs = .ok r) :
    r.1.Moves opened r.2.opened := by
  unfold readInstruction at h
  split at h
  · cases h
  · split at h
    · cases h
    · cases h
      rfl

/-- An end tag ends the innermost element, as it would be refused with another name. -/
theorem readEndTag_moves (h : readEndTag opened cs = .ok r) : r.1.Moves opened r.2.opened := by
  simp only [readEndTag] at h
  split at h
  · cases h
  · split at h
    · cases h
    · split at h
      · rename_i hname
        cases h
        exact congrArg (· :: _) hname.symm
      · cases h

/-- A start tag opens an element, unless the tag is the whole of it. -/
theorem readStartTag_moves (h : readStartTag opened cs = .ok r) :
    r.1.Moves opened r.2.opened := by
  simp only [readStartTag] at h
  split at h
  · cases h
  · split at h
    · cases h
      rfl
    · cases h
      rfl

/-- So markup moves elements as its event says. -/
theorem readMarkup_moves (h : readMarkup opened cs = .ok r) : r.1.Moves opened r.2.opened := by
  unfold readMarkup at h
  split at h
  · exact readBang_moves h
  · exact readInstruction_moves h
  · exact readEndTag_moves h
  · exact readStartTag_moves h

end

/-- A start tag opens an element, an end tag ends the innermost one, and nothing else matters. -/
theorem Reader.next_moves {reader after : Reader} {event : Event}
    (h : reader.next = .ok (some (event, after))) : event.Moves reader.opened after.opened := by
  obtain ⟨rest, opened⟩ := reader
  simp only [Reader.next] at h
  split at h
  · cases h
  · split at h
    · cases h
    · rename_i hmarkup
      cases h
      exact readMarkup_moves hmarkup
  · cases h
    rfl

/-- At the start of a document nothing is open. -/
theorem Reader.opened_start (document : String) : (Reader.start document).opened = [] := by
  rw [Reader.start]
  split <;> rfl

/-! ## The events of a tree -/

mutual

/-- The events of a part. -/
def Content.events : Content → List Event
  | .element tag _ children => .open tag :: (Content.eventsAll children ++ [.close tag.name])
  | .single tag => [.empty tag]
  | .text raw => [.text raw]
  | .cdata raw => [.cdata raw]
  | .aside _ => [.aside]

/-- The events of parts that follow each other. -/
def Content.eventsAll : List Content → List Event
  | [] => []
  | c :: cs => c.events ++ Content.eventsAll cs

end

/-- The events of parts come in the order of the parts. -/
theorem Content.eventsAll_append (cs ds : List Content) :
    Content.eventsAll (cs ++ ds) = Content.eventsAll cs ++ Content.eventsAll ds := by
  induction cs with
  | nil => rfl
  | cons c cs ih => rw [List.cons_append, eventsAll, eventsAll, ih, List.append_assoc]

/-- The events of an element: its start tag, its children and its end tag. -/
theorem Reader.delivers_element_iff {a b : Reader} {tag : Tag} {spaces : List Char}
    {children : List Content} : a.Delivers (Content.element tag spaces children).events b ↔
      ∃ inner behind, a.next = .ok (some (.open tag, inner)) ∧
        inner.Delivers (Content.eventsAll children) behind ∧
        behind.next = .ok (some (.close tag.name, b)) := by
  rw [Content.events, delivers_cons_iff]
  refine exists_congr fun inner => ?_
  rw [delivers_append_iff]
  constructor
  · rintro ⟨hopen, behind, hchildren, hclose⟩
    obtain ⟨last, hclose, hlast⟩ := delivers_cons_iff.1 hclose
    cases hlast.eq_of_nil
    exact ⟨behind, hopen, hchildren, hclose⟩
  · rintro ⟨behind, hopen, hchildren, hclose⟩
    exact ⟨hopen, behind, hchildren, .single hclose⟩

/-- One event is delivered just if it is the next one. -/
theorem Reader.delivers_single_iff {a b : Reader} {event : Event} :
    a.Delivers [event] b ↔ a.next = .ok (some (event, b)) := by
  refine ⟨fun h => ?_, .single⟩
  obtain ⟨last, hnext, hlast⟩ := delivers_cons_iff.1 h
  cases hlast.eq_of_nil
  exact hnext

mutual

/-- The written form of a part has the events of the part. -/
theorem Content.delivers_render : ∀ (c : Content) (opened : List (List Char)) (rest : List Char),
    c.wellFormed → (c.isText → atMarkup rest) →
    Reader.Delivers ⟨c.render ++ rest, opened⟩ c.events ⟨rest, opened⟩
  | .element tag spaces children, opened, rest, h, _ => by
    obtain ⟨htag, hspaces, hchildren⟩ := Content.wellFormed_element_iff.1 h
    rw [Content.render_element_append]
    exact Reader.delivers_element_iff.2 ⟨_, _, Reader.next_open htag opened _,
      Content.delivers_renderAll children _ _ hchildren (atMarkup_endTag_append _ _ _),
      Reader.next_endTag htag hspaces opened rest⟩
  | .single tag, opened, rest, h, _ => by
    rw [Content.render_single_append]
    exact .single (Reader.next_single h opened rest)
  | .text raw, opened, rest, h, htext => .single (Reader.next_text h (htext rfl) opened)
  | .cdata raw, opened, rest, h, _ => .single (Reader.next_cdata h opened rest)
  | .aside a, opened, rest, h, _ => .single (Reader.next_aside h opened rest)

/-- The written form of parts that follow each other. -/
theorem Content.delivers_renderAll : ∀ (cs : List Content) (opened : List (List Char))
    (rest : List Char), Content.wellFormedAll cs → atMarkup rest →
    Reader.Delivers ⟨Content.renderAll cs ++ rest, opened⟩ (Content.eventsAll cs) ⟨rest, opened⟩
  | [], _, _, _, _ => .done _
  | c :: cs, opened, rest, h, hrest => by
    obtain ⟨hc, htext, hcs⟩ := Content.wellFormedAll_cons h hrest
    rw [Content.renderAll, List.append_assoc]
    exact (c.delivers_render opened _ hc htext).append
      (Content.delivers_renderAll cs opened rest hcs hrest)

end

/-- Behind an element those are open that were open before it. -/
theorem Reader.Delivers.opened_element {a inner behind b : Reader} {tag : Tag} {name : List Char}
    (hopen : a.next = .ok (some (.open tag, inner))) (hinner : behind.opened = inner.opened)
    (hclose : behind.next = .ok (some (.close name, b))) :
    name = tag.name ∧ b.opened = a.opened := by
  have hpush : inner.opened = tag.name :: a.opened := next_moves hopen
  have hpop : behind.opened = name :: b.opened := next_moves hclose
  rw [hinner, hpush, List.cons.injEq] at hpop
  exact ⟨hpop.1.symm, hpop.2.symm⟩

mutual

/-- Behind a part those elements are open that were open before it. -/
theorem Content.opened_eq : ∀ (c : Content) {a b : Reader}, a.Delivers c.events b →
    b.opened = a.opened
  | .element _ _ children, a, b, h => by
    obtain ⟨inner, behind, hopen, hchildren, hclose⟩ := Reader.delivers_element_iff.1 h
    exact (Reader.Delivers.opened_element hopen (Content.openedAll_eq children hchildren) hclose).2
  | .single _, _, _, h => Reader.next_moves (Reader.delivers_single_iff.1 h)
  | .text _, _, _, h => Reader.next_moves (Reader.delivers_single_iff.1 h)
  | .cdata _, _, _, h => Reader.next_moves (Reader.delivers_single_iff.1 h)
  | .aside _, _, _, h => Reader.next_moves (Reader.delivers_single_iff.1 h)

/-- So it is behind parts that follow each other. -/
theorem Content.openedAll_eq : ∀ (cs : List Content) {a b : Reader},
    a.Delivers (Content.eventsAll cs) b → b.opened = a.opened
  | [], _, _, h => by rw [h.eq_of_nil]
  | c :: cs, _, _, h => by
    obtain ⟨mid, hc, hcs⟩ := Reader.delivers_append_iff.1 h
    exact (Content.openedAll_eq cs hcs).trans (Content.opened_eq c hc)

end

/-! ## Elements that do not end -/

/-- Events up to the end of a document with no more end tags than start tags: whole parts, perhaps
with an element behind them that does not end. -/
inductive Event.Unended : List Event → Prop where
  | parts (cs : List Content) : Unended (Content.eventsAll cs)
  | inside (cs : List Content) (tag : Tag) {rest : List Event} (h : Unended rest) :
    Unended (Content.eventsAll cs ++ .open tag :: rest)

/-- What is left of a document behind whole parts: nothing, or an element that does not end. -/
def Event.CutOff (es : List Event) : Prop :=
  es = [] ∨ ∃ tag rest, es = .open tag :: rest ∧ Unended rest

/-- Such events are those of whole parts, and perhaps of an element that does not end. -/
theorem Event.Unended.exists_cutOff {es : List Event} (h : Unended es) :
    ∃ cs cut, es = Content.eventsAll cs ++ cut ∧ CutOff cut := by
  cases h with
  | parts cs => exact ⟨cs, [], (List.append_nil _).symm, .inl rfl⟩
  | inside cs tag hrest => exact ⟨cs, _, rfl, .inr ⟨tag, _, rfl, hrest⟩⟩

/-- Whole parts may stand in front of them. -/
theorem Event.Unended.append {es : List Event} (h : Unended es) (cs : List Content) :
    Unended (Content.eventsAll cs ++ es) := by
  cases h with
  | parts ds =>
    rw [← Content.eventsAll_append]
    exact .parts _
  | inside ds tag h =>
    rw [← List.append_assoc, ← Content.eventsAll_append]
    exact .inside _ tag h

/-- What was open stays open. -/
theorem Event.Unended.opened_suffix {es : List Event} (h : Unended es) {a b : Reader}
    (hdelivers : a.Delivers es b) : a.opened <:+ b.opened := by
  -- on the elements that do not end; each of them has been put on those that were open
  induction h generalizing a with
  | parts cs => rw [Content.openedAll_eq cs hdelivers]
  | inside cs tag _ ih =>
    obtain ⟨mid, hcs, hrest⟩ := Reader.delivers_append_iff.1 hdelivers
    obtain ⟨inner, hopen, hrest⟩ := Reader.delivers_cons_iff.1 hrest
    have hpush : inner.opened = tag.name :: mid.opened := Reader.next_moves hopen
    have hsuffix := ih hrest
    rw [hpush, Content.openedAll_eq cs hcs] at hsuffix
    exact (List.suffix_cons _ _).trans hsuffix

/-- **Every document goes on with whole parts**, and then with the end tag of the element around
them, unless that element does not end. -/
theorem Reader.Delivers.unended_or {a c : Reader} {es : List Event} (h : a.Delivers es c) :
    Event.Unended es ∨ ∃ cs name rest, es = Content.eventsAll cs ++ .close name :: rest := by
  -- by the number of events, as an element's children are as long as the document says
  induction hn : es.length using Nat.strongRecOn generalizing a es with
  | ind n ih =>
    subst hn
    -- a part in front of what comes behind it
    have hpart : ∀ (d : Content) {mid : Reader} {rest : List Event}, es = d.events ++ rest →
        mid.Delivers rest c → rest.length < es.length →
        Event.Unended es ∨ ∃ cs name rest, es = Content.eventsAll cs ++ .close name :: rest := by
      intro d mid rest hes hrest hlt
      have hcons : ∀ cs : List Content, Content.eventsAll (d :: cs) = d.events ++
        Content.eventsAll cs := fun _ => rfl
      rcases ih _ hlt hrest rfl with h | ⟨cs, name, more, rfl⟩
      · have := h.append [d]
        rw [hcons, Content.eventsAll, List.append_nil, ← hes] at this
        exact .inl this
      · exact .inr ⟨d :: cs, name, more, by rw [hes, hcons, List.append_assoc]⟩
    cases h with
    | done => exact .inl (.parts [])
    | @next _ mid _ event rest hnext hrest =>
      cases event with
      | text raw => exact hpart (.text raw) rfl hrest (Nat.lt_succ_self _)
      | cdata raw => exact hpart (.cdata raw) rfl hrest (Nat.lt_succ_self _)
      | empty tag => exact hpart (.single tag) rfl hrest (Nat.lt_succ_self _)
      | aside => exact hpart (.aside (.comment [])) rfl hrest (Nat.lt_succ_self _)
      | close name => exact .inr ⟨[], name, rest, rfl⟩
      | «open» tag =>
        rcases ih _ (Nat.lt_succ_self _) hrest rfl with h | ⟨children, name, more, rfl⟩
        · exact .inl (.inside [] tag h)
        · -- the end tag is the element's own
          obtain ⟨behind, hchildren, htail⟩ := delivers_append_iff.1 hrest
          obtain ⟨last, hclose, hmore⟩ := delivers_cons_iff.1 htail
          have hinner := Content.openedAll_eq children hchildren
          obtain ⟨rfl, -⟩ := Delivers.opened_element hnext hinner hclose
          refine hpart (.element tag [] children) ?_ hmore ?_
          · simp [Content.events]
          · simp
            omega

/-- At the start of a document no element is open that could end. -/
theorem Reader.unended_of_start {document : String} {es : List Event} {c : Reader}
    (h : (Reader.start document).Delivers es c) : Event.Unended es := by
  rcases h.unended_or with hunended | ⟨cs, name, rest, rfl⟩
  · exact hunended
  · obtain ⟨behind, hcs, htail⟩ := delivers_append_iff.1 h
    obtain ⟨after, hclose, -⟩ := delivers_cons_iff.1 htail
    have hpop : behind.opened = name :: after.opened := next_moves hclose
    rw [Content.openedAll_eq cs hcs, opened_start] at hpop
    cases hpop

/-- An element has its end tag if at the end of the document no more elements are open than before
it. -/
theorem Reader.Delivers.exists_endTag {a c : Reader} {tag : Tag} {rest : List Event}
    (h : a.Delivers (.open tag :: rest) c) (hunclosed : c.opened.length ≤ a.opened.length) :
    ∃ children behind, rest = Content.eventsAll children ++ .close tag.name :: behind := by
  obtain ⟨inner, hopen, hrest⟩ := delivers_cons_iff.1 h
  rcases hrest.unended_or with hunended | ⟨children, name, behind, rfl⟩
  · -- the element is still open at the end
    have hpush : inner.opened = tag.name :: a.opened := next_moves hopen
    have hlength := (hunended.opened_suffix hrest).length_le
    rw [hpush, List.length_cons] at hlength
    omega
  · obtain ⟨mid, hchildren, htail⟩ := delivers_append_iff.1 hrest
    obtain ⟨last, hclose, -⟩ := delivers_cons_iff.1 htail
    obtain ⟨rfl, -⟩ :=
      Delivers.opened_element hopen (Content.openedAll_eq children hchildren) hclose
    exact ⟨children, behind, rfl⟩

/-! ## Skipping -/

/-- What skipping does with the next event. -/
theorem Reader.skip_of_next {name : List Char} {depth : Nat} {reader after : Reader}
    {event : Event} (h : reader.next = .ok (some (event, after))) :
    reader.skip name depth
      = match event with
        | .open tag => after.skip name (if tag.name = name then depth + 1 else depth)
        | .close closed =>
          if closed = name then
            match depth with
            | 0 => .ok after
            | depth + 1 => after.skip name depth
          else after.skip name depth
        | _ => after.skip name depth := by
  rw [Reader.skip]
  split
  · rename_i heq
    rw [h] at heq
    cases heq
  · rename_i heq
    rw [h] at heq
    cases heq
  · rename_i event' after' heq
    rw [h] at heq
    cases heq
    rfl

mutual

/-- A part of a document is skipped whole: elements of the same name in it are counted out. -/
theorem Reader.skip_events (name : List Char) : ∀ (c : Content) (depth : Nat) {a b : Reader},
    a.Delivers c.events b → a.skip name depth = b.skip name depth
  | .element tag spaces children, depth, a, b, h => by
    obtain ⟨inner, behind, hopen, hchildren, hclose⟩ := Reader.delivers_element_iff.1 h
    rw [Reader.skip_of_next hopen]
    simp only
    rw [Reader.skip_eventsAll name children _ hchildren, Reader.skip_of_next hclose]
    simp only
    by_cases hname : tag.name = name
    · rw [if_pos hname, if_pos hname]
    · rw [if_neg hname, if_neg hname]
  | .single _, _, _, _, h => Reader.skip_of_next (Reader.delivers_single_iff.1 h)
  | .text _, _, _, _, h => Reader.skip_of_next (Reader.delivers_single_iff.1 h)
  | .cdata _, _, _, _, h => Reader.skip_of_next (Reader.delivers_single_iff.1 h)
  | .aside _, _, _, _, h => Reader.skip_of_next (Reader.delivers_single_iff.1 h)

/-- Parts that follow each other are skipped one after the other. -/
theorem Reader.skip_eventsAll (name : List Char) : ∀ (cs : List Content) (depth : Nat)
    {a b : Reader}, a.Delivers (Content.eventsAll cs) b → a.skip name depth = b.skip name depth
  | [], _, _, _, h => by rw [h.eq_of_nil]
  | c :: cs, depth, _, _, h => by
    obtain ⟨mid, hc, hcs⟩ := Reader.delivers_append_iff.1 h
    rw [Reader.skip_events name c depth hc, Reader.skip_eventsAll name cs depth hcs]

end

/-- **An element is skipped to its own end tag.** -/
theorem Reader.skip_element {inner behind last : Reader} {tag : Tag} {children : List Content}
    (hchildren : inner.Delivers (Content.eventsAll children) behind)
    (hclose : behind.next = .ok (some (.close tag.name, last))) :
    inner.skip tag.name 0 = .ok last := by
  rw [skip_eventsAll tag.name children 0 hchildren, skip_of_next hclose]
  simp

/-- Where no more ends than has begun, skipping goes on behind it. -/
theorem Event.Unended.exists_skip_eq {es : List Event} (h : Event.Unended es) (name : List Char)
    {depth : Nat} {a b : Reader} (hdelivers : a.Delivers es b) :
    ∃ depth', a.skip name depth = b.skip name depth' := by
  induction h generalizing a depth with
  | parts cs => exact ⟨depth, Reader.skip_eventsAll name cs depth hdelivers⟩
  | inside cs tag _ ih =>
    obtain ⟨mid, hcs, htail⟩ := Reader.delivers_append_iff.1 hdelivers
    obtain ⟨inner, hopen, hrest⟩ := Reader.delivers_cons_iff.1 htail
    rw [Reader.skip_eventsAll name cs depth hcs, Reader.skip_of_next hopen]
    exact ih hrest

/-- **An element that does not end cannot be skipped.** -/
theorem Reader.skip_unended {es : List Event} (h : Event.Unended es) (name : List Char)
    {depth : Nat} {a b : Reader} (hdelivers : a.Delivers es b) (hend : b.next = .ok none) :
    a.skip name depth = .error (.missingEndTag (String.ofList name)) := by
  obtain ⟨depth', hskip⟩ := h.exists_skip_eq name hdelivers
  rw [hskip, skip]
  split <;> simp_all

/-- What is skipped has been read. -/
theorem Reader.exists_delivers_of_skip {name : List Char} {depth : Nat} {reader after : Reader}
    (h : reader.skip name depth = .ok after) : ∃ es, reader.Delivers es after := by
  -- by what is left of the document
  induction hn : reader.rest.length using Nat.strongRecOn generalizing reader depth with
  | ind n ih =>
    subst hn
    unfold Reader.skip at h
    split at h
    · cases h
    · cases h
    · rename_i event next hnext
      have hgo : ∀ {depth}, next.skip name depth = .ok after → ∃ es, reader.Delivers es after := by
        intro depth hskip
        obtain ⟨es, hes⟩ := ih _ (Reader.next_length_lt hnext) hskip rfl
        exact ⟨event :: es, .next hnext hes⟩
      split at h
      · exact hgo h
      · split at h
        · split at h
          · cases h
            exact ⟨_, .single hnext⟩
          · exact hgo h
        · exact hgo h
      · exact hgo h

/-- Skipping reads at least an end tag. -/
theorem Reader.skip_ne_self (name : List Char) (depth : Nat) (reader : Reader) :
    reader.skip name depth ≠ .ok reader := by
  intro h
  cases hnext : reader.next with
  | error e =>
    rw [skip] at h
    split at h <;> simp_all
  | ok found =>
    cases found with
    | none =>
      rw [skip] at h
      split at h <;> simp_all
    | some pair =>
      obtain ⟨event, after⟩ := pair
      have hlt := next_length_lt hnext
      -- the rest of the document would have grown again
      have hgo : ∀ {depth}, after.skip name depth ≠ .ok reader := fun hskip =>
        absurd (skip_length_le hskip) (Nat.not_le_of_lt hlt)
      rw [skip_of_next hnext] at h
      split at h
      · exact hgo h
      · split at h
        · split at h
          · obtain rfl := Except.ok.inj h
            exact absurd hlt (Nat.lt_irrefl _)
          · exact hgo h
        · exact hgo h
      · exact hgo h

/-- **What is skipped is one element**, with all that is in it. -/
theorem Reader.exists_children_of_skip {a inner last : Reader} {tag : Tag}
    (hopen : a.next = .ok (some (.open tag, inner))) (hskip : inner.skip tag.name 0 = .ok last) :
    ∃ children, a.Delivers (Content.element tag [] children).events last := by
  obtain ⟨es, hes⟩ := exists_delivers_of_skip hskip
  rcases hes.unended_or with hunended | ⟨children, name, rest, rfl⟩
  · -- then skipping would not have stopped there
    obtain ⟨depth, hlast⟩ := hunended.exists_skip_eq tag.name hes
    exact absurd (hlast.symm.trans hskip) (skip_ne_self _ _ _)
  · -- the first end tag behind whole parts is the element's own, and skipping stops at it
    obtain ⟨behind, hchildren, htail⟩ := delivers_append_iff.1 hes
    obtain ⟨after, hclose, -⟩ := delivers_cons_iff.1 htail
    obtain ⟨rfl, -⟩ :=
      Delivers.opened_element hopen (Content.openedAll_eq children hchildren) hclose
    obtain rfl := Except.ok.inj ((skip_element hchildren hclose).symm.trans hskip)
    exact ⟨children, delivers_element_iff.2 ⟨inner, behind, hopen, hchildren, hclose⟩⟩

end SqlFragments.Markup
