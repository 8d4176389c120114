import SqlFragments.Proofs.Except
import SqlFragments.Proofs.Mapper.Reading

/-! # Every statement that ends is declared

Loading stops at the end of the document, wherever this is, so what it has built of a statement is
lost if the statement has not ended there. Here is what it does with the statements that end.

* `Reading.topElement_cases`: an element below the root is passed over or declares its statement;
* `Mapper.Extends`: loading only ever adds statements to a mapper (`Loading.becomes_of_run`);
* `UnderRoot`: a place in the events of a document at which a child of the root begins;
* `ofDocument_declares`: each statement below the root that has its end tag is declared under its
  id with all of its content, and only where the document ends inside of an element below the root
  can there be a statement without one;
* `ofDocument_of_unended`: what is loaded then is what stands before that statement. -/

namespace SqlFragments

open SqlFragments.Markup

/-! ## What loading keeps -/

namespace Mapper

/-- A mapper that has perhaps taken up further statements. -/
structure Extends (m after : Mapper) : Prop where
  space : after.space = m.space
  kept : ∀ id fragment, m.fragment? id = some fragment → after.fragment? id = some fragment

/-- A mapper has what it has. -/
theorem Extends.refl (m : Mapper) : m.Extends m := ⟨rfl, fun _ _ h => h⟩

/-- What is taken up later leaves what was there before as it is. -/
theorem Extends.trans {a b c : Mapper} (h : a.Extends b) (h' : b.Extends c) : a.Extends c where
  space := h'.space.trans h.space
  kept id fragment hid := h'.kept id fragment (h.kept id fragment hid)

end Mapper

namespace Reading

/-- A statement is declared just if it has an id, and one that is new. -/
theorem declared_eq_ok_iff {m after : Mapper} {fragment : Fragment} :
    declared m fragment = .ok after ↔ fragment.id ≠ "" ∧ m.fragment? fragment.id = none ∧
      after = { m with fragments := m.fragments.insert fragment.id fragment } := by
  have htaken : (m.fragments.get? fragment.id).isSome ↔ m.fragment? fragment.id ≠ none :=
    Option.isSome_iff_ne_none
  simp only [declared, htaken, ne_eq, ite_not]
  by_cases hid : fragment.id = ""
  · simp [hid]
  · by_cases hnew : m.fragment? fragment.id = none
    · simp [hid, hnew, eq_comm]
    · simp [hid, hnew]

/-- A new statement has an id of its own, so the others stay what they are. -/
theorem declared_spec {m after : Mapper} {fragment : Fragment}
    (h : declared m fragment = .ok after) :
    m.Extends after ∧ fragment.id ≠ "" ∧ after.fragment? fragment.id = some fragment := by
  obtain ⟨hid, hnew, rfl⟩ := declared_eq_ok_iff.1 h
  refine ⟨⟨rfl, fun id other hother => ?_⟩, hid, ?_⟩
  · rw [Mapper.fragment?, Dict.get?_insert, if_neg]
    · exact hother
    · rintro rfl
      cases hnew.symm.trans hother
  · rw [Mapper.fragment?, Dict.get?_insert, if_pos rfl]

/-- An element below the root is passed over, or its statement is declared. -/
theorem topElement_cases {m after : Mapper} {tag : Tag} {children : Except MapperError (List Node)}
    (h : topElement m tag children = .ok after) :
    (name tag ∉ statementTags ∧ after = m) ∨
      name tag ∈ statementTags ∧ ∃ attrs nodes, attributes tag = .ok attrs ∧ children = .ok nodes ∧
        declared m ⟨name tag, scanId "" attrs, nodes⟩ = .ok after := by
  rw [topElement] at h
  split at h
  · next hname =>
    obtain ⟨attrs, hattrs, h⟩ := bind_eq_ok.1 h
    obtain ⟨nodes, hnodes, h⟩ := bind_eq_ok.1 h
    exact .inr ⟨hname, attrs, nodes, hattrs, hnodes, h⟩
  · next hname => exact .inl ⟨hname, (Except.ok.inj h).symm⟩

end Reading

namespace Loading

/-- The end of an element leaves the statements that are there as they are. -/
theorem extends_of_closeNode {m after : Mapper} {stack outer : List OpenElement}
    {element : OpenElement} (h : closeNode m stack element = .ok (after, outer)) :
    m.Extends after := by
  rw [closeNode] at h
  split at h
  · cases h
  · split at h
    · cases h
      exact .refl m
    · split at h
      · rw [addStatement_eq] at h
        split at h
        · cases h
        · rename_i hdeclared
          cases h
          exact (Reading.declared_spec hdeclared).1
      · cases h
        exact .refl m

/-- What loading has come to: the reader has gone on, and a mapper keeps what it had. -/
structure Becomes (s after : Loading) : Prop where
  delivers : ∃ es, s.reader.Delivers es after.reader
  mapper : ∀ m, s.mapper = some m → ∃ m', after.mapper = some m' ∧ m.Extends m'

section

variable {s after last : Loading}

/-- What loading does in two goes it has done in the end. -/
theorem Becomes.trans (h : s.Becomes after) (h' : after.Becomes last) : s.Becomes last where
  delivers := by
    obtain ⟨es, hes⟩ := h.delivers
    obtain ⟨fs, hfs⟩ := h'.delivers
    exact ⟨es ++ fs, hes.append hfs⟩
  mapper m hm := by
    obtain ⟨mid, hmid, hextends⟩ := h.mapper m hm
    obtain ⟨m', hm', hextends'⟩ := h'.mapper mid hmid
    exact ⟨m', hm', hextends.trans hextends'⟩

/-- The stack may change in any way. -/
theorem becomes_of_stack (s : Loading) (stack : List OpenElement) :
    s.Becomes { s with stack := stack } :=
  ⟨⟨[], .done _⟩, fun m hm => ⟨m, hm, .refl m⟩⟩

/-- The reader may go on. -/
theorem becomes_of_reader {reader : Reader} (h : ∃ es, s.reader.Delivers es reader) :
    s.Becomes { s with reader := reader } :=
  ⟨h, fun m hm => ⟨m, hm, .refl m⟩⟩

/-- An end tag may add a statement. -/
theorem becomes_of_closeNode {m m' : Mapper} {stack outer : List OpenElement}
    {element : OpenElement} (hm : s.mapper = some m)
    (h : closeNode m stack element = .ok (m', outer)) :
    s.Becomes { s with mapper := some m', stack := outer } := by
  refine ⟨⟨[], .done _⟩, fun m₀ hm₀ => ⟨m', rfl, ?_⟩⟩
  cases hm.symm.trans hm₀
  exact extends_of_closeNode h

/-- A start tag may make the reader skip to the end tag. -/
theorem becomes_of_openElement {m : Mapper} {tag : Tag} (h : s.openElement m tag = .ok after) :
    s.Becomes after := by
  simp only [openElement] at h
  split at h
  · split at h
    · cases h
    · rename_i hskip
      cases h
      exact becomes_of_reader (Reader.exists_delivers_of_skip hskip)
  · split at h
    · cases h
    · cases h
      exact s.becomes_of_stack _

/-- An element that is written as one tag may add a statement. -/
theorem becomes_of_emptyElement {m : Mapper} {tag : Tag} (hm : s.mapper = some m)
    (h : s.emptyElement m tag = .ok after) : s.Becomes after := by
  simp only [emptyElement] at h
  split at h
  · cases h
    exact becomes_of_stack _ _
  · split at h
    · cases h
    · split at h
      · cases h
      · rename_i hclose
        cases h
        exact becomes_of_closeNode hm hclose

/-- So may an end tag, whatever is open. -/
theorem becomes_of_closeElement (h : s.closeElement = .ok after) : s.Becomes after := by
  rw [closeElement] at h
  split at h
  · rename_i hm
    split at h
    · cases h
    · rename_i hclose
      cases h
      exact becomes_of_closeNode hm hclose
  · cases h
    exact becomes_of_stack _ _

/-- Text changes the stack alone. -/
theorem becomes_of_addText {text : String} (h : s.addText text = .ok after) : s.Becomes after := by
  rw [addText] at h
  split at h
  · cases h
  · cases h
    exact s.becomes_of_stack _

/-- Where there was no mapper there is none to keep. -/
theorem becomes_of_openMapper {tag : Tag} (hm : s.mapper = none)
    (h : (openMapper tag).map (fun m => { s with mapper := some m }) = .ok after) :
    s.Becomes after := by
  cases hopen : openMapper tag with
  | error e =>
    rw [hopen] at h
    cases h
  | ok m =>
    rw [hopen] at h
    cases h
    refine ⟨⟨[], .done _⟩, fun m₀ hm₀ => ?_⟩
    cases hm.symm.trans hm₀

/-- **What one event does.** -/
theorem becomes_of_take {event : Event} (h : s.take event = .ok after) : s.Becomes after := by
  have same : Except.ok (ε := MapperError) s = .ok after → s.Becomes after := by
    intro h
    cases h
    exact s.becomes_of_stack _
  -- one case for each kind of event
  simp only [take] at h
  split at h
  · split at h
    · rename_i hm
      exact becomes_of_openMapper hm h
    · exact becomes_of_openElement h
  · split at h
    · rename_i hm
      exact becomes_of_openMapper hm h
    · rename_i hm
      exact becomes_of_emptyElement hm h
  · exact becomes_of_closeElement h
  · split at h
    · exact same h
    · split at h
      · cases h
      · exact becomes_of_addText h
  · split at h
    · exact same h
    · exact becomes_of_addText h
  · exact same h

/-- **What one step does.** -/
theorem becomes_of_step (h : s.step = .ok (some after)) : s.Becomes after := by
  obtain ⟨event, reader, hnext, htake⟩ := exists_take_of_step h
  exact (becomes_of_reader ⟨[event], .single hnext⟩).trans (becomes_of_take htake)

/-- **What loading does**, to the end of the document. -/
theorem becomes_of_run (h : s.run = .ok last) :
    s.Becomes last ∧ last.reader.next = .ok none := by
  fun_induction run s with
  | case1 s e hstep => cases h
  | case2 s hstep =>
    cases h
    refine ⟨last.becomes_of_stack _, ?_⟩
    rw [step] at hstep
    split at hstep
    · cases hstep
    · assumption
    · split at hstep <;> cases hstep
  | case3 s after hstep ih =>
    obtain ⟨hbecomes, hend⟩ := ih h
    exact ⟨(becomes_of_step hstep).trans hbecomes, hend⟩

end

end Loading

/-! ## Statements below the root -/

/-- From the start tag of a child of the root on, the rest of a document has these events. Before
the root there is no element. -/
def UnderRoot (events here : List Event) : Prop :=
  ∃ prolog root before, (∀ c ∈ prolog, c.isElement = false) ∧
    events = Content.eventsAll prolog ++ .open root :: (Content.eventsAll before ++ here)

/-- A mapper has the statement of a tag: the attributes give it an id under which it is found, with
the nodes that its children give. -/
def Mapper.Declares (m : Mapper) (tag : Tag) (children : List Content) : Prop :=
  ∃ attrs nodes, Reading.attributes tag = .ok attrs ∧
    Reading.parts m.space children = .ok nodes ∧ scanId "" attrs ≠ "" ∧
    m.fragment? (scanId "" attrs) = some ⟨Reading.name tag, scanId "" attrs, nodes⟩

/-- What a mapper declares it goes on declaring. -/
theorem Mapper.Declares.of_extends {m after : Mapper} {tag : Tag} {children : List Content}
    (h : m.Declares tag children) (hextends : m.Extends after) : after.Declares tag children := by
  obtain ⟨attrs, nodes, hattrs, hnodes, hid, hget⟩ := h
  refine ⟨attrs, nodes, hattrs, ?_, hid, hextends.kept _ _ hget⟩
  rwa [hextends.space]

/-- A statement that is read is declared. -/
theorem Reading.declares_of_topElement {m after : Mapper} {tag : Tag} {children : List Content}
    (hname : name tag ∈ statementTags)
    (h : topElement m tag (parts m.space children) = .ok after) :
    after.Declares tag children := by
  obtain ⟨hnot, -⟩ | ⟨-, attrs, nodes, hattrs, hnodes, h⟩ := topElement_cases h
  · exact absurd hname hnot
  obtain ⟨hextends, hid, hget⟩ := declared_spec h
  refine ⟨attrs, nodes, hattrs, ?_, hid, hget⟩
  rwa [hextends.space]

namespace Loading

open Reading

/-- A document is loaded by a run to its end, and the reader has delivered all its events then. -/
theorem exists_run_of_ofDocument {document : String} {m : Mapper}
    (h : Mapper.ofDocument document = .ok m) :
    ∃ last events, run (start document) = .ok last ∧ last.mapper = some m ∧
      (Reader.start document).Delivers events last.reader ∧ last.reader.next = .ok none := by
  rw [ofDocument_eq] at h
  obtain ⟨last, hrun, hlast⟩ := bind_eq_ok.1 h
  obtain ⟨⟨⟨events, hevents⟩, -⟩, hend⟩ := becomes_of_run hrun
  refine ⟨last, events, hrun, ?_, hevents, hend⟩
  split at hlast
  · cases hlast
  · rename_i hm
    rw [hm, Except.ok.inj hlast]

/-- Loading comes to each child of the root with the mapper that those before it give, and without
open elements. For the reader the root alone is open. -/
theorem exists_run_of_children {document : String} {last : Loading} {end' : Reader}
    {prolog before : List Content} {root : Tag} {here : List Event}
    (hrun : run (start document) = .ok last) (hprolog : ∀ c ∈ prolog, c.isElement = false)
    (hdelivers : (Reader.start document).Delivers
      (Content.eventsAll prolog ++ .open root :: (Content.eventsAll before ++ here)) end') :
    ∃ m reader, openRoot root >>= before.foldlM top = .ok m ∧ reader.Delivers here end' ∧
      reader.opened.length = 1 ∧ run ⟨reader, some m, []⟩ = .ok last := by
  obtain ⟨first, hpre, hrest⟩ := Reader.delivers_append_iff.1 hdelivers
  obtain ⟨inner, hopen, hrest⟩ := Reader.delivers_cons_iff.1 hrest
  obtain ⟨reader, hbefore, hhere⟩ := Reader.delivers_append_iff.1 hrest
  have hlength : reader.opened.length = 1 := by
    have hpush : inner.opened = root.name :: first.opened := Reader.next_moves hopen
    rw [Content.openedAll_eq before hbefore, hpush, Content.openedAll_eq prolog hpre,
      Reader.opened_start]
    rfl
  rw [start, run_misc prolog none hprolog hpre, run_of_next hopen, take_open_root,
    bind_assoc] at hrun
  obtain ⟨opened, hroot, hrun⟩ := bind_eq_ok.1 hrun
  rw [pure_bind, run_tops before opened hbefore] at hrun
  obtain ⟨m, hm, hrun⟩ := bind_eq_ok.1 hrun
  exact ⟨m, reader, bind_eq_ok.2 ⟨opened, hroot, hm⟩, hhere, hlength, hrun⟩

/-- What a child of the root adds to the mapper stays there. -/
theorem exists_top_of_run {reader end' : Reader} {m : Mapper} {last : Loading} {c : Content}
    {behind : List Event} (hdelivers : reader.Delivers (c.events ++ behind) end')
    (hrun : run ⟨reader, some m, []⟩ = .ok last) :
    ∃ mid, top m c = .ok mid ∧ ∃ after, last.mapper = some after ∧ mid.Extends after := by
  obtain ⟨next, hc, -⟩ := Reader.delivers_append_iff.1 hdelivers
  rw [run_top m hc] at hrun
  obtain ⟨mid, htop, hrun⟩ := bind_eq_ok.1 hrun
  exact ⟨mid, htop, (becomes_of_run hrun).1.mapper mid rfl⟩

/-- Inside of a statement that does not end, nothing is added to the mapper. -/
theorem mapper_of_run_unended {es : List Event} (h : Event.Unended es) {here end' : Reader}
    {m : Mapper} {parent : OpenElement} {outer : List OpenElement} {last : Loading}
    (hdelivers : here.Delivers es end') (hend : end'.next = .ok none)
    (hrun : run ⟨here, some m, parent :: outer⟩ = .ok last) : last.mapper = some m := by
  induction h generalizing here parent outer with
  | parts cs =>
    rw [run_parts cs m parent outer hdelivers] at hrun
    obtain ⟨nodes, -, hrun⟩ := bind_eq_ok.1 hrun
    rw [run_of_next_none hend] at hrun
    cases hrun
    rfl
  | inside cs tag _ ih =>
    -- the element that does not end is one more entry on the stack
    obtain ⟨mid, hcs, hrest⟩ := Reader.delivers_append_iff.1 hdelivers
    obtain ⟨inner, hopen, hrest⟩ := Reader.delivers_cons_iff.1 hrest
    rw [run_parts cs m parent outer hcs] at hrun
    obtain ⟨nodes, -, hrun⟩ := bind_eq_ok.1 hrun
    rw [run_of_next hopen, take_open_inner, bind_assoc] at hrun
    obtain ⟨node, -, hrun⟩ := bind_eq_ok.1 hrun
    exact ih hrest hrun

end Loading

/-- **No statement that ends is lost.** From every document that loads, each statement element
below the root that has its end tag or is written as one tag is declared: it is found under its id,
with all of its content. And if no more than one element, the root, is open at the end of the
document, each statement element below the root has its end tag. -/
theorem ofDocument_declares {document : String} {m : Mapper}
    (h : Mapper.ofDocument document = .ok m) :
    ∃ events unclosed, (Reader.start document).events = .ok (events, unclosed) ∧
      ∀ tag, Reading.name tag ∈ statementTags →
        (∀ children behind, UnderRoot events
          (.open tag :: (Content.eventsAll children ++ .close tag.name :: behind)) →
            m.Declares tag children) ∧
        (∀ behind, UnderRoot events (.empty tag :: behind) → m.Declares tag []) ∧
        (unclosed.length ≤ 1 → ∀ rest, UnderRoot events (.open tag :: rest) → ∃ children behind,
          rest = Content.eventsAll children ++ .close tag.name :: behind) := by
  obtain ⟨last, events, hrun, hmapper, hevents, hend⟩ := Loading.exists_run_of_ofDocument h
  -- a child of the root that is read whole adds its statement
  have hchild : ∀ (c : Content) (behind : List Event), UnderRoot events (c.events ++ behind) →
      ∃ before mid, Reading.top before c = .ok mid ∧ mid.Extends m := by
    rintro c behind ⟨prolog, root, cs, hprolog, rfl⟩
    obtain ⟨before, reader, -, hhere, -, hrest⟩ :=
      Loading.exists_run_of_children hrun hprolog hevents
    obtain ⟨mid, htop, after, hafter, hextends⟩ := Loading.exists_top_of_run hhere hrest
    cases hmapper.symm.trans hafter
    exact ⟨before, mid, htop, hextends⟩
  refine ⟨events, last.reader.opened, hevents.events_eq hend, fun tag hname => ⟨?_, ?_, ?_⟩⟩
  · intro children behind hunder
    obtain ⟨before, mid, htop, hextends⟩ := hchild (.element tag [] children) behind (by
      simpa [Content.events] using hunder)
    exact (Reading.declares_of_topElement hname htop).of_extends hextends
  · intro behind hunder
    obtain ⟨before, mid, htop, hextends⟩ := hchild (.single tag) behind hunder
    have hdeclares : mid.Declares tag [] := Reading.declares_of_topElement hname htop
    exact hdeclares.of_extends hextends
  · rintro hunclosed rest ⟨prolog, root, cs, hprolog, rfl⟩
    obtain ⟨before, reader, -, hhere, hlength, -⟩ :=
      Loading.exists_run_of_children hrun hprolog hevents
    exact hhere.exists_endTag (by omega)

/-- A document that ends inside of its third statement. -/
def truncatedDocument : String :=
  "<mapper namespace=\"a\"><sql id=\"b\">x</sql><select id=\"c\"/><sql id=\"d\">y"

/-- The two statements of the sample that end are declared, the one in which it ends is not in their
way. -/
theorem ofDocument_declares_truncatedDocument :
    ∃ m, Mapper.ofDocument truncatedDocument = .ok m ∧
      m.Declares ⟨"sql id=\"b\"".toList⟩ [.text ['x']] ∧
      m.Declares ⟨"select id=\"c\"".toList⟩ [] := by
  have hok : (Mapper.ofDocument truncatedDocument).isOk := by decide +kernel
  cases h : Mapper.ofDocument truncatedDocument with
  | error e =>
    rw [h] at hok
    cases hok
  | ok m =>
    obtain ⟨events, unclosed, hevents, hdeclares⟩ := ofDocument_declares h
    have hlist : (Reader.start truncatedDocument).events = .ok ([
        .open ⟨"mapper namespace=\"a\"".toList⟩, .open ⟨"sql id=\"b\"".toList⟩, .text ['x'],
        .close "sql".toList, .empty ⟨"select id=\"c\"".toList⟩, .open ⟨"sql id=\"d\"".toList⟩,
        .text ['y']], ["sql".toList, "mapper".toList]) := by decide +kernel
    obtain ⟨rfl, rfl⟩ := Prod.mk.inj (Except.ok.inj (hevents.symm.trans hlist))
    refine ⟨m, rfl, ?_, ?_⟩
    · exact (hdeclares _ (by decide +kernel)).1 [.text ['x']] _
        ⟨[], ⟨"mapper namespace=\"a\"".toList⟩, [], by simp, rfl⟩
    · exact (hdeclares _ (by decide +kernel)).2.1 _
        ⟨[], ⟨"mapper namespace=\"a\"".toList⟩,
          [.element ⟨"sql id=\"b\"".toList⟩ [] [.text ['x']]], by simp, rfl⟩

/-- **A statement that does not end is lost without an error.** Where the document ends inside of
a statement, what is loaded is what the children of the root before it give. -/
theorem ofDocument_of_unended {document : String} {m : Mapper} {prolog before : List Content}
    {root tag : Tag} {rest : List Event} {unclosed : List (List Char)}
    (h : Mapper.ofDocument document = .ok m) (hprolog : ∀ c ∈ prolog, c.isElement = false)
    (hevents : (Reader.start document).events = .ok (Content.eventsAll prolog ++
      .open root :: (Content.eventsAll before ++ .open tag :: rest), unclosed))
    (hname : Reading.name tag ∈ statementTags) (hunended : Event.Unended rest) :
    Reading.openRoot root >>= before.foldlM Reading.top = .ok m := by
  obtain ⟨last, events, hrun, hmapper, hdelivers, hend⟩ := Loading.exists_run_of_ofDocument h
  rw [hdelivers.events_eq hend, Except.ok.injEq, Prod.mk.injEq] at hevents
  obtain ⟨rfl, -⟩ := hevents
  obtain ⟨before', reader, hbefore, hhere, -, hrest⟩ :=
    Loading.exists_run_of_children hrun hprolog hdelivers
  obtain ⟨inner, hopen, hinner⟩ := Reader.delivers_cons_iff.1 hhere
  have hstatement : isStatementTag (Loading.elementName tag) := by
    rw [Loading.isStatementTag_eq, decide_eq_true_eq]
    exact hname
  rw [Loading.run_of_next hopen, Loading.take_open_statement _ _ hstatement, bind_assoc] at hrest
  obtain ⟨attrs, -, hrest⟩ := bind_eq_ok.1 hrest
  have hlast := Loading.mapper_of_run_unended hunended hinner hend hrest
  rw [hbefore, Option.some.inj (hmapper.symm.trans hlast)]

/-- Where a document ends inside of a statement the mapper is loaded without it. -/
theorem ofDocument_unended :
    (Mapper.ofDocument "<mapper namespace=\"a\"><sql id=\"b\">x").map (·.fragments.keys)
      = .ok [] ∧
    ∃ events unclosed,
      (Reader.start "<mapper namespace=\"a\"><sql id=\"b\">x").events = .ok (events, unclosed) ∧
      UnderRoot events [.open ⟨"sql id=\"b\"".toList⟩, .text ['x']] := by
  refine ⟨by decide +kernel, [.open ⟨"mapper namespace=\"a\"".toList⟩,
    .open ⟨"sql id=\"b\"".toList⟩, .text ['x']], ["sql".toList, "mapper".toList],
    by decide +kernel, ?_⟩
  exact ⟨[], ⟨"mapper namespace=\"a\"".toList⟩, [], by simp, rfl⟩

end SqlFragments
