import SqlFragments.Proofs.Mapper.Declaration

/-! # What stands behind the root

Loading does not notice where the root ends. An element behind it is read as one more child of the
root, so a statement there is declared as well.

* `Outline`: the events of a document, as the children of the root and the parts behind the root;
* `Reading.fragment?_of_foldlM`: the parts of a list declare what each of them gives, and nothing
  else;
* `Loading.exists_outline`, `Loading.exists_mapper_of_outline`: every document that loads has an
  outline, and loading declares what the parts of the outline give;
* `ofDocument_outline`: so all fragments come from inside the root just if no statement stands
  behind it. -/

namespace SqlFragments

open SqlFragments.Markup

/-! ## What the parts of a mapper give -/

namespace Reading

/-- A part is a statement element. -/
def IsStatement : Content → Prop
  | .element tag _ _ => name tag ∈ statementTags
  | .single tag => name tag ∈ statementTags
  | _ => False

/-- A part is a statement element, and in a mapper of this namespace it gives the fragment. -/
inductive Gives (space : String) : Content → Fragment → Prop where
  | element {tag : Tag} {spaces : List Char} {children : List Content} {attrs : List Attribute}
    {nodes : List Node} (hname : name tag ∈ statementTags) (hattrs : attributes tag = .ok attrs)
    (hnodes : parts space children = .ok nodes) :
    Gives space (.element tag spaces children) ⟨name tag, scanId "" attrs, nodes⟩
  | single {tag : Tag} {attrs : List Attribute} (hname : name tag ∈ statementTags)
    (hattrs : attributes tag = .ok attrs) : Gives space (.single tag) ⟨name tag, scanId "" attrs, []⟩

/-- Only statements give fragments. -/
theorem Gives.isStatement {space : String} {c : Content} {fragment : Fragment}
    (h : Gives space c fragment) : IsStatement c := by
  cases h <;> assumption

/-- A statement gives one fragment. -/
theorem Gives.unique {space : String} {c : Content} {fragment other : Fragment}
    (h : Gives space c fragment) (hother : Gives space c other) : fragment = other := by
  cases h with
  | element _ hattrs hnodes =>
    cases hother with
    | element _ hattrs' hnodes' =>
      cases hattrs.symm.trans hattrs'
      cases hnodes.symm.trans hnodes'
      rfl
  | single _ hattrs =>
    cases hother with
    | single _ hattrs' =>
      cases hattrs.symm.trans hattrs'
      rfl

/-- **What a part does to the mapper.** It is passed over, or declares the fragment that it
gives. -/
theorem top_cases {m after : Mapper} {c : Content} (h : top m c = .ok after) :
    (¬ IsStatement c ∧ after = m) ∨
      ∃ fragment, Gives m.space c fragment ∧ declared m fragment = .ok after := by
  cases c with
  | element tag spaces children =>
    obtain hpassed | ⟨hname, attrs, nodes, hattrs, hnodes, hdeclared⟩ := topElement_cases h
    · exact .inl hpassed
    · exact .inr ⟨_, .element hname hattrs hnodes, hdeclared⟩
  | single tag =>
    obtain hpassed | ⟨hname, attrs, nodes, hattrs, hnodes, hdeclared⟩ := topElement_cases h
    · exact .inl hpassed
    · cases hnodes
      exact .inr ⟨_, .single hname hattrs, hdeclared⟩
  | text raw => exact .inl ⟨id, (Except.ok.inj h).symm⟩
  | cdata raw => exact .inl ⟨id, (Except.ok.inj h).symm⟩
  | aside a => exact .inl ⟨id, (Except.ok.inj h).symm⟩

/-- **One part** adds the fragment that it gives, if it gives one, under its id. -/
theorem fragment?_of_top {m after : Mapper} {c : Content} (h : top m c = .ok after) :
    after.space = m.space ∧ ∀ id fragment, after.fragment? id = some fragment ↔
      m.fragment? id = some fragment ∨ fragment.id = id ∧ Gives m.space c fragment := by
  obtain ⟨hnot, rfl⟩ | ⟨given, hgiven, hdeclared⟩ := top_cases h
  · refine ⟨rfl, fun id fragment => ?_⟩
    have hnone : ¬ Gives after.space c fragment := fun hgives => hnot hgives.isStatement
    simp [hnone]
  · obtain ⟨-, hnew, rfl⟩ := declared_eq_ok_iff.1 hdeclared
    refine ⟨rfl, fun id fragment => ?_⟩
    rw [Mapper.fragment?, Dict.get?_insert]
    by_cases hid : given.id = id
    · -- the id was not taken before
      subst hid
      rw [if_pos rfl, Option.some.injEq, hnew]
      constructor
      · rintro rfl
        exact .inr ⟨rfl, hgiven⟩
      · rintro (hsome | ⟨-, hgives⟩)
        · cases hsome
        · exact hgiven.unique hgives
    · rw [if_neg hid]
      refine ⟨.inl, ?_⟩
      rintro (hold | ⟨rfl, hgives⟩)
      · exact hold
      · exact absurd (congrArg Fragment.id (hgiven.unique hgives)) hid

/-- **The parts of a list declare what each of them gives**, and nothing else. -/
theorem fragment?_of_foldlM {cs : List Content} {m after : Mapper}
    (h : cs.foldlM top m = .ok after) :
    after.space = m.space ∧ ∀ id fragment, after.fragment? id = some fragment ↔
      m.fragment? id = some fragment ∨ fragment.id = id ∧ ∃ c ∈ cs, Gives m.space c fragment := by
  induction cs generalizing m with
  | nil =>
    cases h
    simp
  | cons c cs ih =>
    rw [List.foldlM_cons] at h
    obtain ⟨mid, htop, hrest⟩ := bind_eq_ok.1 h
    obtain ⟨hspace, hfirst⟩ := fragment?_of_top htop
    obtain ⟨hspace', hmore⟩ := ih hrest
    refine ⟨hspace'.trans hspace, fun id fragment => ?_⟩
    rw [hmore, hfirst, hspace, List.exists_mem_cons_iff, and_or_left, or_assoc]

/-- Each statement of a list gives a fragment, under an id that was not taken. -/
theorem exists_gives_of_mem {cs : List Content} {m after : Mapper}
    (h : cs.foldlM top m = .ok after) {c : Content} (hc : c ∈ cs) (hstatement : IsStatement c) :
    ∃ fragment, Gives m.space c fragment ∧ m.fragment? fragment.id = none := by
  induction cs generalizing m with
  | nil => cases hc
  | cons d cs ih =>
    rw [List.foldlM_cons] at h
    obtain ⟨mid, htop, hrest⟩ := bind_eq_ok.1 h
    rcases List.mem_cons.1 hc with rfl | hc
    · obtain ⟨hnot, -⟩ | ⟨fragment, hgives, hdeclared⟩ := top_cases htop
      · exact absurd hstatement hnot
      · exact ⟨fragment, hgives, (declared_eq_ok_iff.1 hdeclared).2.1⟩
    · obtain ⟨hspace, hkept⟩ := fragment?_of_top htop
      obtain ⟨fragment, hgives, hnew⟩ := ih hrest hc
      rw [hspace] at hgives
      refine ⟨fragment, hgives, Option.eq_none_iff_forall_ne_some.2 fun other hother => ?_⟩
      rw [(hkept _ other).2 (.inl hother)] at hnew
      cases hnew

/-- The mapper of a root is empty. -/
theorem openRoot_eq_empty {tag : Tag} {m : Mapper} (h : openRoot tag = .ok m) :
    m = Mapper.empty m.space :=
  (openRoot_spec h).1

end Reading

/-! ## Outlines -/

/-- The events of a document. There is no element before the root; `inner` are the children of the
root and `outer` the parts behind it. -/
inductive Outline : Tag → List Content → List Content → List Event → Prop where
  /-- The root has its end tag. -/
  | ended {prolog inner outer : List Content} {root : Tag} {cut : List Event}
    (hprolog : ∀ c ∈ prolog, c.isElement = false) (hcut : Event.CutOff cut) :
    Outline root inner outer (Content.eventsAll prolog ++ .open root ::
      (Content.eventsAll inner ++ .close root.name :: (Content.eventsAll outer ++ cut)))
  /-- The root is written as one tag. -/
  | single {prolog outer : List Content} {root : Tag} {cut : List Event}
    (hprolog : ∀ c ∈ prolog, c.isElement = false) (hcut : Event.CutOff cut) :
    Outline root [] outer (Content.eventsAll prolog ++ .empty root ::
      (Content.eventsAll outer ++ cut))
  /-- The root does not end. -/
  | unended {prolog inner : List Content} {root : Tag} {cut : List Event}
    (hprolog : ∀ c ∈ prolog, c.isElement = false) (hcut : Event.CutOff cut) :
    Outline root inner [] (Content.eventsAll prolog ++ .open root ::
      (Content.eventsAll inner ++ cut))

namespace Loading

open Reading

/-- **Every document that loads has an outline.** -/
theorem exists_outline {document : String} {last : Loading} {m : Mapper} {events : List Event}
    (hrun : run (start document) = .ok last) (hmapper : last.mapper = some m)
    (hdelivers : (Reader.start document).Delivers events last.reader)
    (hend : last.reader.next = .ok none) : ∃ root inner outer, Outline root inner outer events := by
  obtain ⟨cs, cut, rfl, hcut⟩ := (Reader.unended_of_start hdelivers).exists_cutOff
  cases hfirst : cs.find? Content.isElement with
  | some c =>
    -- the first element is the root
    obtain ⟨helement, prolog, outer, rfl, hprolog⟩ := List.find?_eq_some_iff_append.1 hfirst
    have hprolog : ∀ c ∈ prolog, c.isElement = false := by
      simpa using hprolog
    rw [Content.eventsAll_append, List.append_assoc]
    cases c with
    | element root spaces inner =>
      refine ⟨root, inner, outer, ?_⟩
      simpa [Content.eventsAll, Content.events] using Outline.ended hprolog hcut
    | single root => exact ⟨root, [], outer, .single hprolog hcut⟩
    | text raw => cases helement
    | cdata raw => cases helement
    | aside a => cases helement
  | none =>
    -- if there is a root, it is the element that does not end
    have hprolog : ∀ c ∈ cs, c.isElement = false := by
      simpa using hfirst
    rcases hcut with rfl | ⟨root, rest, rfl, hunended⟩
    · -- without an element there is no mapper
      rw [List.append_nil] at hdelivers
      have hlast : run ⟨last.reader, none, []⟩ = .ok ⟨last.reader, none, []⟩ :=
        run_of_next_none hend
      rw [start, run_misc cs none hprolog hdelivers, hlast] at hrun
      rw [← Except.ok.inj hrun] at hmapper
      cases hmapper
    · obtain ⟨inner, cut, rfl, hcut⟩ := hunended.exists_cutOff
      exact ⟨root, inner, [], .unended hprolog hcut⟩

section Running

variable {here : Reader} {m : Mapper} {last : Loading}

/-- What is cut off adds nothing: a statement is lost, and another element is an error. -/
theorem mapper_of_run_cutOff {cut : List Event} (hcut : Event.CutOff cut)
    (hdelivers : here.Delivers cut last.reader) (hend : last.reader.next = .ok none)
    (hrun : run ⟨here, some m, []⟩ = .ok last) : last.mapper = some m := by
  rcases hcut with rfl | ⟨tag, rest, rfl, hunended⟩
  · rw [hdelivers.eq_of_nil] at hend
    rw [run_of_next_none hend] at hrun
    cases hrun
    rfl
  · obtain ⟨inner, hopen, hrest⟩ := Reader.delivers_cons_iff.1 hdelivers
    rw [run_of_next hopen] at hrun
    cases hname : isStatementTag (elementName tag) with
    | true =>
      -- the events inside of it stay on the stack
      rw [take_open_statement _ _ hname, bind_assoc] at hrun
      obtain ⟨attrs, -, hrun⟩ := bind_eq_ok.1 hrun
      exact mapper_of_run_unended hunended hrest hend hrun
    | false =>
      -- skipping misses the end tag, so the document would not have loaded
      have hskip : inner.skip tag.name 0 = _ := Reader.skip_unended hunended tag.name hrest hend
      have htake : take ⟨inner, some m, []⟩ (.open tag)
          = .error (.markup (.missingEndTag (String.ofList tag.name))) := by
        simp [take, openElement, hname, hskip]
      rw [htake] at hrun
      cases hrun

/-- Loading reads the parts of the document that are left, and stops there. -/
theorem exists_mapper_of_run {cs : List Content} {cut : List Event} (hcut : Event.CutOff cut)
    (hdelivers : here.Delivers (Content.eventsAll cs ++ cut) last.reader)
    (hend : last.reader.next = .ok none) (hrun : run ⟨here, some m, []⟩ = .ok last) :
    ∃ after, cs.foldlM top m = .ok after ∧ last.mapper = some after := by
  obtain ⟨mid, hcs, hrest⟩ := Reader.delivers_append_iff.1 hdelivers
  rw [run_tops cs m hcs] at hrun
  obtain ⟨after, hafter, hrun⟩ := bind_eq_ok.1 hrun
  exact ⟨after, hafter, mapper_of_run_cutOff hcut hrest hend hrun⟩

/-- **What loading declares.** The children of the root count, and so do the parts behind it. -/
theorem exists_mapper_of_outline {document : String} {root : Tag} {inner outer : List Content}
    {events : List Event} (h : Outline root inner outer events)
    (hrun : run (start document) = .ok last)
    (hdelivers : (Reader.start document).Delivers events last.reader)
    (hend : last.reader.next = .ok none) : ∃ opened mid after, openRoot root = .ok opened ∧
      inner.foldlM top opened = .ok mid ∧ outer.foldlM top mid = .ok after ∧
      last.mapper = some after := by
  cases h with
  | ended hprolog hcut =>
    obtain ⟨mid, reader, hmid, hhere, -, hrun⟩ := exists_run_of_children hrun hprolog hdelivers
    obtain ⟨opened, hopened, hinner⟩ := bind_eq_ok.1 hmid
    obtain ⟨behind, hclose, hrest⟩ := Reader.delivers_cons_iff.1 hhere
    -- the end tag of the root changes nothing
    have htake : take ⟨behind, some mid, []⟩ (.close root.name) = .ok ⟨behind, some mid, []⟩ := rfl
    rw [run_of_next hclose, htake] at hrun
    obtain ⟨after, houter, hafter⟩ := exists_mapper_of_run hcut hrest hend hrun
    exact ⟨opened, mid, after, hopened, hinner, houter, hafter⟩
  | @single prolog _ _ cut hprolog hcut =>
    obtain ⟨first, hpre, htail⟩ := Reader.delivers_append_iff.1 hdelivers
    obtain ⟨behind, hempty, hrest⟩ := Reader.delivers_cons_iff.1 htail
    rw [start, run_misc prolog none hprolog hpre, run_of_next hempty, take_empty_root,
      bind_assoc] at hrun
    obtain ⟨opened, hopened, hrun⟩ := bind_eq_ok.1 hrun
    obtain ⟨after, houter, hafter⟩ := exists_mapper_of_run hcut hrest hend hrun
    exact ⟨opened, opened, after, hopened, rfl, houter, hafter⟩
  | unended hprolog hcut =>
    obtain ⟨mid, reader, hmid, hhere, -, hrun⟩ := exists_run_of_children hrun hprolog hdelivers
    obtain ⟨opened, hopened, hinner⟩ := bind_eq_ok.1 hmid
    exact ⟨opened, mid, mid, hopened, hinner, rfl, mapper_of_run_cutOff hcut hhere hend hrun⟩

end Running

end Loading

/-- **Where fragments come from.** Every document that loads has an outline. Its root is a mapper,
and what is loaded is what the statements give that stand in the root or behind it, each under its
own id. So all fragments come from inside the root just if no statement stands behind it. -/
theorem ofDocument_outline {document : String} {m : Mapper}
    (h : Mapper.ofDocument document = .ok m) :
    ∃ events unclosed, (Reader.start document).events = .ok (events, unclosed) ∧
      (∃ root inner outer, Outline root inner outer events) ∧
      ∀ root inner outer, Outline root inner outer events →
        Reading.openRoot root = .ok (Mapper.empty m.space) ∧
        (∀ id fragment, m.fragment? id = some fragment ↔
          fragment.id = id ∧ ∃ c ∈ inner ++ outer, Reading.Gives m.space c fragment) ∧
        ((∀ id fragment, m.fragment? id = some fragment →
            ∃ c ∈ inner, Reading.Gives m.space c fragment) ↔
          ∀ c ∈ outer, ¬ Reading.IsStatement c) := by
  obtain ⟨last, events, hrun, hmapper, hdelivers, hend⟩ := Loading.exists_run_of_ofDocument h
  refine ⟨events, last.reader.opened, hdelivers.events_eq hend,
    Loading.exists_outline hrun hmapper hdelivers hend, fun root inner outer houtline => ?_⟩
  obtain ⟨opened, mid, after, hopened, hinner, houter, hafter⟩ :=
    Loading.exists_mapper_of_outline houtline hrun hdelivers hend
  cases hmapper.symm.trans hafter
  obtain ⟨hspace, hmid⟩ := Reading.fragment?_of_foldlM hinner
  obtain ⟨hspace', hall⟩ := Reading.fragment?_of_foldlM houter
  rw [hspace] at hspace' hall
  have hempty := Reading.openRoot_eq_empty hopened
  have hinside : ∀ id fragment, mid.fragment? id = some fragment ↔
      fragment.id = id ∧ ∃ c ∈ inner, Reading.Gives opened.space c fragment := by
    intro id fragment
    have hnone : opened.fragment? id = none := by
      rw [hempty]
      exact Dict.get?_empty id
    simp [hmid, hnone]
  have hfragments : ∀ id fragment, m.fragment? id = some fragment ↔
      fragment.id = id ∧ ∃ c ∈ inner ++ outer, Reading.Gives opened.space c fragment := by
    intro id fragment
    simp only [hall, hinside, ← and_or_left, List.mem_append, or_and_right, exists_or]
  rw [hspace']
  refine ⟨hempty ▸ hopened, hfragments, ?_, ?_⟩
  · intro hfrom c hc hstatement
    -- its fragment could only come from another statement with the same id
    obtain ⟨fragment, hgives, hnew⟩ := Reading.exists_gives_of_mem houter hc hstatement
    rw [hspace] at hgives
    have hfragment := (hfragments fragment.id fragment).2
      ⟨rfl, c, List.mem_append_right inner hc, hgives⟩
    have hold := (hinside fragment.id fragment).2 ⟨rfl, hfrom _ _ hfragment⟩
    rw [hnew] at hold
    cases hold
  · intro hnone id fragment hfragment
    obtain ⟨-, c, hc, hgives⟩ := (hfragments id fragment).1 hfragment
    rcases List.mem_append.1 hc with hc | hc
    · exact ⟨c, hc, hgives⟩
    · exact absurd hgives.isStatement (hnone c hc)

/-- A document with an element behind the root that is no statement. -/
def trailingDocument : String := "<mapper namespace=\"a\"><sql id=\"b\">x</sql></mapper><cache/>"

/-- An element behind the root that is no statement declares nothing. -/
theorem ofDocument_outline_trailingDocument :
    ∃ m, Mapper.ofDocument trailingDocument = .ok m ∧ m.space = "a" ∧
      ∀ id fragment, m.fragment? id = some fragment →
        Reading.Gives "a" (.element ⟨"sql id=\"b\"".toList⟩ [] [.text ['x']]) fragment := by
  have hspace : (Mapper.ofDocument trailingDocument).map (·.space) = .ok "a" := by decide +kernel
  obtain ⟨m, h, hspace⟩ := map_eq_ok.1 hspace
  obtain ⟨events, unclosed, hevents, -, houtline⟩ := ofDocument_outline h
  have hlist : (Reader.start trailingDocument).events = .ok ([
      .open ⟨"mapper namespace=\"a\"".toList⟩, .open ⟨"sql id=\"b\"".toList⟩, .text ['x'],
      .close "sql".toList, .close "mapper".toList, .empty ⟨"cache".toList⟩], []) := by
    decide +kernel
  obtain ⟨rfl, rfl⟩ := Prod.mk.inj (Except.ok.inj (hevents.symm.trans hlist))
  obtain ⟨-, -, hinside⟩ := houtline ⟨"mapper namespace=\"a\"".toList⟩
    [.element ⟨"sql id=\"b\"".toList⟩ [] [.text ['x']]] [.single ⟨"cache".toList⟩]
    (.ended (List.forall_mem_nil _) (.inl rfl))
  refine ⟨m, h, hspace, fun id fragment hfragment => ?_⟩
  have hcache : Reading.name ⟨"cache".toList⟩ ∉ statementTags := by decide +kernel
  have hgives := hinside.2 (by simpa [Reading.IsStatement] using hcache) id fragment hfragment
  rw [hspace] at hgives
  simpa using hgives

/-- A statement behind a root without children is declared. -/
theorem ofDocument_behind_root :
    (Mapper.ofDocument "<mapper namespace=\"a\"/><sql id=\"b\">x</sql>").map (·.fragments.keys)
      = .ok ["b"] ∧
    ∃ events unclosed root outer,
      (Reader.start "<mapper namespace=\"a\"/><sql id=\"b\">x</sql>").events
        = .ok (events, unclosed) ∧
      Outline root [] outer events := by
  refine ⟨by decide +kernel, [.empty ⟨"mapper namespace=\"a\"".toList⟩,
    .open ⟨"sql id=\"b\"".toList⟩, .text ['x'], .close "sql".toList], [],
    ⟨"mapper namespace=\"a\"".toList⟩, [.element ⟨"sql id=\"b\"".toList⟩ [] [.text ['x']]],
    by decide +kernel, ?_⟩
  exact .single (List.forall_mem_nil _) (.inl rfl)

end SqlFragments
