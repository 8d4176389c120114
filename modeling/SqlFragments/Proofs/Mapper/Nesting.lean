import SqlFragments.Proofs.Mapper.Shape

/-! # The stack and the open elements

While a statement is read there are two stacks. The reader keeps the names of the elements that are
open, and loading keeps a node for each element of the statement. At an end tag loading takes off its
innermost entry without a look at the name. Here the two never come apart.

* `Begun`: an element that has begun, and `Loading.Entries`: the entries of the stack belong to the
  elements that have begun, one for one, the root left out;
* `RootPlace.Covers`: what has been read of a document up to a child of the root;
* `Loading.Stands`: what has been read of the document is whole parts and then the elements that have
  begun, so the names of these elements are the ones that the reader has open;
* `Loading.moments`: the states in which loading reads an event. `Loading.Stands.step` and
  `Loading.Stands.moments`: one step and a whole run keep what a state stands for;
* `moments_mirror`: so the two stacks mirror each other, and the end tag that does nothing is the one
  of the root. -/

namespace SqlFragments

open SqlFragments.Markup

/-! ## Elements that have begun -/

/-- An element that has begun and has not ended yet. -/
structure Begun where
  /-- Its start tag. -/
  tag : Tag
  /-- What has been read in it so far, as far as this has ended. -/
  parts : List Content

namespace Begun

/-- The events of elements that stand in one another, innermost first: each start tag, and the parts
behind it. -/
def eventsAll : List Begun → List Event
  | [] => []
  | b :: around => eventsAll around ++ .open b.tag :: Content.eventsAll b.parts

/-- The innermost element with a further part. -/
theorem eventsAll_append (tag : Tag) (parts : List Content) (around : List Begun) (c : Content) :
    eventsAll (⟨tag, parts ++ [c]⟩ :: around) = eventsAll (⟨tag, parts⟩ :: around) ++ c.events := by
  simp [eventsAll, Content.eventsAll_append, Content.eventsAll]

/-- With its end tag the innermost element is a part of the one around it. -/
theorem eventsAll_close (b : Begun) (around : List Begun) :
    eventsAll (b :: around) ++ [.close b.tag.name]
      = eventsAll around ++ (Content.element b.tag [] b.parts).events := by
  simp [eventsAll, Content.events]

/-- **Elements that have begun are open**; the parts that have been read in them leave nothing open. -/
theorem opened_eq {begun : List Begun} {a b : Reader} (h : a.Delivers (eventsAll begun) b) :
    b.opened = begun.map (·.tag.name) ++ a.opened := by
  induction begun generalizing b with
  | nil => rw [h.eq_of_nil, List.map_nil, List.nil_append]
  | cons first around ih =>
    obtain ⟨mid, haround, htail⟩ := Reader.delivers_append_iff.1 h
    obtain ⟨inner, hopen, hparts⟩ := Reader.delivers_cons_iff.1 htail
    have hpush : inner.opened = first.tag.name :: mid.opened := Reader.next_moves hopen
    rw [Content.openedAll_eq _ hparts, hpush, ih haround, List.map_cons, List.cons_append]

end Begun

/-! ## The root -/

/-- Where a place in a document lies, seen from the root. -/
inductive RootPlace where
  /-- In front of it. -/
  | ahead
  /-- Behind its start tag, while it is open. -/
  | inside (root : Tag)
  /-- Behind its end tag, or behind a root that is written as one tag. -/
  | behind

namespace RootPlace

/-- The name of the root, while it is open. -/
def opened : RootPlace → List (List Char)
  | .inside root => [root.name]
  | _ => []

/-- How many end tags of the root may follow. -/
def endTags : RootPlace → Nat
  | .behind => 0
  | _ => 1

/-- The root has one end tag. -/
theorem endTags_le_one (place : RootPlace) : place.endTags ≤ 1 := by
  cases place <;> simp [endTags]

/-- The events from the start of a document up to a place where no child of the root is open. The
first element is the root; in it, and also behind it, whole parts have been read. -/
inductive Covers : RootPlace → List Event → Prop where
  | inside {prolog before : List Content} {root : Tag} (hprolog : ∀ c ∈ prolog, c.isElement = false) :
    Covers (.inside root) (Content.eventsAll prolog ++ .open root :: Content.eventsAll before)
  | behind {prolog outer : List Content} {root : Content}
    (hprolog : ∀ c ∈ prolog, c.isElement = false) (hroot : root.isElement) :
    Covers .behind (Content.eventsAll prolog ++ (root.events ++ Content.eventsAll outer))

/-- Behind whole parts there may be one more. -/
theorem Covers.part {place : RootPlace} {base : List Event} (h : place.Covers base) (c : Content) :
    place.Covers (base ++ c.events) := by
  cases h with
  | @inside prolog before root hprolog =>
    have := @Covers.inside prolog (before ++ [c]) root hprolog
    simpa [Content.eventsAll_append, Content.eventsAll] using this
  | @behind prolog outer root hprolog hroot =>
    have := @Covers.behind prolog (outer ++ [c]) root hprolog hroot
    simpa [Content.eventsAll_append, Content.eventsAll] using this

/-- The end tag of the root makes the root whole. -/
theorem Covers.close {root : Tag} {base : List Event} (h : (RootPlace.inside root).Covers base) :
    RootPlace.behind.Covers (base ++ [.close root.name]) := by
  cases h with
  | @inside prolog before _ hprolog =>
    have := @Covers.behind prolog [] (.element root [] before) hprolog rfl
    simpa [Content.events, Content.eventsAll] using this

/-- Whole parts leave nothing open but the root, if it is. -/
theorem Covers.opened_eq {place : RootPlace} {base : List Event} (h : place.Covers base)
    {document : String} {reader : Reader} (hread : (Reader.start document).Delivers base reader) :
    reader.opened = place.opened := by
  cases h with
  | inside hprolog =>
    obtain ⟨first, hpre, htail⟩ := Reader.delivers_append_iff.1 hread
    obtain ⟨inner, hopen, hbefore⟩ := Reader.delivers_cons_iff.1 htail
    have hpush : inner.opened = _ :: first.opened := Reader.next_moves hopen
    rw [Content.openedAll_eq _ hbefore, hpush, Content.openedAll_eq _ hpre, Reader.opened_start]
    rfl
  | behind hprolog hroot =>
    obtain ⟨first, hpre, htail⟩ := Reader.delivers_append_iff.1 hread
    obtain ⟨next, hroot, houter⟩ := Reader.delivers_append_iff.1 htail
    rw [Content.openedAll_eq _ houter, Content.opened_eq _ hroot, Content.openedAll_eq _ hpre,
      Reader.opened_start]
    rfl

end RootPlace

/-! ## The entries of the stack -/

namespace Loading

open Reading

/-- The entries of the stack belong to the elements that have begun, one for one, the root left out:
each holds the node that the element's start tag opens, and the nodes that the parts read in it
give. -/
inductive Entries (space : String) : List OpenElement → List Begun → Prop where
  | nil : Entries space [] []
  | cons {entry : OpenElement} {outer : List OpenElement} {b : Begun} {around : List Begun}
    (hnode : openNode space outer.isEmpty b.tag = .ok entry.node)
    (hchildren : parts space b.parts = .ok entry.children) (houter : Entries space outer around) :
    Entries space (entry :: outer) (b :: around)

section

variable {space : String} {entry : OpenElement} {outer stack : List OpenElement} {b : Begun}
  {around begun : List Begun}

/-- A further part gives its nodes behind those of the others. -/
theorem parts_concat {cs : List Content} {c : Content} {nodes more : List Node}
    (hcs : parts space cs = .ok nodes) (hc : part space c = .ok more) :
    parts space (cs ++ [c]) = .ok (nodes ++ more) := by
  induction cs generalizing nodes with
  | nil =>
    cases hcs
    simp [parts, hc]
  | cons d cs ih =>
    rw [parts] at hcs
    obtain ⟨first, hfirst, hcs⟩ := bind_eq_ok.1 hcs
    obtain ⟨rest, hrest, hcs⟩ := bind_eq_ok.1 hcs
    obtain rfl := Except.ok.inj hcs
    rw [List.cons_append, parts, hfirst, ih hrest, List.append_assoc]
    rfl

/-- The innermost element is given what a further part of it gives. -/
theorem Entries.part (h : Entries space (entry :: outer) (b :: around)) {c : Content}
    {nodes : List Node} (hc : Reading.part space c = .ok nodes) :
    Entries space (⟨entry.node, entry.children ++ nodes⟩ :: outer)
      (⟨b.tag, b.parts ++ [c]⟩ :: around) := by
  cases h with
  | cons hnode hchildren houter => exact .cons hnode (parts_concat hchildren hc) houter

/-- The kinds of the entries are the names of the elements. -/
theorem Entries.kinds_eq (h : Entries space stack begun) :
    stack.map (·.node.kind?) = begun.map fun b => some (Reading.name b.tag) := by
  induction h with
  | nil => rfl
  | cons hnode _ _ ih => rw [List.map_cons, List.map_cons, ih, kind?_of_openNode hnode]

/-- The outermost entry is a statement. -/
theorem Entries.statement (h : Entries space stack begun) :
    ∀ last ∈ stack.getLast?, ∃ tag id, last.node = .fragment tag id [] := by
  induction h with
  | nil =>
    intro last hlast
    cases hlast
  | @cons entry outer b around hnode _ _ ih =>
    cases outer with
    | nil =>
      intro last hlast
      obtain rfl := Option.some.inj hlast
      obtain ⟨-, id, hfragment⟩ := fragment_of_openNode hnode
      exact ⟨_, id, hfragment⟩
    | cons parent outer =>
      rw [List.getLast?_cons_cons]
      exact ih

/-- All other entries are includes and properties. -/
theorem Entries.inner (h : Entries space stack begun) :
    ∀ inner ∈ stack.dropLast, (∃ inc, inner.node = .include inc) ∨ ∃ p, inner.node = .property p := by
  induction h with
  | nil =>
    intro inner hinner
    cases hinner
  | @cons entry outer b around hnode _ _ ih =>
    cases outer with
    | nil =>
      intro inner hinner
      cases hinner
    | cons parent outer =>
      rw [List.dropLast_cons_cons, List.forall_mem_cons]
      refine ⟨?_, ih⟩
      obtain ⟨-, hinc⟩ | ⟨-, hp⟩ := include_or_property_of_openNode hnode
      · exact .inl hinc
      · exact .inr hp

/-- With its end tag the innermost element is a part of the one around it, and its node goes to the
entry of that one. -/
theorem Entries.close {parent : OpenElement} {p : Begun} {node : Node}
    (h : Entries space (entry :: parent :: outer) (b :: p :: around))
    (htaken : taken (entry.node.addChildren entry.children) = .ok node) :
    Entries space (⟨parent.node, parent.children ++ [node]⟩ :: outer)
      (⟨p.tag, p.parts ++ [.element b.tag [] b.parts]⟩ :: around) := by
  cases h with
  | cons hnode hchildren houter =>
    rw [List.isEmpty_cons] at hnode
    have hpart : Reading.part space (.element b.tag [] b.parts) = .ok [node] := by
      rw [Reading.part, element_eq, hnode, hchildren]
      simp only [bind, Except.bind, htaken]
      rfl
    exact houter.part hpart

end

/-! ## What a state stands for -/

/-- What has been read of a document when loading has come to a state: before the root nothing but
text and asides, and from then on whole parts and behind them the elements that have begun, the nodes
of which are on the stack. -/
inductive Stands (document : String) : RootPlace → List Begun → Loading → Prop where
  | ahead {prolog : List Content} {reader : Reader} (hprolog : ∀ c ∈ prolog, c.isElement = false)
    (hread : (Reader.start document).Delivers (Content.eventsAll prolog) reader) :
    Stands document .ahead [] ⟨reader, none, []⟩
  | loaded {place : RootPlace} {base : List Event} {begun : List Begun} {reader : Reader}
    {m : Mapper} {stack : List OpenElement} (hplace : place.Covers base)
    (hread : (Reader.start document).Delivers (base ++ Begun.eventsAll begun) reader)
    (hentries : Entries m.space stack begun) : Stands document place begun ⟨reader, some m, stack⟩

/-- In the beginning nothing has been read. -/
theorem stands_start (document : String) : (start document).Stands document .ahead [] :=
  @Stands.ahead document [] _ (List.forall_mem_nil _) (.done _)

section

variable {document : String} {place : RootPlace} {begun : List Begun} {s after : Loading}

/-- The entries of the stack belong to the elements that have begun. -/
theorem Stands.exists_entries (h : s.Stands document place begun) :
    ∃ space, Entries space s.stack begun := by
  cases h with
  | ahead => exact ⟨"", .nil⟩
  | loaded _ _ hentries => exact ⟨_, hentries⟩

/-- **The names that are open** are those of the elements that have begun, and around them that of the
root. -/
theorem Stands.opened_eq (h : s.Stands document place begun) :
    s.reader.opened = begun.map (·.tag.name) ++ place.opened := by
  cases h with
  | ahead hprolog hread =>
    rw [Content.openedAll_eq _ hread, Reader.opened_start]
    rfl
  | loaded hplace hread hentries =>
    obtain ⟨mid, hbase, hbegun⟩ := Reader.delivers_append_iff.1 hread
    rw [Begun.opened_eq hbegun, hplace.opened_eq hbase]

/-- **An end tag ends the innermost element** that has begun, or else the root. -/
theorem Stands.close_cases (h : s.Stands document place begun) {name : List Char} {reader : Reader}
    (hnext : s.reader.next = .ok (some (.close name, reader))) :
    (∃ b around, begun = b :: around ∧ name = b.tag.name) ∨
      (begun = [] ∧ ∃ root, place = .inside root ∧ name = root.name) := by
  have hpop : s.reader.opened = name :: reader.opened := Reader.next_moves hnext
  rw [h.opened_eq] at hpop
  cases begun with
  | cons b around =>
    rw [List.map_cons, List.cons_append, List.cons.injEq] at hpop
    exact .inl ⟨b, around, rfl, hpop.1.symm⟩
  | nil =>
    cases place with
    | inside root =>
      obtain ⟨hname, -⟩ := List.cons.inj hpop
      exact .inr ⟨rfl, root, rfl, hname.symm⟩
    | ahead => cases hpop
    | behind => cases hpop

/-- While an element is open the next end tag has its name. -/
theorem Stands.close_eq {b : Begun} {around : List Begun}
    (h : s.Stands document place (b :: around)) {name : List Char} {reader : Reader}
    (hnext : s.reader.next = .ok (some (.close name, reader))) : name = b.tag.name := by
  obtain ⟨_, _, hbegun, hname⟩ | ⟨hnone, -⟩ := h.close_cases hnext
  · obtain ⟨rfl, rfl⟩ := List.cons.inj hbegun
    exact hname
  · cases hnone

end

/-! ## Steps -/

/-- Whether the next event is an end tag for which no entry is taken off the stack, so that nothing is
done. -/
def endsNothing (s : Loading) : Bool :=
  match s.reader.next with
  | .ok (some (.close _, _)) =>
    match s.stack, s.mapper with
    | _ :: _, some _ => false
    | _, _ => true
  | _ => false

section

variable {document : String} {place : RootPlace} {begun : List Begun} {s after : Loading}

/-- An end tag takes nothing off an empty stack. -/
theorem endsNothing_of_close {name : List Char} {reader : Reader}
    (hnext : s.reader.next = .ok (some (.close name, reader))) (hstack : s.stack = []) :
    s.endsNothing := by
  rw [endsNothing, hnext, hstack]

/-- An end tag that ends nothing leaves the mapper and the stack as they are. -/
theorem take_of_endsNothing (hidle : s.endsNothing) {event : Event} {reader : Reader}
    (hnext : s.reader.next = .ok (some (event, reader))) :
    take { s with reader := reader } event = .ok { s with reader := reader } := by
  obtain ⟨here, mapper, stack⟩ := s
  rw [endsNothing, hnext] at hidle
  cases event with
  | close name =>
    cases stack with
    | nil => rfl
    | cons entry outer =>
      cases mapper with
      | none => rfl
      | some m => cases hidle
  | _ => cases hidle

/-- **The end tag that does nothing** is that of the root, and with it the root is whole. -/
theorem Stands.root_of_endsNothing (h : s.Stands document place begun) (hidle : s.endsNothing) :
    ∃ root reader base, place = .inside root ∧ begun = [] ∧ s.stack = [] ∧
      s.reader.next = .ok (some (.close root.name, reader)) ∧
      RootPlace.behind.Covers base ∧ (Reader.start document).Delivers base reader := by
  rw [endsNothing] at hidle
  split at hidle
  · next name reader hnext =>
    have hcases := h.close_cases hnext
    cases h with
    | ahead =>
      -- the root has not begun, so it cannot end
      obtain ⟨_, _, hbegun, -⟩ | ⟨-, _, hroot, -⟩ := hcases
      · cases hbegun
      · cases hroot
    | @loaded place base _ here m _ hplace hread hentries =>
      cases hentries with
      | cons => cases hidle
      | nil =>
        obtain ⟨_, _, hbegun, -⟩ | ⟨-, root, rfl, rfl⟩ := hcases
        · cases hbegun
        · rw [Begun.eventsAll, List.append_nil] at hread
          exact ⟨root, reader, _, rfl, rfl, rfl, hnext, hplace.close, hread.append (.single hnext)⟩
  · cases hidle

end

section

variable {document : String} {place : RootPlace} {base : List Event} {here reader : Reader}
  {m : Mapper} {after : Loading} {event : Event}

/-- Where only whole parts have been read in the root or behind it, the stack is empty. -/
theorem stands_of_covers (hplace : place.Covers base)
    (hread : (Reader.start document).Delivers base reader) :
    Stands document place [] ⟨reader, some m, []⟩ := by
  refine .loaded hplace ?_ .nil
  rwa [Begun.eventsAll, List.append_nil]

/-- Before the root, its tag is the only thing of which something becomes. -/
theorem stands_of_takes_root {prolog : List Content} (hprolog : ∀ c ∈ prolog, c.isElement = false)
    (hread : (Reader.start document).Delivers (Content.eventsAll prolog) here)
    (hnext : here.next = .ok (some (event, reader)))
    (htakes : Takes ⟨reader, none, []⟩ event after) : ∃ place, after.Stands document place [] := by
  have hmore := hread.append (.single hnext)
  cases htakes with
  | @root _ _ tag m hevent hm =>
    rcases hevent with rfl | rfl
    · refine ⟨.inside tag, stands_of_covers (@RootPlace.Covers.inside prolog [] tag hprolog) ?_⟩
      rwa [Content.eventsAll]
    · refine ⟨.behind, stands_of_covers
        (@RootPlace.Covers.behind prolog [] (.single tag) hprolog rfl) ?_⟩
      rwa [Content.eventsAll, List.append_nil]
  | @misc _ _ c hevents helement =>
    -- it belongs to what stands before the root
    refine ⟨.ahead, @Stands.ahead _ (prolog ++ [c]) _ ?_ ?_⟩
    · rw [List.forall_mem_append, List.forall_mem_singleton]
      exact ⟨hprolog, helement⟩
    · rwa [Content.eventsAll_append, Content.eventsAll, Content.eventsAll, List.append_nil, hevents]
  | @idle _ _ name =>
    -- nothing is open that could end
    have hpop : here.opened = name :: reader.opened := Reader.next_moves hnext
    rw [Content.openedAll_eq _ hread, Reader.opened_start] at hpop
    cases hpop

/-- From the root on, every event belongs to a whole part, or begins an element, or ends the innermost
one, unless it is the end tag of the root. -/
theorem stands_of_takes {stack : List OpenElement} {begun : List Begun} (hplace : place.Covers base)
    (hread : (Reader.start document).Delivers (base ++ Begun.eventsAll begun) here)
    (hentries : Entries m.space stack begun) (hnext : here.next = .ok (some (event, reader)))
    (hidle : ¬ endsNothing ⟨here, some m, stack⟩)
    (htakes : Takes ⟨reader, some m, stack⟩ event after) :
    ∃ begun, after.Stands document place begun := by
  have hclose : ∀ {b around name}, begun = b :: around → event = .close name →
      name = b.tag.name := by
    rintro b around name rfl rfl
    exact (Stands.loaded hplace hread hentries).close_eq hnext
  have hmore := hread.append (.single hnext)
  rw [List.append_assoc] at hmore
  cases htakes with
  | idle => exact absurd (endsNothing_of_close hnext rfl) hidle
  | skip hskip =>
    cases hentries
    rw [Begun.eventsAll, List.append_nil] at hread
    obtain ⟨children, hchildren⟩ := Reader.exists_children_of_skip hnext hskip
    exact ⟨[], stands_of_covers (hplace.part _) (hread.append hchildren)⟩
  | @child _ _ _ added c hevents htop =>
    cases hentries
    rw [Begun.eventsAll, List.nil_append, ← hevents] at hmore
    exact ⟨[], stands_of_covers (hplace.part c) hmore⟩
  | @opens _ _ _ tag node hnode =>
    exact ⟨⟨tag, []⟩ :: begun, .loaded hplace hmore (.cons hnode rfl hentries)⟩
  | @part _ _ _ parent outer c nodes hevents hnodes =>
    cases hentries with
    | @cons _ _ b around hnode hchildren houter =>
      refine ⟨⟨b.tag, b.parts ++ [c]⟩ :: around, .loaded hplace ?_
        (Entries.part (.cons hnode hchildren houter) hnodes)⟩
      rwa [Begun.eventsAll_append, hevents]
  | @endPart _ _ entry parent outer name node htaken =>
    cases hentries with
    | @cons _ _ b around hnode hchildren houter =>
      obtain rfl := hclose rfl rfl
      rw [Begun.eventsAll_close] at hmore
      cases houter with
      | @cons _ _ p around hparent hsiblings hrest =>
        refine ⟨⟨p.tag, p.parts ++ [.element b.tag [] b.parts]⟩ :: around, .loaded hplace ?_
          (Entries.close (.cons hnode hchildren (.cons hparent hsiblings hrest)) htaken)⟩
        rwa [Begun.eventsAll_append]
  | @endStatement _ _ added entry left name hended =>
    obtain ⟨node, children⟩ := entry
    cases hentries with
    | @cons _ _ b around hnode hchildren houter =>
      obtain rfl := hclose rfl rfl
      rw [Begun.eventsAll_close] at hmore
      cases houter
      -- the statement is a whole child of the root now
      obtain ⟨-, id, rfl⟩ := fragment_of_openNode hnode
      rw [closeNode_statement] at hended
      obtain ⟨_, -, hended⟩ := bind_eq_ok.1 hended
      obtain ⟨rfl, rfl⟩ := Prod.mk.inj (Except.ok.inj hended)
      exact ⟨[], stands_of_covers (hplace.part _) hmore⟩

end

/-! ## Moments -/

/-- The states in which loading reads an event, from one of them on. -/
def moments (s : Loading) : List Loading :=
  match _h : s.step with
  | .ok (some after) => s :: after.moments
  | _ => [s]
termination_by s.reader.rest.length
decreasing_by exact step_length_lt _h

/-- A run that succeeds ends in the last of its moments. -/
theorem getLast?_moments_of_run {s last : Loading} (h : s.run = .ok last) :
    s.moments.getLast? = some last := by
  fun_induction run s with
  | case1 s e hstep => cases h
  | case2 s hstep =>
    obtain rfl := Except.ok.inj h
    rw [moments]
    split <;> simp_all
  | case3 s after hstep ih =>
    have hmoments : s.moments = s :: after.moments := by
      rw [moments]
      split <;> simp_all
    rw [hmoments, List.getLast?_cons, ih h, Option.getD_some]

section

variable {document : String} {place : RootPlace} {begun : List Begun} {s after : Loading}

/-- **One step.** What has been read is still of this form, and the root has one end tag less to come
if it was the next. -/
theorem Stands.step (h : s.Stands document place begun) (hstep : s.step = .ok (some after)) :
    ∃ place' begun', after.Stands document place' begun' ∧
      place'.endTags + (if s.endsNothing then 1 else 0) ≤ place.endTags := by
  obtain ⟨event, reader, hnext, htake⟩ := exists_take_of_step hstep
  by_cases hidle : s.endsNothing
  · -- the stack is empty and stays so
    obtain ⟨root, behind, base, rfl, rfl, hstack, hclose, hplace, hread⟩ :=
      h.root_of_endsNothing hidle
    obtain ⟨rfl, rfl⟩ : event = .close root.name ∧ reader = behind := by
      simpa using hnext.symm.trans hclose
    rw [take_of_endsNothing hidle hnext] at htake
    obtain rfl := Except.ok.inj htake
    cases h with
    | loaded =>
      obtain rfl := hstack
      refine ⟨.behind, [], stands_of_covers hplace hread, ?_⟩
      rw [if_pos hidle]
      exact Nat.le_refl 1
  · rw [if_neg hidle]
    cases h with
    | ahead hprolog hread =>
      obtain ⟨place', hafter⟩ :=
        stands_of_takes_root hprolog hread hnext (takes_of_take_root htake)
      exact ⟨place', [], hafter, place'.endTags_le_one⟩
    | loaded hplace hread hentries =>
      have htakes := takes_of_take (fun hnone => absurd hnone (Option.some_ne_none _)) htake
      obtain ⟨begun', hafter⟩ := stands_of_takes hplace hread hentries hnext hidle htakes
      exact ⟨_, begun', hafter, Nat.le_refl _⟩

/-- **A whole run.** -/
theorem Stands.moments (h : s.Stands document place begun) :
    (∀ t ∈ s.moments, ∃ place begun, t.Stands document place begun) ∧
      s.moments.countP endsNothing ≤ place.endTags := by
  -- on the moments; the end tags that do nothing are paid for by the root's one
  fun_induction Loading.moments s generalizing place begun with
  | case1 s after hstep ih =>
    obtain ⟨place', begun', hafter, hle⟩ := h.step hstep
    obtain ⟨hall, hcount⟩ := ih hafter
    refine ⟨List.forall_mem_cons.2 ⟨⟨place, begun, h⟩, hall⟩, ?_⟩
    rw [List.countP_cons]
    omega
  | case2 s hstop =>
    refine ⟨List.forall_mem_singleton.2 ⟨place, begun, h⟩, ?_⟩
    rw [List.countP_singleton]
    split
    · next hidle =>
      obtain ⟨root, _, _, rfl, -⟩ := h.root_of_endsNothing hidle
      exact Nat.le_refl 1
    · exact Nat.zero_le _

end

/-! ## The mirror -/

/-- **The stack mirrors the open elements.** These are `begun`, innermost first, and around them the
root, if `place` is inside of it. -/
structure Mirrors (document : String) (place : RootPlace) (begun : List Begun) (s : Loading) :
    Prop where
  /-- The elements are those of the document, and each entry of the stack has the node that the start
  tag of its element opens and the nodes that the parts read in it give. -/
  stands : s.Stands document place begun
  /-- If the stack is not empty there is a mapper. -/
  mapper : s.stack ≠ [] → s.mapper ≠ none
  /-- The outermost entry is a statement. -/
  statement : ∀ last ∈ s.stack.getLast?, ∃ tag id, last.node = .fragment tag id []
  /-- Every other entry is an include or a property. -/
  inner : ∀ entry ∈ s.stack.dropLast,
    (∃ inc, entry.node = .include inc) ∨ ∃ p, entry.node = .property p
  /-- For the reader these elements are open, and around them the root as long as it is. -/
  opened : s.reader.opened = begun.map (·.tag.name) ++ place.opened
  /-- The local names of the elements are the kinds of the entries. -/
  kinds : s.stack.map (·.node.kind?) = begun.map fun b => some (Reading.name b.tag)
  /-- The next end tag ends the element that has opened the innermost entry. The tag has the name of
  this element, and with it the element is a whole part of what stands around it. -/
  close : ∀ entry outer name reader, s.stack = entry :: outer →
    s.reader.next = .ok (some (.close name, reader)) → s.endsNothing = false ∧
      ∃ m b around base, s.mapper = some m ∧ begun = b :: around ∧
        openNode m.space outer.isEmpty b.tag = .ok entry.node ∧ name = b.tag.name ∧
        place.Covers base ∧ (Reader.start document).Delivers
          (base ++ (Begun.eventsAll around ++ (Content.element b.tag [] b.parts).events)) reader
  /-- An end tag that does nothing is that of the root, which has begun and is whole with it. -/
  idle : s.endsNothing → ∃ root reader base, place = .inside root ∧ begun = [] ∧ s.stack = [] ∧
    s.reader.next = .ok (some (.close root.name, reader)) ∧
    RootPlace.behind.Covers base ∧ (Reader.start document).Delivers base reader

section

variable {document : String} {place : RootPlace} {begun : List Begun} {s : Loading}

/-- **A state that stands for what has been read is a mirror of it.** -/
theorem Stands.mirrors (h : s.Stands document place begun) : s.Mirrors document place begun where
  stands := h
  mapper := by
    cases h with
    | ahead => exact fun hstack => absurd rfl hstack
    | loaded => exact fun _ => Option.some_ne_none _
  statement := by
    obtain ⟨space, hentries⟩ := h.exists_entries
    exact hentries.statement
  inner := by
    obtain ⟨space, hentries⟩ := h.exists_entries
    exact hentries.inner
  opened := h.opened_eq
  kinds := by
    obtain ⟨space, hentries⟩ := h.exists_entries
    exact hentries.kinds_eq
  close entry outer name reader hstack hnext := by
    cases h with
    | ahead => cases hstack
    | @loaded _ base _ here m _ hplace hread hentries =>
      obtain rfl := hstack
      cases hentries with
      | @cons _ _ b around hnode hchildren houter =>
        have hentries := Entries.cons hnode hchildren houter
        obtain rfl := (Stands.loaded hplace hread hentries).close_eq hnext
        -- the end tag stands behind the parts of the element, which makes the element whole
        have hmore := hread.append (.single hnext)
        rw [List.append_assoc, Begun.eventsAll_close] at hmore
        refine ⟨?_, m, b, around, base, rfl, rfl, hnode, rfl, hplace, hmore⟩
        rw [endsNothing, hnext]
  idle := h.root_of_endsNothing

/-- At the end of a document that is loaded, what is left on the stack belongs to the elements that have
no end tag. -/
theorem mirrors_of_run {last : Loading} (h : run (start document) = .ok last) :
    ∃ place begun, last.Mirrors document place begun := by
  have hmoment := List.mem_of_getLast? (getLast?_moments_of_run h)
  obtain ⟨place, begun, hstands⟩ := (stands_start document).moments.1 last hmoment
  exact ⟨place, begun, hstands.mirrors⟩

end

end Loading

/-- **The two stacks mirror each other** whenever loading reads an event, whatever the document is, and
no more than one end tag in a document does nothing. -/
theorem moments_mirror (document : String) :
    (∀ s ∈ (Loading.start document).moments,
      ∃ place begun, s.Mirrors document place begun) ∧
    (Loading.start document).moments.countP Loading.endsNothing ≤ 1 := by
  obtain ⟨hall, hcount⟩ := (Loading.stands_start document).moments
  refine ⟨fun s hs => ?_, hcount⟩
  obtain ⟨place, begun, hstands⟩ := hall s hs
  exact ⟨place, begun, hstands.mirrors⟩

/-- A document with a statement in an element that is skipped, a property in an include, and an include
in a statement behind the root, where the document ends. -/
def steppedDocument : String :=
  "<mapper namespace=\"a\"><c><sql></sql></c><sql id=\"b\"><include><property>x</property>" ++
    "</include></sql></mapper><c></c><sql><include>"

/-- Both deep in the first statement and behind the root, the sample's stack mirrors what is open.
-/
theorem moments_mirror_steppedDocument :
    (∃ s ∈ (Loading.start steppedDocument).moments,
      s.stack.map (·.node.kind?) = [some "property", some "include", some "sql"] ∧
      s.reader.opened.map String.ofList = ["property", "include", "sql", "mapper"] ∧
      ∃ place begun, s.Mirrors steppedDocument place begun) ∧
    (∃ s ∈ (Loading.start steppedDocument).moments,
      s.stack.map (·.node.kind?) = [some "include", some "sql"] ∧
      s.reader.opened.map String.ofList = ["include", "sql"] ∧
      ∃ place begun, s.Mirrors steppedDocument place begun) ∧
    (Loading.start steppedDocument).moments.countP Loading.endsNothing = 1 := by
  have hrun : (Loading.start steppedDocument).moments.any (fun s =>
        s.stack.map (·.node.kind?) = [some "property", some "include", some "sql"] ∧
        s.reader.opened.map String.ofList = ["property", "include", "sql", "mapper"]) ∧
      (Loading.start steppedDocument).moments.any (fun s =>
        s.stack.map (·.node.kind?) = [some "include", some "sql"] ∧
        s.reader.opened.map String.ofList = ["include", "sql"]) ∧
      (Loading.start steppedDocument).moments.countP Loading.endsNothing = 1 := by decide +kernel
  obtain ⟨hinside, hbehind, hcount⟩ := hrun
  obtain ⟨s, hs, hopen⟩ := List.any_eq_true.1 hinside
  obtain ⟨t, ht, hopen'⟩ := List.any_eq_true.1 hbehind
  have hmirror := (moments_mirror steppedDocument).1
  obtain ⟨hkinds, hnames⟩ := of_decide_eq_true hopen
  obtain ⟨hkinds', hnames'⟩ := of_decide_eq_true hopen'
  exact ⟨⟨s, hs, hkinds, hnames, hmirror s hs⟩, ⟨t, ht, hkinds', hnames', hmirror t ht⟩, hcount⟩

end SqlFragments
