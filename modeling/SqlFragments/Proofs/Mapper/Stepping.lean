import SqlFragments.Proofs.Mapper.Reading

/-! # What an event does

Everything that loading can do with an event, said once, so that a property of loading need not be
followed through the branches of the program.

* `Loading.Takes`: what becomes of a state, with a constructor for each thing that can happen;
* `Loading.takes_of_take`: nothing else happens;
* `Loading.fragment_of_openNode`, `Loading.include_or_property_of_openNode`: which nodes are opened;
  `Loading.kind?_of_openNode`: they are of the kind that the element's name says. -/

namespace SqlFragments

open SqlFragments.Markup

/-- The name that an element needs for a node like this one. Text has none. -/
def Node.kind? : Node → Option String
  | .text _ => none
  | .property _ => some "property"
  | .include _ => some "include"
  | .fragment tag _ _ => some tag

/-- A node that has taken something up without an error is the one that is given back. -/
theorem Reading.taken_eq_ok {x : Except NodeError Unit × Node} {node : Node} (h : taken x = .ok node) :
    x.2 = node := by
  obtain ⟨answer, given⟩ := x
  cases answer with
  | error e => cases h
  | ok u => exact Except.ok.inj h

namespace Loading

open Reading

/-- **What an event does**, the reader standing behind it. Before the root the stack is empty. -/
inductive Takes : Loading → Event → Loading → Prop where
  /-- The tag of the root gives the mapper. -/
  | root {reader : Reader} {event : Event} {tag : Tag} {m : Mapper}
    (hevent : event = .open tag ∨ event = .empty tag) (hm : openRoot tag = .ok m) :
    Takes ⟨reader, none, []⟩ event ⟨reader, some m, []⟩
  /-- Before the root everything else is passed over. -/
  | misc {reader : Reader} {event : Event} {c : Content} (hevents : c.events = [event])
    (helement : c.isElement = false) : Takes ⟨reader, none, []⟩ event ⟨reader, none, []⟩
  /-- Where no statement is open an end tag does nothing. -/
  | idle {reader : Reader} {mapper : Option Mapper} {name : List Char} :
    Takes ⟨reader, mapper, []⟩ (.close name) ⟨reader, mapper, []⟩
  /-- A child of the root is skipped to its end tag. -/
  | skip {reader last : Reader} {m : Mapper} {tag : Tag}
    (hskip : reader.skip tag.name 0 = .ok last) :
    Takes ⟨reader, some m, []⟩ (.open tag) ⟨last, some m, []⟩
  /-- A child of the root that is one event adds to the mapper what it gives. -/
  | child {reader : Reader} {event : Event} {m added : Mapper} {c : Content}
    (hevents : c.events = [event]) (htop : top m c = .ok added) :
    Takes ⟨reader, some m, []⟩ event ⟨reader, some added, []⟩
  /-- A statement begins, or an element in it. -/
  | opens {reader : Reader} {m : Mapper} {stack : List OpenElement} {tag : Tag} {node : Node}
    (hnode : openNode m.space stack.isEmpty tag = .ok node) :
    Takes ⟨reader, some m, stack⟩ (.open tag) ⟨reader, some m, ⟨node, []⟩ :: stack⟩
  /-- A part of a statement that is one event adds to the innermost element what it gives. -/
  | part {reader : Reader} {event : Event} {m : Mapper} {parent : OpenElement}
    {outer : List OpenElement} {c : Content} {nodes : List Node} (hevents : c.events = [event])
    (hnodes : Reading.part m.space c = .ok nodes) :
    Takes ⟨reader, some m, parent :: outer⟩ event
      ⟨reader, some m, ⟨parent.node, parent.children ++ nodes⟩ :: outer⟩
  /-- An element in a statement ends, and its node goes to the one around it. -/
  | endPart {reader : Reader} {m : Mapper} {entry parent : OpenElement} {outer : List OpenElement}
    {name : List Char} {node : Node}
    (htaken : taken (entry.node.addChildren entry.children) = .ok node) :
    Takes ⟨reader, some m, entry :: parent :: outer⟩ (.close name)
      ⟨reader, some m, ⟨parent.node, parent.children ++ [node]⟩ :: outer⟩
  /-- The outermost entry ends. -/
  | endStatement {reader : Reader} {m added : Mapper} {entry : OpenElement}
    {left : List OpenElement} {name : List Char} (hclose : closeNode m [] entry = .ok (added, left)) :
    Takes ⟨reader, some m, [entry]⟩ (.close name) ⟨reader, some added, left⟩

section

variable {reader : Reader} {m : Mapper} {after : Loading} {event : Event}

/-- Before the root only the tag of an element changes anything. -/
theorem takes_of_take_root (h : take ⟨reader, none, []⟩ event = .ok after) :
    Takes ⟨reader, none, []⟩ event after := by
  cases event with
  | «open» tag =>
    rw [take_open_root] at h
    obtain ⟨m, hm, h⟩ := bind_eq_ok.1 h
    obtain rfl := Except.ok.inj h
    exact .root (.inl rfl) hm
  | empty tag =>
    rw [take_empty_root] at h
    obtain ⟨m, hm, h⟩ := bind_eq_ok.1 h
    obtain rfl := Except.ok.inj h
    exact .root (.inr rfl) hm
  | close name =>
    obtain rfl := Except.ok.inj h
    exact .idle
  | text raw =>
    obtain rfl := Except.ok.inj h
    exact @Takes.misc _ _ (.text raw) rfl rfl
  | cdata raw =>
    obtain rfl := Except.ok.inj h
    exact @Takes.misc _ _ (.cdata raw) rfl rfl
  | aside =>
    -- asides have no content left, and a comment stands for any of them
    obtain rfl := Except.ok.inj h
    exact @Takes.misc _ _ (.aside (.comment [])) rfl rfl

/-- Where no statement is open, the children of the root come one by one, or a statement begins. -/
theorem takes_of_take_top (h : take ⟨reader, some m, []⟩ event = .ok after) :
    Takes ⟨reader, some m, []⟩ event after := by
  cases event with
  | «open» tag =>
    cases hname : isStatementTag (elementName tag) with
    | false =>
      simp only [take, openElement, hname, List.isEmpty_nil, Bool.not_false, Bool.and_self,
        if_true] at h
      split at h
      · cases h
      · next hskip =>
        obtain rfl := Except.ok.inj h
        exact .skip hskip
    | true =>
      rw [take_open_statement reader m hname] at h
      obtain ⟨attrs, hattrs, h⟩ := bind_eq_ok.1 h
      obtain rfl := Except.ok.inj h
      refine .opens ?_
      rw [List.isEmpty_nil, openNode_top m.space hname, hattrs]
      rfl
  | empty tag =>
    rw [take_empty_top] at h
    obtain ⟨added, hadded, h⟩ := bind_eq_ok.1 h
    obtain rfl := Except.ok.inj h
    exact @Takes.child _ _ _ _ (.single tag) rfl hadded
  | close name =>
    obtain rfl := Except.ok.inj h
    exact .idle
  | text raw =>
    obtain rfl := Except.ok.inj h
    exact @Takes.child _ _ _ _ (.text raw) rfl rfl
  | cdata raw =>
    obtain rfl := Except.ok.inj h
    exact @Takes.child _ _ _ _ (.cdata raw) rfl rfl
  | aside =>
    obtain rfl := Except.ok.inj h
    exact @Takes.child _ _ _ _ (.aside (.comment [])) rfl rfl

/-- Inside of a statement an event is a part of it, or begins or ends one. -/
theorem takes_of_take_inner {entry : OpenElement} {outer : List OpenElement}
    (h : take ⟨reader, some m, entry :: outer⟩ event = .ok after) :
    Takes ⟨reader, some m, entry :: outer⟩ event after := by
  cases event with
  | «open» tag =>
    rw [take_open_inner] at h
    obtain ⟨node, hnode, h⟩ := bind_eq_ok.1 h
    obtain rfl := Except.ok.inj h
    exact .opens hnode
  | empty tag =>
    rw [take_empty_inner] at h
    obtain ⟨nodes, hnodes, h⟩ := bind_eq_ok.1 h
    obtain rfl := Except.ok.inj h
    refine @Takes.part _ _ _ _ _ (.single tag) _ rfl ?_
    rwa [Reading.part]
  | close name =>
    cases outer with
    | nil =>
      simp only [take, closeElement] at h
      split at h
      · cases h
      · next hclose =>
        obtain rfl := Except.ok.inj h
        exact .endStatement hclose
    | cons parent outer =>
      rw [take_close_inner] at h
      obtain ⟨node, htaken, h⟩ := bind_eq_ok.1 h
      obtain rfl := Except.ok.inj h
      exact .endPart htaken
  | text raw =>
    rw [take_text_inner] at h
    obtain ⟨nodes, hnodes, h⟩ := bind_eq_ok.1 h
    obtain rfl := Except.ok.inj h
    exact @Takes.part _ _ _ _ _ (.text raw) _ rfl hnodes
  | cdata raw =>
    rw [take_cdata_inner] at h
    obtain ⟨nodes, hnodes, h⟩ := bind_eq_ok.1 h
    obtain rfl := Except.ok.inj h
    exact @Takes.part _ _ _ _ _ (.cdata raw) _ rfl hnodes
  | aside =>
    obtain rfl := Except.ok.inj h
    have hnodes : Reading.part m.space (.aside (.comment [])) = .ok [] := by
      rw [Reading.part]
      rfl
    simpa using @Takes.part reader _ _ entry outer _ _ rfl hnodes

end

/-- **Nothing else happens.** -/
theorem takes_of_take {s after : Loading} {event : Event} (hs : s.mapper = none → s.stack = [])
    (h : s.take event = .ok after) : s.Takes event after := by
  obtain ⟨reader, mapper, stack⟩ := s
  cases mapper with
  | none =>
    obtain rfl : stack = [] := hs rfl
    exact takes_of_take_root h
  | some m =>
    cases stack with
    | nil => exact takes_of_take_top h
    | cons entry outer => exact takes_of_take_inner h

/-! ## Nodes that are opened -/

/-- What is opened at the top of a mapper is a statement of the element's name. -/
theorem fragment_of_openNode {space : String} {tag : Tag} {node : Node}
    (h : openNode space true tag = .ok node) :
    Reading.name tag ∈ statementTags ∧ ∃ id, node = .fragment (Reading.name tag) id [] := by
  cases hname : isStatementTag (elementName tag) with
  | false =>
    rw [openNode, emptyNode, if_pos rfl, hname] at h
    cases h
  | true =>
    rw [openNode_top space hname] at h
    obtain ⟨attrs, -, h⟩ := bind_eq_ok.1 h
    rw [isStatementTag_eq, decide_eq_true_eq] at hname
    exact ⟨hname, scanId "" attrs, (Except.ok.inj h).symm⟩

/-- What is opened inside of a statement is an include or a property, as the element's name says. -/
theorem include_or_property_of_openNode {space : String} {tag : Tag} {node : Node}
    (h : openNode space false tag = .ok node) :
    (Reading.name tag = "include" ∧ ∃ inc, node = .include inc) ∨
      (Reading.name tag = "property" ∧ ∃ p, node = .property p) := by
  rw [openNode_inner] at h
  obtain ⟨first, hfirst, h⟩ := bind_eq_ok.1 h
  obtain ⟨attrs, -, h⟩ := bind_eq_ok.1 h
  rw [emptyPart] at hfirst
  -- taking up attributes does not change the kind of a node
  split at hfirst
  · next hname =>
    obtain rfl := Except.ok.inj hfirst
    exact .inl ⟨hname, _, (taken_eq_ok h).symm⟩
  · split at hfirst
    · next hname =>
      obtain rfl := Except.ok.inj hfirst
      exact .inr ⟨hname, _, (taken_eq_ok h).symm⟩
    · cases hfirst

/-- The kind of a node is the local name of the element that has opened it. -/
theorem kind?_of_openNode {space : String} {top : Bool} {tag : Tag} {node : Node}
    (h : openNode space top tag = .ok node) : node.kind? = some (Reading.name tag) := by
  cases top with
  | true =>
    obtain ⟨-, id, rfl⟩ := fragment_of_openNode h
    rfl
  | false =>
    obtain ⟨hname, inc, rfl⟩ | ⟨hname, p, rfl⟩ := include_or_property_of_openNode h
    · rw [hname]
      rfl
    · rw [hname]
      rfl

end Loading

end SqlFragments
