import SqlFragments.Proofs.Mapper.Stepping
import SqlFragments.Proofs.Node.Properties
import SqlFragments.Proofs.Node.References

/-! # The shape of what is loaded

Whatever a document looks like, a mapper that is loaded from it has one shape: statements under their
own ids, with parts that are texts, includes and properties. A statement is never a part of another
one, although while it is built it stands on the same stack as its parts.

* `Node.IsPart`, `Fragment.WellShaped`, `Mapper.WellShaped`: the shape;
* `Loading.StackShaped`: the stack holds one statement at its bottom and only parts above it;
* `Loading.Shaped.take`, `Loading.Shaped.step`, `Loading.Shaped.run`: one event, one step and a whole
  run keep the shape of the mapper and of the stack;
* `ofDocument_wellShaped`: so every mapper that is loaded is well-shaped. -/

namespace SqlFragments

open SqlFragments.Markup
open SqlFragments.Placeholder

/-! ## Shapes -/

/-- An include of a mapper: it belongs to the namespace, an id that it points at is a literal stretch,
and its bindings are there under their own names. -/
structure Include.WellShaped (space : String) (inc : Include) : Prop where
  space : inc.space = space
  /-- The id is not empty and holds no placeholder. It may also be a variable or missing. -/
  reference : ∀ id, inc.reference = some (.literal id) → isLiteralText id.toList
  keyed : inc.Keyed

/-- What can be a part of a statement. A fragment cannot. -/
inductive Node.IsPart (space : String) : Node → Prop where
  /-- Text without empty stretches and without two that follow each other. -/
  | text {tokens : List Token} (h : Token.Normal tokens) : IsPart space (.text tokens)
  | property (p : Property) : IsPart space (.property p)
  | include {inc : Include} (h : inc.WellShaped space) : IsPart space (.include inc)

/-- A statement of a mapper. -/
structure Fragment.WellShaped (space : String) (f : Fragment) : Prop where
  tag : f.tag ∈ statementTags
  id : f.id ≠ ""
  parts : ∀ node ∈ f.children, node.IsPart space

/-- A mapper with a namespace and well-shaped statements under their own ids. -/
structure Mapper.WellShaped (m : Mapper) : Prop where
  space : m.space ≠ ""
  keyed : ∀ e ∈ m.fragments.entries, e.2.id = e.1
  fragments : ∀ f ∈ m.fragments.values, f.WellShaped m.space

/-! ## Parts as they are built -/

section

variable {space : String} {inc : Include}

/-- A new include is well-shaped: it points at nothing and binds nothing. -/
theorem Include.wellShaped_empty (space : String) : (Include.empty space).WellShaped space where
  space := rfl
  reference id h := by cases h
  keyed := fun e he => by cases he

/-- The id that a target is read as is a literal stretch. -/
theorem Reference.isLiteralText_of_ofText {text id : String}
    (h : Reference.ofText text = .ok (.literal id)) : isLiteralText id.toList := by
  have hread : tokenize text = .ok [.literal id] := ofText_eq_ok_iff_tokenize.1 h
  have hnormal := (Cursor.tokens_normal hread).1
  exact hnormal.each _ List.mem_cons_self

/-- It stays so when it is given a target that could be read. -/
theorem Include.WellShaped.adopt (h : inc.WellShaped space) {text : String} {r : Reference}
    (hr : Reference.ofText text = .ok r) : (inc.adopt r).WellShaped space := by
  refine ⟨h.space, fun id hid => ?_, h.keyed⟩
  -- either the old target stays or the new one is taken
  rw [Include.adopt] at hid
  cases hold : inc.reference with
  | some old =>
    rw [hold] at hid
    exact h.reference id (hold.trans hid)
  | none =>
    rw [hold] at hid
    obtain rfl := Option.some.inj hid
    exact Reference.isLiteralText_of_ofText hr

/-- So it does when it takes up attributes, wherever that stops. -/
theorem Include.WellShaped.scan (h : inc.WellShaped space) (attrs : List Attribute) :
    (inc.scan attrs).2.WellShaped space := by
  induction attrs generalizing inc with
  | nil => exact h
  | cons attr attrs ih =>
    by_cases hname : attr.name = "refid"
    · cases hread : Reference.ofText attr.value with
      | error e =>
        rw [inc.scan_refused attrs hname hread]
        exact h
      | ok r =>
        rw [inc.scan_target attrs hname hread]
        exact ih (h.adopt hread)
    · rw [inc.scan_other attrs hname]
      exact ih h

/-- And when it takes up children, of which it keeps properties under their own names. -/
theorem Include.WellShaped.addChildren (h : inc.WellShaped space) (nodes : List Node) :
    (inc.addChildren nodes).2.WellShaped space := by
  -- on the children as they are taken up; only properties make a difference
  fun_induction Include.addChildren inc nodes with
  | case1 inc => exact h
  | case2 => exact h
  | case3 inc p nodes hnew ih => exact ih ⟨h.space, h.reference, h.keyed.addProperty p⟩
  | case4 inc node nodes hother ih => exact ih h

/-- A part stays one with any attributes. -/
theorem Node.IsPart.scan {node : Node} (h : node.IsPart space) (attrs : List Attribute) :
    (node.scan attrs).2.IsPart space := by
  cases h with
  | text h => exact .text h
  | property p => exact .property _
  | «include» h => exact .include (h.scan attrs)

/-- A part stays one with any children, even if it is given fragments. -/
theorem Node.IsPart.addChildren {node : Node} (h : node.IsPart space) (nodes : List Node) :
    (node.addChildren nodes).2.IsPart space := by
  cases h with
  | text h => exact .text h
  | property p => exact .property p
  | «include» h => exact .include (h.addChildren nodes)

end

namespace Reading

variable {space : String}

/-- Text that could be read is a part in normal form. -/
theorem isPart_of_textNode {text : List Char} {node : Node} (h : textNode text = .ok node) :
    node.IsPart space := by
  rw [textNode, Node.ofText] at h
  cases hread : tokenize (String.ofList text) with
  | error e =>
    rw [hread] at h
    cases h
  | ok tokens =>
    rw [hread] at h
    obtain rfl := Except.ok.inj h
    exact .text (Cursor.tokens_normal hread).1

/-- What is opened inside of a statement is an include or a property. -/
theorem isPart_of_openNode {tag : Tag} {node : Node}
    (h : Loading.openNode space false tag = .ok node) : node.IsPart space := by
  rw [Loading.openNode_inner] at h
  obtain ⟨first, hfirst, h⟩ := bind_eq_ok.1 h
  obtain ⟨attrs, -, h⟩ := bind_eq_ok.1 h
  have hpart : first.IsPart space := by
    rw [emptyPart] at hfirst
    split at hfirst
    · obtain rfl := Except.ok.inj hfirst
      exact .include (Include.wellShaped_empty space)
    · split at hfirst
      · obtain rfl := Except.ok.inj hfirst
        exact .property _
      · cases hfirst
  rw [← taken_eq_ok h]
  exact hpart.scan attrs

/-- An element in a statement gives one part. -/
theorem isPart_of_element {tag : Tag} {children : Except MapperError (List Node)}
    {nodes : List Node} (h : element space tag children = .ok nodes) :
    ∀ node ∈ nodes, node.IsPart space := by
  rw [Loading.element_eq] at h
  obtain ⟨scanned, hscanned, h⟩ := bind_eq_ok.1 h
  obtain ⟨given, -, h⟩ := bind_eq_ok.1 h
  obtain ⟨node, hnode, h⟩ := bind_eq_ok.1 h
  obtain rfl := Except.ok.inj h
  rw [List.forall_mem_singleton, ← taken_eq_ok hnode]
  exact (isPart_of_openNode hscanned).addChildren given

/-- **What a part of the document gives are parts of a statement.** -/
theorem isPart_of_part {c : Content} {nodes : List Node} (h : part space c = .ok nodes) :
    ∀ node ∈ nodes, node.IsPart space := by
  cases c with
  | element tag spaces children =>
    rw [part] at h
    exact isPart_of_element h
  | single tag =>
    rw [part] at h
    exact isPart_of_element h
  | text raw =>
    rw [part] at h
    obtain ⟨text, -, h⟩ := bind_eq_ok.1 h
    obtain ⟨node, hnode, h⟩ := bind_eq_ok.1 h
    obtain rfl := Except.ok.inj h
    exact List.forall_mem_singleton.2 (isPart_of_textNode hnode)
  | cdata raw =>
    rw [part] at h
    obtain ⟨node, hnode, h⟩ := bind_eq_ok.1 h
    obtain rfl := Except.ok.inj h
    exact List.forall_mem_singleton.2 (isPart_of_textNode hnode)
  | aside a =>
    rw [part] at h
    obtain rfl := Except.ok.inj h
    exact List.forall_mem_nil _

/-- So are the nodes that several parts of the document give. -/
theorem isPart_of_parts {cs : List Content} {nodes : List Node} (h : parts space cs = .ok nodes) :
    ∀ node ∈ nodes, node.IsPart space := by
  induction cs generalizing nodes with
  | nil =>
    rw [parts] at h
    obtain rfl := Except.ok.inj h
    exact List.forall_mem_nil _
  | cons c cs ih =>
    rw [parts] at h
    obtain ⟨first, hfirst, h⟩ := bind_eq_ok.1 h
    obtain ⟨more, hmore, h⟩ := bind_eq_ok.1 h
    obtain rfl := Except.ok.inj h
    exact List.forall_mem_append.2 ⟨isPart_of_part hfirst, ih hmore⟩

/-! ## Statements as they are added -/

/-- The mapper of a root is well-shaped, as it has no statements yet. -/
theorem wellShaped_of_openRoot {tag : Tag} {m : Mapper} (h : openRoot tag = .ok m) :
    m.WellShaped := by
  obtain ⟨hempty, hspace⟩ := openRoot_spec h
  have hnone : m.fragments.entries = [] := by
    rw [hempty]
    rfl
  refine ⟨hspace, ?_, ?_⟩
  · rw [hnone]
    exact List.forall_mem_nil _
  · rw [Dict.values, hnone]
    exact List.forall_mem_nil _

/-- It stays so with a further statement, which is put under its own id. -/
theorem wellShaped_of_declared {m after : Mapper} {fragment : Fragment} (hm : m.WellShaped)
    (htag : fragment.tag ∈ statementTags) (hparts : ∀ node ∈ fragment.children, node.IsPart m.space)
    (h : declared m fragment = .ok after) : after.WellShaped := by
  rw [declared] at h
  split at h
  · cases h
  · next hid =>
    split at h
    · cases h
    · obtain rfl := Except.ok.inj h
      -- what is there afterwards is the new statement or was there before
      have hentries : ∀ e ∈ (m.fragments.insert fragment.id fragment).entries,
          e = (fragment.id, fragment) ∨ e ∈ m.fragments.entries :=
        fun e he => Dict.eq_or_mem_of_mem_put he
      refine ⟨hm.space, fun e he => ?_, fun f hf => ?_⟩
      · rcases hentries e he with rfl | hold
        · rfl
        · exact hm.keyed e hold
      · obtain ⟨e, he, rfl⟩ := List.mem_map.1 hf
        rcases hentries e he with rfl | hold
        · exact ⟨htag, hid, hparts⟩
        · exact hm.fragments e.2 (List.mem_map_of_mem hold)

/-- So it does with a child of the root, which is a statement or passed over. -/
theorem wellShaped_of_topElement {m after : Mapper} {tag : Tag}
    {children : Except MapperError (List Node)} (hm : m.WellShaped)
    (hchildren : ∀ nodes, children = .ok nodes → ∀ node ∈ nodes, node.IsPart m.space)
    (h : topElement m tag children = .ok after) : after.WellShaped := by
  rw [topElement] at h
  split at h
  · next hname =>
    obtain ⟨attrs, -, h⟩ := bind_eq_ok.1 h
    obtain ⟨nodes, hnodes, h⟩ := bind_eq_ok.1 h
    exact wellShaped_of_declared hm hname (hchildren nodes hnodes) h
  · obtain rfl := Except.ok.inj h
    exact hm

/-- **What a child of the root adds** is well-shaped. -/
theorem wellShaped_of_top {m after : Mapper} {c : Content} (hm : m.WellShaped)
    (h : top m c = .ok after) : after.WellShaped := by
  cases c with
  | element tag spaces children =>
    exact wellShaped_of_topElement hm (fun nodes hnodes => isPart_of_parts hnodes) h
  | single tag =>
    refine wellShaped_of_topElement hm (fun nodes hnodes => ?_) h
    obtain rfl := Except.ok.inj hnodes
    exact List.forall_mem_nil _
  | text raw =>
    obtain rfl := Except.ok.inj h
    exact hm
  | cdata raw =>
    obtain rfl := Except.ok.inj h
    exact hm
  | aside a =>
    obtain rfl := Except.ok.inj h
    exact hm

end Reading

/-! ## The stack -/

namespace Loading

open Reading

/-- The open elements, innermost first: there is none, or the outermost is a statement, with parts for
children so far, and all others are parts of it. -/
inductive StackShaped (space : String) : List OpenElement → Prop where
  | nil : StackShaped space []
  | statement {tag id : String} {children : List Node} (htag : tag ∈ statementTags)
      (hchildren : ∀ node ∈ children, node.IsPart space) :
    StackShaped space [⟨.fragment tag id [], children⟩]
  | part {node : Node} {children : List Node} {parent : OpenElement} {outer : List OpenElement}
      (hnode : node.IsPart space) (houter : StackShaped space (parent :: outer)) :
    StackShaped space (⟨node, children⟩ :: parent :: outer)

/-- The innermost open element can be given further parts. -/
theorem StackShaped.append {space : String} {parent : OpenElement} {outer : List OpenElement}
    (h : StackShaped space (parent :: outer)) {nodes : List Node}
    (hnodes : ∀ node ∈ nodes, node.IsPart space) :
    StackShaped space (⟨parent.node, parent.children ++ nodes⟩ :: outer) := by
  cases h with
  | statement htag hchildren =>
    refine .statement htag fun node hnode => ?_
    exact (List.mem_append.1 hnode).elim (hchildren node) (hnodes node)
  | part hnode houter => exact .part hnode houter

/-- A state of loading that has come about from the beginning of a document: before the root there is
nothing, and from then on there is a well-shaped mapper. -/
def Shaped (s : Loading) : Prop :=
  match s.mapper with
  | none => s.stack = []
  | some m => m.WellShaped ∧ StackShaped m.space s.stack

/-- In the beginning there is neither a mapper nor an open element. -/
theorem shaped_start (document : String) : (start document).Shaped := rfl

section

variable {s after last : Loading}

/-- **One event** keeps the shape. -/
theorem Shaped.take (h : s.Shaped) {event : Event} (htake : s.take event = .ok after) :
    after.Shaped := by
  have hempty : s.mapper = none → s.stack = [] := by
    intro hnone
    rwa [Shaped, hnone] at h
  cases takes_of_take hempty htake with
  | root hevent hm => exact ⟨wellShaped_of_openRoot hm, .nil⟩
  | misc => exact h
  | idle => exact h
  | skip => exact h
  | child hevents htop => exact ⟨wellShaped_of_top h.1 htop, .nil⟩
  | @opens reader m stack tag node hnode =>
    cases stack with
    | nil =>
      obtain ⟨hname, id, rfl⟩ := fragment_of_openNode hnode
      exact ⟨h.1, .statement hname (List.forall_mem_nil _)⟩
    | cons parent outer => exact ⟨h.1, .part (isPart_of_openNode hnode) h.2⟩
  | part hevents hnodes => exact ⟨h.1, h.2.append (isPart_of_part hnodes)⟩
  | endPart htaken =>
    obtain ⟨hm, hstack⟩ := h
    cases hstack with
    | part hnode houter =>
      refine ⟨hm, houter.append ?_⟩
      rw [List.forall_mem_singleton, ← taken_eq_ok htaken]
      exact hnode.addChildren _
  | endStatement hclose =>
    obtain ⟨hm, hstack⟩ := h
    cases hstack with
    | statement htag hchildren =>
      -- the end of the statement itself adds it to the mapper
      rw [closeNode_statement] at hclose
      obtain ⟨added, hadded, hclose⟩ := bind_eq_ok.1 hclose
      obtain ⟨rfl, rfl⟩ := Prod.mk.inj (Except.ok.inj hclose)
      exact ⟨wellShaped_of_declared hm htag hchildren hadded, .nil⟩

/-- **One step** keeps the shape. -/
theorem Shaped.step (h : s.Shaped) (hstep : s.step = .ok (some after)) : after.Shaped := by
  obtain ⟨event, reader, -, htake⟩ := exists_take_of_step hstep
  -- where the reader stands has no part in the shape
  have hmoved : Shaped { s with reader := reader } := h
  exact hmoved.take htake

/-- **A whole run** keeps the shape. -/
theorem Shaped.run (h : s.Shaped) (hrun : s.run = .ok last) : last.Shaped := by
  fun_induction Loading.run s with
  | case1 s e hstep => cases hrun
  | case2 s hstep =>
    obtain rfl := Except.ok.inj hrun
    exact h
  | case3 s after hstep ih => exact ih (h.step hstep) hrun

end

end Loading

/-- **Whatever is loaded is well-shaped.** The namespace is not empty. Each statement stands under its
own id, which is not empty, and has the name of a statement element. Its parts are texts, in normal
form, properties and includes; an include belongs to the namespace of the mapper, points at nothing, at
a variable or at an id that is not empty and holds no placeholder, and has each property under its
name. -/
theorem ofDocument_wellShaped {document : String} {m : Mapper}
    (h : Mapper.ofDocument document = .ok m) : m.WellShaped := by
  rw [Loading.ofDocument_eq] at h
  obtain ⟨last, hrun, hlast⟩ := bind_eq_ok.1 h
  have hshaped := (Loading.shaped_start document).run hrun
  split at hlast
  · cases hlast
  · next found hfound =>
    obtain rfl := Except.ok.inj hlast
    rw [Loading.Shaped, hfound] at hshaped
    exact hshaped.1

/-- A document with a statement element inside one that is skipped, an include inside another one, a
statement behind the root and one that does not end. -/
def oddDocument : String :=
  "<m:mapper namespace=\"a\"><cache><sql id=\"\"/></cache><sql id=\"b\">x<include refid=\"$t.1\">" ++
    "<property name=\"p\">y</property><include/></include><![CDATA[$]]>$v</sql></m:mapper>" ++
    "<update id=\"c.d\"/><sql id=\"e\">"

/-- What is skipped or does not end leaves nothing behind, and what is loaded is well-shaped. -/
theorem ofDocument_wellShaped_oddDocument :
    ∃ m, Mapper.ofDocument oddDocument = .ok m ∧ m.fragments.keys = ["b", "c.d"] ∧ m.WellShaped := by
  have hkeys : (Mapper.ofDocument oddDocument).map (·.fragments.keys) = .ok ["b", "c.d"] := by
    decide +kernel
  obtain ⟨m, h, hkeys⟩ := map_eq_ok.1 hkeys
  exact ⟨m, h, hkeys, ofDocument_wellShaped h⟩

end SqlFragments
