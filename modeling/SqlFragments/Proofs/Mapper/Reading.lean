import SqlFragments.Mapper.Loading
import SqlFragments.Proofs.Except
import SqlFragments.Proofs.Markup.Delivery

/-! # Reading a document as a tree

Loading goes through a document event by event and keeps the open elements on a stack. Here the
mapper is read off the tree of the document by recursion, without events and without a stack.

* `Reading.part`, `Reading.parts`: the nodes that the parts of a statement give;
* `Reading.top`: what a child of the root adds to the mapper;
* `Loading.run_parts`, `Loading.run_top`: loading goes over the events of such parts and does
  what the recursion does;
* `ofDocument_render`: so both read the same mapper, or fail with the same error. -/

namespace SqlFragments

open SqlFragments.Markup

/-- The names of the elements that are statements. -/
def statementTags : List String := ["sql", "select", "insert", "update", "delete"]

namespace Reading

/-! ## The recursion -/

/-- The attributes of a tag. -/
def attributes (tag : Tag) : Except MapperError (List Attribute) :=
  tag.attributes.mapError .markup

/-- The name by which an element is known. -/
def name (tag : Tag) : String := String.ofList tag.localName

/-- A node that has taken something up, or the error. -/
def taken : Except NodeError Unit × Node → Except MapperError Node
  | (.ok (), node) => .ok node
  | (.error e, _) => .error (.node e)

/-- The node for a stretch of text. -/
def textNode (text : List Char) : Except MapperError Node :=
  (Node.ofText (String.ofList text)).mapError .node

/-- The node of an element inside a statement, before anything is taken up. -/
def emptyPart (space name : String) : Except MapperError Node :=
  if name = "include" then .ok (.include (Include.empty space))
  else if name = "property" then .ok (.property Property.empty)
  else .error (.unsupportedElement name)

/-- An element inside a statement: its name counts first, then its attributes, then its children
in order, and then whether it can take these children up. -/
def element (space : String) (tag : Tag) (children : Except MapperError (List Node)) :
    Except MapperError (List Node) := do
  let empty ← emptyPart space (name tag)
  let attrs ← attributes tag
  let scanned ← taken (empty.scan attrs)
  let nodes ← children
  let node ← taken (scanned.addChildren nodes)
  return [node]

mutual

/-- The nodes that a part of a statement gives. -/
def part (space : String) : Content → Except MapperError (List Node)
  | .element tag _ children => element space tag (parts space children)
  | .single tag => element space tag (.ok [])
  | .text raw => do
    let text ← (unescape raw).mapError fun e => .markup (.entity e)
    let node ← textNode text
    return [node]
  | .cdata raw => do
    let node ← textNode raw
    return [node]
  | .aside _ => return []

/-- The nodes that the parts of a statement give, up to the first error. -/
def parts (space : String) : List Content → Except MapperError (List Node)
  | [] => return []
  | c :: cs => do
    let first ← part space c
    let more ← parts space cs
    return first ++ more

end

/-- A mapper with a further statement, if this has an id and is the first one with it. -/
def declared (m : Mapper) (fragment : Fragment) : Except MapperError Mapper :=
  if fragment.id = "" then .error (.missingId fragment.tag)
  else if (m.fragments.get? fragment.id).isSome then .error (.duplicateId fragment.id)
  else .ok { m with fragments := m.fragments.insert fragment.id fragment }

/-- A statement: its attributes count first, then its children in order, and then its id. -/
def statement (m : Mapper) (tag : Tag) (children : Except MapperError (List Node)) :
    Except MapperError Mapper := do
  let attrs ← attributes tag
  let nodes ← children
  declared m ⟨name tag, scanId "" attrs, nodes⟩

/-- A child element of the root. All but statements are passed over, whatever is in them. -/
def topElement (m : Mapper) (tag : Tag) (children : Except MapperError (List Node)) :
    Except MapperError Mapper :=
  if name tag ∈ statementTags then statement m tag children
  else return m

/-- What a child of the root adds to the mapper. -/
def top (m : Mapper) : Content → Except MapperError Mapper
  | .element tag _ children => topElement m tag (parts m.space children)
  | .single tag => topElement m tag (.ok [])
  | _ => return m

/-- The mapper that the tag of the root declares. -/
def openRoot (tag : Tag) : Except MapperError Mapper :=
  if name tag = "mapper" then do
    let attrs ← attributes tag
    let space := ((attrs.find? (·.name = "namespace")).map (·.value)).getD ""
    if space = "" then .error .missingNamespace else .ok (Mapper.empty space)
  else .error .missingMapper

/-- The root gives a mapper without statements, in a namespace that is not empty. -/
theorem openRoot_spec {tag : Tag} {m : Mapper} (h : openRoot tag = .ok m) :
    m = Mapper.empty m.space ∧ m.space ≠ "" := by
  rw [openRoot] at h
  split at h
  · obtain ⟨attrs, -, h⟩ := bind_eq_ok.1 h
    simp only at h
    split at h
    · cases h
    · next hspace =>
      obtain rfl := Except.ok.inj h
      exact ⟨rfl, hspace⟩
  · cases h

/-- The mapper that a root declares. -/
def root : Content → Except MapperError Mapper
  | .element tag _ children => do
    let m ← openRoot tag
    children.foldlM top m
  | .single tag => openRoot tag
  | _ => .error .missingMapper

end Reading

/-! ## Steps of loading -/

namespace Loading

open Reading

/-- **A run goes on with the next event**, and stops if this gives an error. -/
theorem run_of_next {s : Loading} {event : Event} {reader : Reader}
    (h : s.reader.next = .ok (some (event, reader))) :
    s.run = take { s with reader := reader } event >>= run := by
  rw [run]
  cases htake : take { s with reader := reader } event with
  | error e =>
    have hstep : s.step = .error e := by
      simp only [step, h, htake]
    split <;> simp_all [bind, Except.bind]
  | ok after =>
    have hstep : s.step = .ok (some after) := by
      simp only [step, h, htake]
    split <;> simp_all [bind, Except.bind]

/-- At the end of the document a run ends with what it has. -/
theorem run_of_next_none {s : Loading} (h : s.reader.next = .ok none) : s.run = .ok s := by
  have hstep : s.step = .ok none := by
    rw [step, h]
  rw [run]
  split <;> simp_all

/-- **One step** reads an event and does what it asks for. -/
theorem exists_take_of_step {s after : Loading} (h : s.step = .ok (some after)) :
    ∃ event reader, s.reader.next = .ok (some (event, reader)) ∧
      take { s with reader := reader } event = .ok after := by
  rw [step] at h
  split at h
  · cases h
  · cases h
  · next event reader hnext =>
    split at h
    · cases h
    · next htake =>
      obtain rfl := Option.some.inj (Except.ok.inj h)
      exact ⟨event, reader, hnext, htake⟩

/-- Attributes are read in one way. -/
theorem attributesOf_eq (tag : Tag) : attributesOf tag = attributes tag := by
  rw [attributesOf, attributes]
  cases tag.attributes <;> rfl

/-- An element inside a statement is opened by its name and then its attributes. -/
theorem openNode_inner (space : String) (tag : Tag) :
    openNode space false tag = (do
      let empty ← emptyPart space (Reading.name tag)
      let attrs ← attributes tag
      taken (empty.scan attrs)) := by
  have hempty : emptyNode space false (elementName tag) = emptyPart space (Reading.name tag) := rfl
  rw [openNode, hempty, attributesOf_eq]
  cases emptyPart space (Reading.name tag) with
  | error e => rfl
  | ok node =>
    cases attributes tag with
    | error e => rfl
    | ok attrs =>
      simp only [bind, Except.bind]
      match node.scan attrs with
      | (.error e, _) => rfl
      | (.ok (), scanned) => rfl

/-- An element inside a statement is opened, and then its node takes up the children. -/
theorem element_eq (space : String) (tag : Tag) (children : Except MapperError (List Node)) :
    element space tag children = (do
      let scanned ← openNode space false tag
      let nodes ← children
      let node ← taken (scanned.addChildren nodes)
      return [node]) := by
  simp only [element, openNode_inner, bind_assoc]

/-- An element that ends inside another takes up its children and goes to the one around it. -/
theorem closeNode_inner (m : Mapper) (parent element : OpenElement) (outer : List OpenElement) :
    closeNode m (parent :: outer) element
      = (do
        let node ← taken (element.node.addChildren element.children)
        return (m, ⟨parent.node, parent.children ++ [node]⟩ :: outer)) := by
  rw [closeNode]
  match element.node.addChildren element.children with
  | (.error e, _) => rfl
  | (.ok (), node) => rfl

/-! ## Inside a statement -/

/-- Text goes to the innermost open element. -/
theorem addText_eq (reader : Reader) (m : Mapper) (parent : OpenElement)
    (outer : List OpenElement) (text : List Char) :
    addText ⟨reader, some m, parent :: outer⟩ (String.ofList text) = (do
      let node ← textNode text
      return ⟨reader, some m, ⟨parent.node, parent.children ++ [node]⟩ :: outer⟩) := by
  rw [addText, textNode]
  cases Node.ofText (String.ofList text) <;> rfl

/-- Inside a statement a start tag puts its node on the stack. -/
theorem take_open_inner (reader : Reader) (m : Mapper) (parent : OpenElement)
    (outer : List OpenElement) (tag : Tag) :
    take ⟨reader, some m, parent :: outer⟩ (.open tag) = (do
      let node ← openNode m.space false tag
      return ⟨reader, some m, ⟨node, []⟩ :: parent :: outer⟩) := by
  simp only [take, openElement, List.isEmpty_cons, Bool.false_and, Bool.false_eq_true, if_false]
  cases openNode m.space false tag <;> rfl

/-- Inside a statement an end tag gives the innermost node to the one around it. -/
theorem take_close_inner (reader : Reader) (m : Mapper) (element parent : OpenElement)
    (outer : List OpenElement) (closed : List Char) :
    take ⟨reader, some m, element :: parent :: outer⟩ (.close closed) = (do
      let node ← taken (element.node.addChildren element.children)
      return ⟨reader, some m, ⟨parent.node, parent.children ++ [node]⟩ :: outer⟩) := by
  simp only [take, closeElement, closeNode_inner]
  cases taken (element.node.addChildren element.children) <;> rfl

/-- Inside a statement an element that is written as one tag gives its node at once. -/
theorem take_empty_inner (reader : Reader) (m : Mapper) (parent : OpenElement)
    (outer : List OpenElement) (tag : Tag) :
    take ⟨reader, some m, parent :: outer⟩ (.empty tag) = (do
      let nodes ← element m.space tag (.ok [])
      return ⟨reader, some m, ⟨parent.node, parent.children ++ nodes⟩ :: outer⟩) := by
  simp only [take, emptyElement, List.isEmpty_cons, Bool.false_and, Bool.false_eq_true, if_false,
    closeNode_inner, element_eq]
  -- the element is opened and closed at once: the errors come up in the same order
  cases openNode m.space false tag with
  | error e => rfl
  | ok scanned =>
    simp only [bind, Except.bind]
    cases taken (scanned.addChildren []) <;> rfl

/-- Inside a statement text gives a node, once entities are replaced. -/
theorem take_text_inner (reader : Reader) (m : Mapper) (parent : OpenElement)
    (outer : List OpenElement) (raw : List Char) :
    take ⟨reader, some m, parent :: outer⟩ (.text raw) = (do
      let nodes ← part m.space (.text raw)
      return ⟨reader, some m, ⟨parent.node, parent.children ++ nodes⟩ :: outer⟩) := by
  simp only [take, List.isEmpty_cons, Bool.false_eq_true, if_false, part, addText_eq]
  cases unescape raw with
  | error e => rfl
  | ok text =>
    simp only [Except.mapError, bind, Except.bind]
    cases textNode text <;> rfl

/-- Inside a statement character data gives a node as it stands. -/
theorem take_cdata_inner (reader : Reader) (m : Mapper) (parent : OpenElement)
    (outer : List OpenElement) (raw : List Char) :
    take ⟨reader, some m, parent :: outer⟩ (.cdata raw) = (do
      let nodes ← part m.space (.cdata raw)
      return ⟨reader, some m, ⟨parent.node, parent.children ++ nodes⟩ :: outer⟩) := by
  simp only [take, List.isEmpty_cons, Bool.false_eq_true, if_false, part, addText_eq, bind_assoc,
    pure_bind]

mutual

/-- **A part of a statement.** Loading its events gives the nodes that the recursion gives to the
innermost open element, or fails with its error. -/
theorem run_part : ∀ (c : Content) (m : Mapper) (parent : OpenElement) (outer : List OpenElement)
    {here after : Reader}, here.Delivers c.events after →
    run ⟨here, some m, parent :: outer⟩
      = part m.space c >>= fun nodes =>
          run ⟨after, some m, ⟨parent.node, parent.children ++ nodes⟩ :: outer⟩
  | .element tag spaces children, m, parent, outer, here, after, h => by
    obtain ⟨inner, behind, hopen, hchildren, hclose⟩ := Reader.delivers_element_iff.1 h
    -- the children go to the element's own entry of the stack, which its end tag takes off again
    have hinner : ∀ node, run ⟨inner, some m, ⟨node, []⟩ :: parent :: outer⟩
        = parts m.space children >>= fun nodes => taken (node.addChildren nodes) >>= fun node =>
            run ⟨after, some m, ⟨parent.node, parent.children ++ [node]⟩ :: outer⟩ := by
      intro node
      rw [run_parts children m ⟨node, []⟩ (parent :: outer) hchildren]
      congr 1
      funext nodes
      rw [run_of_next hclose, take_close_inner]
      simp only [List.nil_append, bind_assoc, pure_bind]
    rw [run_of_next hopen, take_open_inner]
    simp only [part, element_eq, bind_assoc, pure_bind, hinner]
  | .single tag, m, parent, outer, here, after, h => by
    rw [run_of_next (Reader.delivers_single_iff.1 h), take_empty_inner]
    simp only [part, bind_assoc, pure_bind]
  | .text raw, m, parent, outer, here, after, h => by
    rw [run_of_next (Reader.delivers_single_iff.1 h), take_text_inner]
    simp only [bind_assoc, pure_bind]
  | .cdata raw, m, parent, outer, here, after, h => by
    rw [run_of_next (Reader.delivers_single_iff.1 h), take_cdata_inner]
    simp only [bind_assoc, pure_bind]
  | .aside a, m, parent, outer, here, after, h => by
    rw [run_of_next (Reader.delivers_single_iff.1 h)]
    simp only [part, take, pure_bind, List.append_nil]
    rfl

/-- Parts of a statement that follow each other. -/
theorem run_parts : ∀ (cs : List Content) (m : Mapper) (parent : OpenElement)
    (outer : List OpenElement) {here after : Reader}, here.Delivers (Content.eventsAll cs) after →
    run ⟨here, some m, parent :: outer⟩
      = parts m.space cs >>= fun nodes =>
          run ⟨after, some m, ⟨parent.node, parent.children ++ nodes⟩ :: outer⟩
  | [], m, parent, outer, here, after, h => by
    rw [h.eq_of_nil]
    simp [parts]
  | c :: cs, m, parent, outer, here, after, h => by
    obtain ⟨mid, hc, hcs⟩ := Reader.delivers_append_iff.1 h
    rw [run_part c m parent outer hc]
    simp only [run_parts cs m _ outer hcs, parts, bind_assoc, pure_bind, List.append_assoc]

end

/-! ## Below the root -/

/-- A statement is known by its local name. -/
theorem isStatementTag_eq (tag : Tag) :
    isStatementTag (elementName tag) = decide (Reading.name tag ∈ statementTags) :=
  List.contains_eq_mem _ _

/-- A statement is opened with the id that its attributes give it, perhaps none. -/
theorem openNode_top {tag : Tag} (space : String) (h : isStatementTag (elementName tag)) :
    openNode space true tag = (do
      let attrs ← attributes tag
      return .fragment (Reading.name tag) (scanId "" attrs) []) := by
  have hempty : emptyNode space true (elementName tag)
      = .ok (.fragment (Reading.name tag) "" []) := by
    rw [emptyNode, if_pos rfl, if_pos h, Reading.name, elementName]
  rw [openNode, hempty, attributesOf_eq]
  cases attributes tag <;> rfl

/-- A statement is added in one way. -/
theorem addStatement_eq (m : Mapper) (name id : String) (nodes : List Node) :
    addStatement m ⟨name, id, nodes⟩ = declared m ⟨name, id, nodes⟩ := by
  simp only [addStatement, declared, String.isEmpty_iff, Dict.contains]
  by_cases hid : id = ""
  · rw [if_pos hid, if_pos hid]
  · rw [if_neg hid, if_neg hid]
    rfl

/-- The end of a statement declares it. -/
theorem closeNode_statement (m : Mapper) (name id : String) (nodes : List Node) :
    closeNode m [] ⟨.fragment name id [], nodes⟩ = (do
      let m ← declared m ⟨name, id, nodes⟩
      return (m, [])) := by
  simp only [closeNode, Node.addChildren, List.nil_append, addStatement_eq]
  cases declared m ⟨name, id, nodes⟩ <;> rfl

/-- Below the root the start tag of a statement makes it the only entry of the stack. -/
theorem take_open_statement (reader : Reader) (m : Mapper) {tag : Tag}
    (h : isStatementTag (elementName tag)) :
    take ⟨reader, some m, []⟩ (.open tag) = (do
      let attrs ← attributes tag
      return ⟨reader, some m, [⟨.fragment (Reading.name tag) (scanId "" attrs) [], []⟩]⟩) := by
  simp only [take, openElement, h, List.isEmpty_nil, Bool.not_true, Bool.and_false,
    Bool.false_eq_true, if_false, openNode_top m.space h]
  cases attributes tag <;> rfl

/-- Its end tag declares it and leaves the stack empty. -/
theorem take_close_statement (reader : Reader) (m : Mapper) (name id : String)
    (nodes : List Node) (closed : List Char) :
    take ⟨reader, some m, [⟨.fragment name id [], nodes⟩]⟩ (.close closed) = (do
      let m ← declared m ⟨name, id, nodes⟩
      return ⟨reader, some m, []⟩) := by
  simp only [take, closeElement, closeNode_statement]
  cases declared m ⟨name, id, nodes⟩ <;> rfl

/-- Below the root an element that is written as one tag is treated as one without children. -/
theorem take_empty_top (reader : Reader) (m : Mapper) (tag : Tag) :
    take ⟨reader, some m, []⟩ (.empty tag) = (do
      let m ← topElement m tag (.ok [])
      return ⟨reader, some m, []⟩) := by
  simp only [take, emptyElement, topElement, List.isEmpty_nil, Bool.true_and]
  cases h : isStatementTag (elementName tag) with
  | false =>
    rw [isStatementTag_eq, decide_eq_false_iff_not] at h
    simp only [Bool.not_false, if_true, if_neg h, pure_bind]
    rfl
  | true =>
    simp only [Bool.not_true, Bool.false_eq_true, if_false, openNode_top m.space h]
    rw [isStatementTag_eq, decide_eq_true_eq] at h
    simp only [if_pos h, statement]
    cases attributes tag with
    | error e => rfl
    | ok attrs =>
      simp only [bind, Except.bind, pure, Except.pure, closeNode_statement]
      cases declared m ⟨Reading.name tag, scanId "" attrs, []⟩ <;> rfl

/-- Below the root an element that is no statement is skipped. -/
theorem take_open_ignored {reader after : Reader} (m : Mapper) {tag : Tag}
    (h : isStatementTag (elementName tag) = false)
    (hskip : reader.skip tag.name 0 = .ok after) :
    take ⟨reader, some m, []⟩ (.open tag) = .ok ⟨after, some m, []⟩ := by
  simp [take, openElement, h, hskip]

/-- Where no element is open, a part that is none itself changes nothing. -/
theorem run_of_not_isElement {c : Content} (hc : c.isElement = false) (m : Option Mapper)
    {here after : Reader} (h : here.Delivers c.events after) :
    run ⟨here, m, []⟩ = run ⟨after, m, []⟩ := by
  cases c with
  | element tag spaces children => cases hc
  | single tag => cases hc
  | text raw =>
    rw [run_of_next (Reader.delivers_single_iff.1 h)]
    rfl
  | cdata raw =>
    rw [run_of_next (Reader.delivers_single_iff.1 h)]
    rfl
  | aside a =>
    rw [run_of_next (Reader.delivers_single_iff.1 h)]
    rfl

/-- **A child of the root.** Loading its events does to the mapper what the recursion does. -/
theorem run_top {c : Content} (m : Mapper) {here after : Reader}
    (h : here.Delivers c.events after) :
    run ⟨here, some m, []⟩ = top m c >>= fun m => run ⟨after, some m, []⟩ := by
  cases c with
  | element tag spaces children =>
    obtain ⟨inner, behind, hopen, hchildren, hclose⟩ := Reader.delivers_element_iff.1 h
    rw [run_of_next hopen]
    simp only [top, topElement]
    cases hname : isStatementTag (elementName tag) with
    | false =>
      -- the element is skipped whole
      rw [take_open_ignored m hname (Reader.skip_element hchildren hclose)]
      rw [isStatementTag_eq, decide_eq_false_iff_not] at hname
      simp only [if_neg hname]
      rfl
    | true =>
      -- its children go to the only entry of the stack
      rw [take_open_statement _ m hname]
      rw [isStatementTag_eq, decide_eq_true_eq] at hname
      simp only [if_pos hname, statement, bind_assoc, pure_bind]
      congr 1
      funext attrs
      rw [run_parts children m _ [] hchildren]
      congr 1
      funext nodes
      rw [run_of_next hclose, List.nil_append, take_close_statement]
      simp only [bind_assoc, pure_bind]
  | single tag =>
    rw [run_of_next (Reader.delivers_single_iff.1 h), take_empty_top]
    simp only [top, bind_assoc, pure_bind]
  | text raw => exact run_of_not_isElement rfl (some m) h
  | cdata raw => exact run_of_not_isElement rfl (some m) h
  | aside a => exact run_of_not_isElement rfl (some m) h

/-- The children of the root. -/
theorem run_tops (cs : List Content) (m : Mapper) {here after : Reader}
    (h : here.Delivers (Content.eventsAll cs) after) :
    run ⟨here, some m, []⟩ = cs.foldlM top m >>= fun m => run ⟨after, some m, []⟩ := by
  induction cs generalizing m here with
  | nil =>
    rw [h.eq_of_nil]
    rfl
  | cons c cs ih =>
    obtain ⟨mid, hc, hcs⟩ := Reader.delivers_append_iff.1 h
    rw [run_top m hc, List.foldlM_cons, bind_assoc]
    congr 1
    funext m
    exact ih m hcs

/-! ## Documents -/

/-- What stands around the root changes nothing, unless it is an element. -/
theorem run_misc (cs : List Content) (m : Option Mapper) {here after : Reader}
    (hmisc : ∀ c ∈ cs, c.isElement = false) (h : here.Delivers (Content.eventsAll cs) after) :
    run ⟨here, m, []⟩ = run ⟨after, m, []⟩ := by
  induction cs generalizing here with
  | nil => rw [h.eq_of_nil]
  | cons c cs ih =>
    obtain ⟨mid, hc, hcs⟩ := Reader.delivers_append_iff.1 h
    rw [← ih (fun d hd => hmisc d (List.mem_cons_of_mem c hd)) hcs]
    exact run_of_not_isElement (hmisc c List.mem_cons_self) m hc

/-- The root is read in one way. -/
theorem openMapper_eq (tag : Tag) : openMapper tag = openRoot tag := by
  rw [openMapper, openRoot, attributesOf_eq]
  by_cases hname : Reading.name tag = "mapper"
  · have helement : elementName tag = "mapper" := hname
    rw [if_pos helement, if_pos hname]
    cases attributes tag with
    | error e => rfl
    | ok attrs =>
      simp only [bind, Except.bind]
      cases attrs.find? (·.name = "namespace") with
      | none => rfl
      | some attr => simp only [String.isEmpty_iff, Option.map_some, Option.getD_some]
  · have helement : ¬ elementName tag = "mapper" := hname
    rw [if_neg helement, if_neg hname]

/-- Before the root, a start tag is that of the root. -/
theorem take_open_root (reader : Reader) (tag : Tag) :
    take ⟨reader, none, []⟩ (.open tag) = (do
      let m ← openRoot tag
      return ⟨reader, some m, []⟩) := by
  rw [take, openMapper_eq]
  cases openRoot tag <;> rfl

/-- The root may be written as one tag. -/
theorem take_empty_root (reader : Reader) (tag : Tag) :
    take ⟨reader, none, []⟩ (.empty tag) = (do
      let m ← openRoot tag
      return ⟨reader, some m, []⟩) := by
  rw [take, openMapper_eq]
  cases openRoot tag <;> rfl

/-- The root. -/
theorem run_root {c : Content} (hroot : c.isElement) {here after : Reader}
    (h : here.Delivers c.events after) :
    run ⟨here, none, []⟩ = root c >>= fun m => run ⟨after, some m, []⟩ := by
  cases c with
  | element tag spaces children =>
    obtain ⟨inner, behind, hopen, hchildren, hclose⟩ := Reader.delivers_element_iff.1 h
    rw [run_of_next hopen, take_open_root]
    simp only [root, bind_assoc, pure_bind]
    congr 1
    funext m
    rw [run_tops children m hchildren]
    congr 1
    funext m
    -- no statement is open, so the end tag of the root changes nothing
    rw [run_of_next hclose]
    rfl
  | single tag =>
    rw [run_of_next (Reader.delivers_single_iff.1 h), take_empty_root]
    simp only [root, bind_assoc, pure_bind]
  | text raw => exact absurd hroot Bool.false_ne_true
  | cdata raw => exact absurd hroot Bool.false_ne_true
  | aside a => exact absurd hroot Bool.false_ne_true

/-- The whole document. -/
theorem run_start {d : Document} (h : d.wellFormed) :
    run (start d.render) = (do
      let m ← root d.root
      return ⟨⟨[], []⟩, some m, []⟩) := by
  have hstart := Reader.start_render h
  simp only [Document.wellFormed, Bool.and_eq_true] at h
  obtain ⟨⟨⟨hparts, hprolog⟩, hroot⟩, hepilog⟩ := h
  have hdelivers : Reader.Delivers ⟨Content.renderAll d.parts, []⟩
      (Content.eventsAll d.prolog ++ Content.eventsAll (d.root :: d.epilog)) ⟨[], []⟩ := by
    have := Content.delivers_renderAll d.parts [] [] hparts rfl
    rwa [List.append_nil, Document.parts, Content.eventsAll_append] at this
  obtain ⟨here, hpre, hrest⟩ := Reader.delivers_append_iff.1 hdelivers
  obtain ⟨after, hinner, hpost⟩ := Reader.delivers_append_iff.1 hrest
  rw [start, hstart, run_misc d.prolog none (Content.isElement_of_all_isMisc hprolog) hpre,
    run_root hroot hinner]
  congr 1
  funext m
  rw [run_misc d.epilog (some m) (Content.isElement_of_all_isMisc hepilog) hpost,
    run_of_next_none rfl]
  rfl

/-- A document is loaded by a run from its start, if that finds a root. -/
theorem ofDocument_eq (document : String) :
    Mapper.ofDocument document = (do
      let s ← run (start document)
      match s.mapper with
      | none => .error .missingMapper
      | some m => .ok m) := by
  rw [Mapper.ofDocument]
  cases run (start document) <;> rfl

end Loading

/-- **Loading is recursion over the tree.** From every well-spelled document, loading builds the
mapper that the recursion builds, or fails with the recursion's error. -/
theorem ofDocument_render {d : Document} (h : d.wellFormed) :
    Mapper.ofDocument d.render = Reading.root d.root := by
  rw [Loading.ofDocument_eq, Loading.run_start h]
  cases Reading.root d.root <;> rfl

/-- A document with elements that are passed over and with both ways to write an element. -/
def sampleDocument : Document where
  mark := true
  prolog := [.aside (.instruction "xml version='1.0'".toList), .text ['\n']]
  root := .element ⟨"m:mapper namespace=\"n\"".toList⟩ [] [
    .aside (.comment " <sql> ".toList),
    .element ⟨"resultMap x".toList⟩ [] [.element ⟨"sql".toList⟩ [] [.text "&bad;".toList]],
    .element ⟨"select id='a' note='>'".toList⟩ ['\n'] [
      .text "x &lt; ${v}".toList,
      .cdata "<&>".toList,
      .element ⟨"include refid=\"b\"".toList⟩ [] [.single ⟨"property name='p' value='1'".toList⟩]],
    .single ⟨"sql id='b' ".toList⟩]
  epilog := [.text ['\n'], .aside (.comment "".toList)]

/-- What is skipped in the sample declares nothing, whatever is written in it. -/
theorem ofDocument_render_sampleDocument :
    sampleDocument.wellFormed ∧
      (Mapper.ofDocument sampleDocument.render).map (fun m => (m.space, m.qualifiedNames))
        = .ok ("n", ["n.a", "n.b"]) := by
  have h : sampleDocument.wellFormed := by decide +kernel
  refine ⟨h, ?_⟩
  rw [ofDocument_render h]
  decide +kernel

end SqlFragments
