import SqlFragments.Mapper.Basic
import SqlFragments.Mapper.Error
import SqlFragments.Markup.Reader
import SqlFragments.Node.Build

/-! # Loading mappers

A mapper is built while its document is read. The first element must be the mapper itself. Of the
elements in it, statements are built and all others skipped whole; inside a statement only text,
includes and properties have a meaning. The elements of the statement being built are kept on a
stack, each with the nodes that its children have given so far.

* `Loading.step` is what one event does;
* `Loading.step_length_lt`: each step uses up some of the document, so loading ends. -/

namespace SqlFragments

open SqlFragments.Markup

/-- Whether an element of this local name is a statement. -/
def isStatementTag (name : String) : Bool :=
  ["sql", "select", "insert", "update", "delete"].contains name

/-- An element of a statement that has not ended yet. -/
structure OpenElement where
  /-- The element's node, with its attributes taken up. -/
  node : Node
  /-- The nodes of its children so far. -/
  children : List Node

/-- How far the loading of a document has come. -/
structure Loading where
  /-- The rest of the document. -/
  reader : Reader
  /-- The mapper, once its tag has been read. -/
  mapper : Option Mapper
  /-- The open elements of the statement being built, innermost first. -/
  stack : List OpenElement

namespace Loading

/-- The beginning of a document. -/
def start (document : String) : Loading := ⟨Reader.start document, none, []⟩

/-- The attributes of a tag. -/
def attributesOf (tag : Tag) : Except MapperError (List Attribute) :=
  match tag.attributes with
  | .error e => .error (.markup e)
  | .ok attrs => .ok attrs

/-- The local name of a tag's element. -/
def elementName (tag : Tag) : String := String.ofList tag.localName

/-- The mapper that a tag opens. -/
def openMapper (tag : Tag) : Except MapperError Mapper :=
  if elementName tag = "mapper" then
    match attributesOf tag with
    | .error e => .error e
    | .ok attrs =>
      match attrs.find? (·.name = "namespace") with
      | none => .error .missingNamespace
      | some attr =>
        if attr.value.isEmpty then .error .missingNamespace else .ok (Mapper.empty attr.value)
  else .error .missingMapper

/-- The tag of the mapper itself leaves the reader where it is. -/
theorem openMapper_reader_eq {s after : Loading} {tag : Tag}
    (h : (openMapper tag).map (fun m => { s with mapper := some m }) = .ok after) :
    after.reader = s.reader := by
  cases hm : openMapper tag with
  | error e => simp [hm, Except.map] at h
  | ok m =>
    simp only [hm, Except.map, Except.ok.injEq] at h
    subst h
    rfl

/-- The node, still without attributes, for an element that stands at the top of a mapper or else
inside a statement. -/
def emptyNode (space : String) (top : Bool) (name : String) : Except MapperError Node :=
  if top then
    if isStatementTag name then .ok (.fragment name "" [])
    else .error (.unsupportedElement name)
  else if name = "include" then .ok (.include (Include.empty space))
  else if name = "property" then .ok (.property Property.empty)
  else .error (.unsupportedElement name)

/-- The node that a tag opens. -/
def openNode (space : String) (top : Bool) (tag : Tag) : Except MapperError Node :=
  match emptyNode space top (elementName tag) with
  | .error e => .error e
  | .ok node =>
    match attributesOf tag with
    | .error e => .error e
    | .ok attrs =>
      match node.scan attrs with
      | (.error e, _) => .error (.node e)
      | (.ok (), node) => .ok node

/-- Adds a finished statement to a mapper. -/
def addStatement (m : Mapper) (fragment : Fragment) : Except MapperError Mapper :=
  if fragment.id.isEmpty then .error (.missingId fragment.tag)
  else if m.fragments.contains fragment.id then .error (.duplicateId fragment.id)
  else .ok { m with fragments := m.fragments.insert fragment.id fragment }

/-- Gives a node to the innermost open element. -/
def addChild (node : Node) : List OpenElement → List OpenElement
  | [] => []
  | parent :: outer => ⟨parent.node, parent.children ++ [node]⟩ :: outer

/-- Ends an element: its node takes up its children and goes to the element around it, or, as a
statement, to the mapper. -/
def closeNode (m : Mapper) (stack : List OpenElement) (element : OpenElement) :
    Except MapperError (Mapper × List OpenElement) :=
  match element.node.addChildren element.children with
  | (.error e, _) => .error (.node e)
  | (.ok (), node) =>
    match stack with
    | _ :: _ => .ok (m, addChild node stack)
    | [] =>
      match node with
      | .fragment tag id children =>
        match addStatement m ⟨tag, id, children⟩ with
        | .error e => .error e
        | .ok m => .ok (m, [])
      | _ => .ok (m, [])

/-- Takes up text, if it stands in a statement. -/
def addText (s : Loading) (text : String) : Except MapperError Loading :=
  match Node.ofText text with
  | .error e => .error (.node e)
  | .ok node => .ok { s with stack := addChild node s.stack }

/-- Taking up text leaves the reader where it is. -/
theorem addText_reader_eq {s after : Loading} {text : String} (h : s.addText text = .ok after) :
    after.reader = s.reader := by
  simp only [addText] at h
  split at h
  · simp at h
  · simp only [Except.ok.injEq] at h
    subst h
    rfl

/-- Opens an element inside a mapper. An element that is neither a statement nor inside one is
skipped. -/
def openElement (s : Loading) (m : Mapper) (tag : Tag) : Except MapperError Loading :=
  if s.stack.isEmpty && !isStatementTag (elementName tag) then
    match s.reader.skip tag.name 0 with
    | .error e => .error (.markup e)
    | .ok reader => .ok { s with reader := reader }
  else
    match openNode m.space s.stack.isEmpty tag with
    | .error e => .error e
    | .ok node => .ok { s with stack := ⟨node, []⟩ :: s.stack }

/-- Opening an element leaves the reader where it is, or behind what is skipped. -/
theorem openElement_length_le {s after : Loading} {m : Mapper} {tag : Tag}
    (h : s.openElement m tag = .ok after) :
    after.reader.rest.length ≤ s.reader.rest.length := by
  simp only [openElement] at h
  split at h
  · split at h
    · simp at h
    · rename_i hskip
      simp only [Except.ok.injEq] at h
      subst h
      exact Reader.skip_length_le hskip
  · split at h
    · simp at h
    · simp only [Except.ok.injEq] at h
      subst h
      exact Nat.le_refl _

/-- Takes up an element inside a mapper that is written as one tag. -/
def emptyElement (s : Loading) (m : Mapper) (tag : Tag) : Except MapperError Loading :=
  if s.stack.isEmpty && !isStatementTag (elementName tag) then .ok s
  else
    match openNode m.space s.stack.isEmpty tag with
    | .error e => .error e
    | .ok node =>
      match closeNode m s.stack ⟨node, []⟩ with
      | .error e => .error e
      | .ok (m, stack) => .ok { s with mapper := some m, stack := stack }

/-- An element written as one tag leaves the reader where it is. -/
theorem emptyElement_reader_eq {s after : Loading} {m : Mapper} {tag : Tag}
    (h : s.emptyElement m tag = .ok after) : after.reader = s.reader := by
  simp only [emptyElement] at h
  split at h
  · simp only [Except.ok.injEq] at h
    rw [h]
  · split at h
    · simp at h
    · split at h
      · simp at h
      · simp only [Except.ok.injEq] at h
        subst h
        rfl

/-- Ends the innermost open element. The end of the mapper itself changes nothing. -/
def closeElement (s : Loading) : Except MapperError Loading :=
  match s.stack, s.mapper with
  | element :: outer, some m =>
    match closeNode m outer element with
    | .error e => .error e
    | .ok (m, stack) => .ok { s with mapper := some m, stack := stack }
  | _, _ => .ok s

/-- Ending an element leaves the reader where it is. -/
theorem closeElement_reader_eq {s after : Loading} (h : s.closeElement = .ok after) :
    after.reader = s.reader := by
  simp only [closeElement] at h
  split at h
  · split at h
    · simp at h
    · simp only [Except.ok.injEq] at h
      subst h
      rfl
  · simp only [Except.ok.injEq] at h
    rw [h]

/-- What an event does, `s.reader` standing behind it. -/
def take (s : Loading) (event : Event) : Except MapperError Loading :=
  match event with
  | .open tag =>
    match s.mapper with
    | none => (openMapper tag).map fun m => { s with mapper := some m }
    | some m => s.openElement m tag
  | .empty tag =>
    match s.mapper with
    | none => (openMapper tag).map fun m => { s with mapper := some m }
    | some m => s.emptyElement m tag
  | .close _ => s.closeElement
  | .text raw =>
    if s.stack.isEmpty then .ok s
    else
      match unescape raw with
      | .error e => .error (.markup (.entity e))
      | .ok text => s.addText (String.ofList text)
  | .cdata raw => if s.stack.isEmpty then .ok s else s.addText (String.ofList raw)
  | .aside => .ok s

/-- Reads one event and does what it asks for; `none` at the end of the document. -/
def step (s : Loading) : Except MapperError (Option Loading) :=
  match s.reader.next with
  | .error e => .error (.markup e)
  | .ok none => .ok none
  | .ok (some (event, reader)) =>
    match take { s with reader := reader } event with
    | .error e => .error e
    | .ok s => .ok (some s)

/-- No event takes the reader back. -/
theorem take_length_le {s after : Loading} {event : Event} (h : s.take event = .ok after) :
    after.reader.rest.length ≤ s.reader.rest.length := by
  have hstays : after.reader = s.reader → after.reader.rest.length ≤ s.reader.rest.length :=
    fun heq => Nat.le_of_eq (congrArg (·.rest.length) heq)
  have hpassed : Except.ok (ε := MapperError) s = .ok after → after.reader = s.reader :=
    fun heq => congrArg reader (Except.ok.inj heq).symm
  -- one case for each kind of event; only the start tag of an element inside the mapper can move
  -- the reader, by what is skipped
  simp only [take] at h
  split at h
  · split at h
    · exact hstays (openMapper_reader_eq h)
    · exact openElement_length_le h
  · split at h
    · exact hstays (openMapper_reader_eq h)
    · exact hstays (emptyElement_reader_eq h)
  · exact hstays (closeElement_reader_eq h)
  · split at h
    · exact hstays (hpassed h)
    · split at h
      · simp at h
      · exact hstays (addText_reader_eq h)
  · split at h
    · exact hstays (hpassed h)
    · exact hstays (addText_reader_eq h)
  · exact hstays (hpassed h)

/-- **Progress.** Every step uses up some of the document. -/
theorem step_length_lt {s after : Loading} (h : s.step = .ok (some after)) :
    after.reader.rest.length < s.reader.rest.length := by
  simp only [step] at h
  split at h
  · simp at h
  · simp at h
  · rename_i heq
    split at h
    · simp at h
    · rename_i heq'
      simp only [Except.ok.injEq, Option.some.injEq] at h
      subst h
      exact Nat.lt_of_le_of_lt (take_length_le heq') (Reader.next_length_lt heq)

/-- Reads on to the end of the document. -/
def run (s : Loading) : Except MapperError Loading :=
  match _h : s.step with
  | .error e => .error e
  | .ok none => .ok s
  | .ok (some after) => after.run
termination_by s.reader.rest.length
decreasing_by exact step_length_lt _h

end Loading

/-- The mapper that a document declares. -/
def Mapper.ofDocument (document : String) : Except MapperError Mapper :=
  match (Loading.start document).run with
  | .error e => .error e
  | .ok s =>
    match s.mapper with
    | none => .error .missingMapper
    | some m => .ok m

end SqlFragments
