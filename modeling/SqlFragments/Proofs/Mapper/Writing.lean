import Mathlib.Data.List.Forall2
import SqlFragments.Proofs.Mapper.Reading
import SqlFragments.Proofs.Markup.Writing
import SqlFragments.Proofs.Placeholder.Rendering

/-! # Writing mappers

A mapper can be written as a document in many ways: its statements and the properties of an
include stand in any order, text is written with entities or as a section, and a childless element
as one tag or two.

* `Mapper.Writable`: the mappers that a document can declare;
* `Mapper.Writes`: the trees that write a mapper;
* `Mapper.exists_writes`: every such mapper has a written form;
* `Mapper.Writes.wellFormed`: the written forms are well-spelled. -/

namespace SqlFragments

open SqlFragments.Markup
open SqlFragments.Placeholder

/-! ## Mappers that can be written -/

/-- Whether an attribute can hold a reference. -/
def Reference.writable : Reference → Bool
  | .literal id => isLiteralText id.toList
  | .variable name => isVariableName name.toList

/-- An include that an element in a namespace can stand for. -/
structure Include.Writable (space : String) (inc : Include) : Prop where
  space : inc.space = space
  reference : ∀ r ∈ inc.reference, r.writable
  keys : ∀ e ∈ inc.properties.entries, e.2.name = e.1

instance (space : String) (inc : Include) : Decidable (inc.Writable space) :=
  decidable_of_iff (inc.space = space ∧ (∀ r ∈ inc.reference, r.writable)
    ∧ ∀ e ∈ inc.properties.entries, e.2.name = e.1)
    ⟨fun ⟨h, hr, hk⟩ => ⟨h, hr, hk⟩, fun ⟨h, hr, hk⟩ => ⟨h, hr, hk⟩⟩

/-- A node that a part of a statement can stand for. -/
def Node.Writable (space : String) : Node → Prop
  | .text tokens => tokens ≠ [] ∧ Token.wellFormedAll tokens
  | .property _ => True
  | .include inc => inc.Writable space
  | .fragment _ _ _ => False

instance (space : String) : (node : Node) → Decidable (node.Writable space)
  | .text tokens => inferInstanceAs (Decidable (tokens ≠ [] ∧ Token.wellFormedAll tokens))
  | .property _ => inferInstanceAs (Decidable True)
  | .include inc => inferInstanceAs (Decidable (inc.Writable space))
  | .fragment _ _ _ => inferInstanceAs (Decidable False)

/-- Whether a node is text. -/
def Node.isText : Node → Bool
  | .text _ => true
  | _ => false

/-- A fragment that an element can declare. -/
structure Fragment.Writable (space : String) (f : Fragment) : Prop where
  tag : f.tag ∈ statementTags
  id : f.id ≠ ""
  children : ∀ node ∈ f.children, node.Writable space
  /-- No two texts follow each other. -/
  separated : f.children.IsChain fun a b => ¬ (a.isText ∧ b.isText)

instance (space : String) (f : Fragment) : Decidable (f.Writable space) :=
  decidable_of_iff (f.tag ∈ statementTags ∧ f.id ≠ "" ∧ (∀ node ∈ f.children, node.Writable space)
    ∧ f.children.IsChain fun a b => ¬ (a.isText ∧ b.isText))
    ⟨fun ⟨ht, hi, hc, hs⟩ => ⟨ht, hi, hc, hs⟩, fun ⟨ht, hi, hc, hs⟩ => ⟨ht, hi, hc, hs⟩⟩

/-- A mapper that a document can declare. -/
structure Mapper.Writable (m : Mapper) : Prop where
  space : m.space ≠ ""
  keys : ∀ e ∈ m.fragments.entries, e.2.id = e.1
  fragments : ∀ f ∈ m.fragments.values, f.Writable m.space

instance (m : Mapper) : Decidable m.Writable :=
  decidable_of_iff (m.space ≠ "" ∧ (∀ e ∈ m.fragments.entries, e.2.id = e.1)
    ∧ ∀ f ∈ m.fragments.values, f.Writable m.space)
    ⟨fun ⟨h, hk, hf⟩ => ⟨h, hk, hf⟩, fun ⟨h, hk, hf⟩ => ⟨h, hk, hf⟩⟩

/-! ## Their written forms -/

/-- The written form of a reference. -/
def Reference.render : Reference → String
  | .literal id => id
  | .variable name => (Token.variable name).render

/-- The tag of a property. -/
def Property.tag (p : Property) : Tag :=
  Tag.write "property" [⟨"name", p.name⟩, ⟨"value", p.value⟩]

/-- The attributes of an include. -/
def Include.attributes (inc : Include) : List Attribute :=
  match inc.reference with
  | none => []
  | some r => [⟨"refid", r.render⟩]

/-- The start tag of an include. -/
def Include.tag (inc : Include) : Tag := Tag.write "include" inc.attributes

/-- The start tag of a statement. -/
def Fragment.startTag (f : Fragment) : Tag := Tag.write f.tag [⟨"id", f.id⟩]

/-- The start tag of a mapper. -/
def Mapper.tag (m : Mapper) : Tag := Tag.write "mapper" [⟨"namespace", m.space⟩]

/-- The names of the elements and attributes that a mapper is written with. -/
def writtenNames : List String :=
  statementTags ++ ["mapper", "include", "property", "namespace", "id", "refid", "name", "value"]

/-- The ways to write an element with these children. -/
inductive Markup.Tag.Writes (tag : Tag) : List Content → Content → Prop
  | pair (spaces : List Char) (children : List Content) (h : spaces.all Text.isSpace) :
    Tag.Writes tag children (.element tag spaces children)
  | single : Tag.Writes tag [] (.single tag)

/-- The ways to write a node. -/
inductive Node.Writes : Node → Content → Prop
  /-- Text with entities for its marks. -/
  | escaped (tokens : List Token) :
    Node.Writes (.text tokens) (.text (escape textMarks (Token.renderAll tokens)))
  /-- Text as one section, if it does not hold the end of one. -/
  | section (tokens : List Token) (h : ¬ [']', ']', '>'] <:+: Token.renderAll tokens) :
    Node.Writes (.text tokens) (.cdata (Token.renderAll tokens))
  | property {p : Property} {c : Content} (h : p.tag.Writes [] c) : Node.Writes (.property p) c
  /-- An include with its properties in any order. -/
  | include {inc : Include} {ps : List Property} {cs : List Content} {c : Content}
    (horder : ps.Perm inc.properties.values)
    (hproperties : List.Forall₂ (fun p c => p.tag.Writes [] c) ps cs)
    (h : inc.tag.Writes cs c) : Node.Writes (.include inc) c

/-- The ways to write a fragment. -/
def Fragment.Writes (f : Fragment) (c : Content) : Prop :=
  ∃ cs, List.Forall₂ Node.Writes f.children cs ∧ f.startTag.Writes cs c

/-- The ways to write a mapper, its statements in any order. -/
def Mapper.Writes (m : Mapper) (c : Content) : Prop :=
  ∃ fs cs, fs.Perm m.fragments.values ∧ List.Forall₂ Fragment.Writes fs cs ∧ m.tag.Writes cs c

/-! ## Each has one -/

/-- If each element has something that belongs to it, the elements of a list have a list of such
things. -/
theorem exists_forall₂ {α β : Type} {R : α → β → Prop} {l : List α}
    (h : ∀ a ∈ l, ∃ b, R a b) : ∃ l', List.Forall₂ R l l' := by
  induction l with
  | nil => exact ⟨[], .nil⟩
  | cons a l ih =>
    obtain ⟨b, hb⟩ := h a List.mem_cons_self
    obtain ⟨l', hl'⟩ := ih fun other hother => h other (List.mem_cons_of_mem a hother)
    exact ⟨b :: l', .cons hb hl'⟩

/-- A node has a written form. -/
theorem Node.exists_writes {space : String} {node : Node} (h : node.Writable space) :
    ∃ c, node.Writes c := by
  cases node with
  | text tokens => exact ⟨_, .escaped tokens⟩
  | property p => exact ⟨_, .property .single⟩
  | «include» inc =>
    have hproperties : ∀ p ∈ inc.properties.values, ∃ c, p.tag.Writes [] c := fun p _ =>
      ⟨.single p.tag, .single⟩
    obtain ⟨cs, hcs⟩ := exists_forall₂ hproperties
    exact ⟨_, .include (.refl _) hcs (.pair [] cs rfl)⟩
  | fragment tag id children => exact h.elim

/-- A statement has a written form. -/
theorem Fragment.exists_writes {space : String} {f : Fragment} (h : f.Writable space) :
    ∃ c, f.Writes c := by
  obtain ⟨cs, hcs⟩ := exists_forall₂ fun node hnode => Node.exists_writes (h.children node hnode)
  exact ⟨_, cs, hcs, .pair [] cs rfl⟩

/-- **A mapper has a written form.** -/
theorem Mapper.exists_writes {m : Mapper} (hm : m.Writable) : ∃ c, m.Writes c := by
  obtain ⟨cs, hcs⟩ := exists_forall₂ fun f hf => Fragment.exists_writes (hm.fragments f hf)
  exact ⟨_, _, cs, .refl _, hcs, .pair [] cs rfl⟩

/-! ## Their spelling -/

/-- Elements and attributes have names that need no care in a tag. -/
theorem isPlainName_of_mem_writtenNames {name : String} (h : name ∈ writtenNames) :
    isPlainName name.toList := by
  revert name
  decide +kernel

/-- So tags that are written with them are well-spelled, whatever values they have. -/
theorem Markup.Tag.wellFormedStart_write_of_mem {name : String} {attrs : List Attribute}
    (h : name ∈ writtenNames) (hattrs : ∀ attr ∈ attrs, attr.name ∈ writtenNames) :
    (Tag.write name attrs).wellFormedStart :=
  Tag.wellFormedStart_write (isPlainName_of_mem_writtenNames h) fun attr hattr =>
    isPlainName_of_mem_writtenNames (hattrs attr hattr)

/-- The tag of a property is one of them. -/
theorem Property.wellFormedStart_tag (p : Property) : p.tag.wellFormedStart :=
  Tag.wellFormedStart_write_of_mem (by decide) (by simp [writtenNames])

/-- An include has no attribute of another name. -/
theorem Include.mem_writtenNames_attributes {inc : Include} {attr : Attribute}
    (h : attr ∈ inc.attributes) : attr.name ∈ writtenNames := by
  rw [attributes] at h
  cases hr : inc.reference with
  | none => simp [hr] at h
  | some r =>
    simp only [hr, List.mem_singleton] at h
    simp [h, writtenNames]

/-- So the tag of an include is one of them, too. -/
theorem Include.wellFormedStart_tag (inc : Include) : inc.tag.wellFormedStart :=
  Tag.wellFormedStart_write_of_mem (by decide) fun _ => mem_writtenNames_attributes

namespace Markup.Tag.Writes

variable {tag : Tag} {cs : List Content} {c : Content}

/-- What an element is written as is an element. -/
theorem isElement (h : tag.Writes cs c) : c.isElement := by
  cases h <;> rfl

/-- It is well-spelled if the tag and the children are. -/
theorem wellFormed (h : tag.Writes cs c) (htag : tag.wellFormedStart)
    (hcs : Content.wellFormedAll cs) : c.wellFormed := by
  cases h with
  | pair spaces _ hspaces => exact Content.wellFormed_element_iff.2 ⟨htag, hspaces, hcs⟩
  | single => exact (wellFormedStart_iff.1 htag).1

end Markup.Tag.Writes

/-- What belongs to elements of a list has the properties that it has one by one. -/
theorem forall_mem_of_forall₂ {α β : Type} {P : β → Prop} {l : List α} {l' : List β}
    (h : List.Forall₂ (fun _ b => P b) l l') : ∀ b ∈ l', P b := by
  induction h with
  | nil => simp
  | cons hb _ ih => exact List.forall_mem_cons.2 ⟨hb, ih⟩

/-- A node is written in a well-spelled way. -/
theorem Node.Writes.wellFormed {node : Node} {c : Content} (h : node.Writes c) {space : String}
    (hnode : node.Writable space) : c.wellFormed := by
  cases h with
  | escaped tokens =>
    -- some of the text is left, and its angle brackets are replaced
    have hne : escape textMarks (Token.renderAll tokens) ≠ [] :=
      escape_ne_nil (Token.renderAll_ne_nil hnode.1 hnode.2) _
    have hopen : '<' ∉ escape textMarks (Token.renderAll tokens) := fun h =>
      absurd (eq_of_mem_escape h (by decide) (by decide)) (by decide)
    exact Content.wellFormed_text_iff.2 ⟨hne, hopen⟩
  | «section» tokens h =>
    simp [Content.wellFormed, h]
  | property h => exact h.wellFormed (Property.wellFormedStart_tag _) rfl
  | «include» horder hproperties h =>
    refine h.wellFormed (Include.wellFormedStart_tag _) ?_
    apply Content.wellFormedAll_of_isElement
    exact forall_mem_of_forall₂ (hproperties.imp fun p c hp =>
      ⟨hp.wellFormed (Property.wellFormedStart_tag p) rfl, hp.isElement⟩)

/-- Only text is written as text. -/
theorem Node.Writes.isText_of_isText {node : Node} {c : Content} (h : node.Writes c)
    (hc : c.isText) : node.isText := by
  cases h with
  | escaped tokens => rfl
  | «section» tokens h => rfl
  | property h =>
    rw [Content.isText_of_isElement h.isElement] at hc
    exact absurd hc Bool.false_ne_true
  | «include» horder hproperties h =>
    rw [Content.isText_of_isElement h.isElement] at hc
    exact absurd hc Bool.false_ne_true

/-- Texts that do not follow each other are not written one after the other. -/
theorem Node.isChain_of_writes {nodes : List Node} {cs : List Content}
    (h : List.Forall₂ Node.Writes nodes cs)
    (hchain : nodes.IsChain fun a b => ¬ (a.isText ∧ b.isText)) :
    cs.IsChain fun a b => ¬ (a.isText ∧ b.isText) := by
  induction h with
  | nil => exact .nil
  | @cons node c nodes cs hnode hrest ih =>
    cases hrest with
    | nil => exact .singleton c
    | @cons other d _ _ hother _ =>
      obtain ⟨hnot, hchain⟩ := List.isChain_cons_cons.1 hchain
      refine List.isChain_cons_cons.2 ⟨fun htext => hnot ?_, ih hchain⟩
      exact ⟨hnode.isText_of_isText htext.1, hother.isText_of_isText htext.2⟩

/-- The tag of a statement has a plain name. -/
theorem Fragment.Writable.tag_mem_writtenNames {space : String} {f : Fragment}
    (h : f.Writable space) : f.tag ∈ writtenNames :=
  List.mem_append_left _ h.tag

/-- A statement is written as a well-spelled element. -/
theorem Fragment.Writes.wellFormed {f : Fragment} {c : Content} (h : f.Writes c) {space : String}
    (hf : f.Writable space) : c.wellFormed ∧ c.isElement := by
  obtain ⟨cs, hcs, hc⟩ := h
  refine ⟨hc.wellFormed ?_ ?_, hc.isElement⟩
  · exact Tag.wellFormedStart_write_of_mem hf.tag_mem_writtenNames (by simp [writtenNames])
  · refine Content.wellFormedAll_of_isChain ?_ (Node.isChain_of_writes hcs hf.separated)
    exact forall_mem_of_forall₂ (((List.forall₂_and_left _ _).2 ⟨hf.children, hcs⟩).imp
      fun node c h => h.2.wellFormed h.1)

/-- **A mapper is written as a well-spelled element.** -/
theorem Mapper.Writes.wellFormed {m : Mapper} {c : Content} (h : m.Writes c) (hm : m.Writable) :
    c.wellFormed ∧ c.isElement := by
  obtain ⟨fs, cs, horder, hcs, hc⟩ := h
  refine ⟨hc.wellFormed ?_ ?_, hc.isElement⟩
  · exact Tag.wellFormedStart_write_of_mem (by decide) (by simp [writtenNames])
  · apply Content.wellFormedAll_of_isElement
    have hfs : ∀ f ∈ fs, f.Writable m.space := fun f hf => hm.fragments f (horder.mem_iff.1 hf)
    exact forall_mem_of_forall₂ (((List.forall₂_and_left _ _).2 ⟨hfs, hcs⟩).imp
      fun f c h => h.2.wellFormed h.1)

end SqlFragments
