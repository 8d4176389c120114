import SqlFragments.Proofs.Node.Properties
import SqlFragments.Proofs.Mapper.Writing

/-! # Reading mappers back

Loading gives a mapper back from each of its written forms.

* `Node.Writes.part_eq`, `Fragment.Writes.top_eq`, `Mapper.Writes.root_eq`: a node, a statement and
  a mapper are read from the trees that write them;
* `ofDocument_of_writes`: so loading gives the mapper. -/

namespace SqlFragments

open SqlFragments.Markup
open SqlFragments.Placeholder

/-! ## Reading tags -/

section

variable {name : String} {attrs : List Attribute}

/-- A tag that is written with a name has this name. -/
theorem Reading.name_write (h : name ∈ writtenNames) :
    Reading.name (Tag.write name attrs) = name := by
  rw [Reading.name, Tag.localName_write (isPlainName_of_mem_writtenNames h), String.ofList_toList]

/-- A tag has the attributes that it is written with, if no two have the same name. -/
theorem Reading.attributes_write (h : name ∈ writtenNames)
    (hattrs : ∀ attr ∈ attrs, attr.name ∈ writtenNames) (hnodup : (attrs.map (·.name)).Nodup) :
    Reading.attributes (Tag.write name attrs) = .ok attrs := by
  rw [Reading.attributes, Tag.attributes_write (isPlainName_of_mem_writtenNames h)
    (fun attr hattr => isPlainName_of_mem_writtenNames (hattrs attr hattr)) hnodup]
  rfl

end

namespace Markup.Tag.Writes

variable {tag : Tag} {cs : List Content} {c : Content}

/-- A part of a statement is read alike whether it is written as one tag or as two. -/
theorem part_eq (h : tag.Writes cs c) (space : String) :
    Reading.part space c = Reading.element space tag (Reading.parts space cs) := by
  cases h <;> rfl

/-- So is a child of the root. -/
theorem top_eq (h : tag.Writes cs c) (m : Mapper) :
    Reading.top m c = Reading.topElement m tag (Reading.parts m.space cs) := by
  cases h <;> rfl

/-- And so is the root. -/
theorem root_eq (h : tag.Writes cs c) :
    Reading.root c = Reading.openRoot tag >>= fun m => cs.foldlM Reading.top m := by
  cases h with
  | pair => rfl
  | single => exact (bind_pure _).symm

end Markup.Tag.Writes

/-! ## Reading nodes -/

/-- Parts that each give one node give these nodes in order. -/
theorem Reading.parts_eq {space : String} {nodes : List Node} {cs : List Content}
    (h : List.Forall₂ (fun node c => Reading.part space c = .ok [node]) nodes cs) :
    Reading.parts space cs = .ok nodes := by
  induction h with
  | nil => rfl
  | cons hpart _ ih =>
    rw [Reading.parts, hpart, ih]
    rfl

/-- A property is read from each of its written forms. -/
theorem Property.part_eq (p : Property) {c : Content} (h : p.tag.Writes [] c) (space : String) :
    Reading.part space c = .ok [.property p] := by
  have hname : Reading.name p.tag = "property" := Reading.name_write (by decide)
  have hattrs : Reading.attributes p.tag = .ok [⟨"name", p.name⟩, ⟨"value", p.value⟩] :=
    Reading.attributes_write (by decide) (by simp [writtenNames]) (by simp)
  rw [h.part_eq, Reading.element, hname, hattrs]
  rfl

/-- A reference is read from its written form. -/
theorem Reference.ofText_render {r : Reference} (h : r.writable) :
    Reference.ofText r.render = .ok r := by
  cases r with
  | literal id =>
    have hread : tokenize id = .ok [.literal id] := @tokenize_render (.literal id) h
    rw [ofText, render, hread]
  | «variable» name =>
    have hread : tokenize (Token.variable name).render = .ok [.variable name] :=
      tokenize_render h
    rw [ofText, render, hread]

/-- An include takes its reference up from the written form. -/
theorem Include.scan_attributes {space : String} {inc : Include} (h : inc.Writable space) :
    (Include.empty space).scan inc.attributes
      = (.ok (), ⟨space, inc.reference, .empty⟩) := by
  obtain ⟨-, href, -⟩ := h
  rw [attributes]
  cases hr : inc.reference with
  | none => rfl
  | some r =>
    have hread := Reference.ofText_render (href r hr)
    simp [scan, hread, adopt, empty]

/-- Properties with names of their own become bindings. -/
theorem Include.addChildren_map_property {ps : List Property} (hnodup : (ps.map (·.name)).Nodup)
    (inc : Include) (hnew : ∀ p ∈ ps, inc.properties.get? p.name = none) :
    inc.addChildren (ps.map .property)
      = (.ok (), { inc with
          properties := (ps.map fun p => (p.name, p)).foldl (fun d e => d.insert e.1 e.2)
            inc.properties }) := by
  rw [addChildren_of_nodup, propertiesAmong_map_property, foldl_addProperty_eq]
  · rwa [propertiesAmong_map_property]
  · rwa [propertiesAmong_map_property]

/-- An include is read from each of its written forms, in whatever order its properties stand there.
-/
theorem Include.part_eq {space : String} {inc : Include} (hinc : inc.Writable space)
    {ps : List Property} (horder : ps.Perm inc.properties.values) {cs : List Content}
    (hproperties : List.Forall₂ (fun p c => p.tag.Writes [] c) ps cs) {c : Content}
    (h : inc.tag.Writes cs c) : Reading.part space c = .ok [.include inc] := by
  have hname : Reading.name inc.tag = "include" := Reading.name_write (by decide)
  have hattrs : Reading.attributes inc.tag = .ok inc.attributes := by
    apply Reading.attributes_write (by decide) fun _ => mem_writtenNames_attributes
    rw [attributes]
    cases inc.reference <;> simp
  have hparts : Reading.parts space cs = .ok (ps.map .property) :=
    Reading.parts_eq (List.forall₂_map_left_iff.2
      (hproperties.imp fun p c hp => Property.part_eq p hp space))
  -- the properties are those of the include, in some order
  obtain ⟨hnodup, hall⟩ := Dict.ofList_of_perm_values hinc.keys horder
  have htaken := addChildren_map_property hnodup ⟨space, inc.reference, .empty⟩ fun _ _ => rfl
  rw [← Dict.ofList, hall] at htaken
  rw [h.part_eq, Reading.element, hname, hattrs, hparts]
  simp only [Reading.emptyPart, if_true, bind, Except.bind, Node.scan,
    scan_attributes hinc, Reading.taken, Node.addChildren, htaken]
  rw [← hinc.space]
  rfl

/-- A node is read from each of its written forms. -/
theorem Node.Writes.part_eq {node : Node} {c : Content} (h : node.Writes c) {space : String}
    (hnode : node.Writable space) : Reading.part space c = .ok [node] := by
  cases h with
  | escaped tokens =>
    have hread := unescape_escape (by decide : '&' ∈ textMarks) (Token.renderAll tokens)
    have htext := tokenize_renderAll hnode.2
    rw [Reading.part, hread]
    simp only [Except.mapError, bind, Except.bind, Reading.textNode, Node.ofText, htext]
    rfl
  | «section» tokens h =>
    have htext := tokenize_renderAll hnode.2
    rw [Reading.part, Reading.textNode, Node.ofText, htext]
    rfl
  | property h => exact Property.part_eq _ h space
  | «include» horder hproperties h => exact Include.part_eq hnode horder hproperties h

/-! ## Reading statements and mappers -/

namespace Fragment

variable {space : String} {f : Fragment} {c : Content}

/-- A statement is read from each of its written forms. -/
theorem Writes.top_eq (h : f.Writes c) {m : Mapper} (hf : f.Writable m.space)
    (hnew : m.fragments.get? f.id = none) :
    Reading.top m c = .ok { m with fragments := m.fragments.insert f.id f } := by
  obtain ⟨cs, hcs, hc⟩ := h
  have hname : Reading.name f.startTag = f.tag := Reading.name_write hf.tag_mem_writtenNames
  have hattrs : Reading.attributes f.startTag = .ok [⟨"id", f.id⟩] :=
    Reading.attributes_write hf.tag_mem_writtenNames (by simp [writtenNames]) (by simp)
  have hparts : Reading.parts m.space cs = .ok f.children :=
    Reading.parts_eq (((List.forall₂_and_left _ _).2 ⟨hf.children, hcs⟩).imp
      fun node c h => h.2.part_eq h.1)
  rw [hc.top_eq, Reading.topElement, hname, if_pos hf.tag, Reading.statement, hattrs, hparts, hname]
  simp [bind, Except.bind, scanId, Reading.declared, hf.id, hnew]

end Fragment

/-- Statements with ids of their own are read one after the other. -/
theorem Reading.foldlM_top {fs : List Fragment} {cs : List Content}
    (hcs : List.Forall₂ Fragment.Writes fs cs) {m : Mapper} (hfs : ∀ f ∈ fs, f.Writable m.space)
    (hnodup : (fs.map (·.id)).Nodup) (hnew : ∀ f ∈ fs, m.fragments.get? f.id = none) :
    cs.foldlM top m = .ok { m with
      fragments := (fs.map fun f => (f.id, f)).foldl (fun d e => d.insert e.1 e.2) m.fragments } := by
  -- on the statements that are left; none of them has an id that is taken by then
  induction hcs generalizing m with
  | nil => rfl
  | @cons f c fs cs hf _ ih =>
    rw [List.map_cons, List.nodup_cons] at hnodup
    rw [List.foldlM_cons, hf.top_eq (hfs f List.mem_cons_self) (hnew f List.mem_cons_self)]
    refine ih (fun g hg => hfs g (List.mem_cons_of_mem f hg)) hnodup.2 ?_
    intro g hg
    have hne : f.id ≠ g.id := by
      intro heq
      exact hnodup.1 (heq ▸ List.mem_map_of_mem hg)
    rw [Dict.get?_insert, if_neg hne, hnew g (List.mem_cons_of_mem f hg)]

namespace Mapper

variable {m : Mapper} {c : Content}

/-- **Every written form of a mapper is read as the mapper.** -/
theorem Writes.root_eq (h : m.Writes c) (hm : m.Writable) : Reading.root c = .ok m := by
  obtain ⟨fs, cs, horder, hcs, hc⟩ := h
  have hname : Reading.name m.tag = "mapper" := Reading.name_write (by decide)
  have hattrs : Reading.attributes m.tag = .ok [⟨"namespace", m.space⟩] :=
    Reading.attributes_write (by decide) (by simp [writtenNames]) (by simp)
  have hopen : Reading.openRoot m.tag = .ok (Mapper.empty m.space) := by
    rw [Reading.openRoot, hname, if_pos rfl, hattrs]
    simp [bind, Except.bind, hm.space]
  -- the statements are those of the mapper, in some order
  obtain ⟨hnodup, hall⟩ := Dict.ofList_of_perm_values hm.keys horder
  have hfs : ∀ f ∈ fs, f.Writable m.space := fun f hf => hm.fragments f (horder.mem_iff.1 hf)
  have hfold := Reading.foldlM_top hcs (m := Mapper.empty m.space) hfs hnodup fun _ _ => rfl
  rw [Mapper.empty, ← Dict.ofList, hall] at hfold
  rw [hc.root_eq, hopen]
  exact hfold

end Mapper

/-- **Mappers are read back.** A mapper that a document can declare has written forms, and loading
gives it back from each of them. -/
theorem ofDocument_of_writes {m : Mapper} (hm : m.Writable) :
    (∃ c, m.Writes c) ∧
      ∀ c, m.Writes c → Mapper.ofDocument (String.ofList c.render) = .ok m := by
  refine ⟨Mapper.exists_writes hm, ?_⟩
  intro c hc
  obtain ⟨hwf, helement⟩ := hc.wellFormed hm
  have hdocument : Document.wellFormed ⟨false, [], c, []⟩ := by
    simp [Document.wellFormed, Document.parts, Content.wellFormedAll, Content.startsText, hwf,
      helement]
  have hrender : Document.render ⟨false, [], c, []⟩ = String.ofList c.render := by
    simp [Document.render, Document.parts, Content.renderAll]
  rw [Loading.ofDocument_eq, ← hrender, Loading.run_start hdocument, hc.root_eq hm]
  rfl

/-- An include whose binding is full of marks. -/
def sampleInclude : Include where
  space := "shop"
  reference := some (.literal "cols")
  properties := ⟨[("n", ⟨"n", "\"1\" > '2'"⟩)], by decide⟩

/-- A statement with text on either side of an include. -/
def sampleSelect : Fragment where
  tag := "select"
  id := "all"
  children := [
    .text [.literal "a < ", .variable "t.x", .literal " && "],
    .include sampleInclude,
    .text [.literal " $ ]]> "]]

/-- The statement that `sampleInclude` refers to: a placeholder and an empty property. -/
def sampleSql : Fragment where
  tag := "sql"
  id := "cols"
  children := [.text [.parameter "p"], .property ⟨"", ""⟩]

/-- A mapper of both statements. -/
def sampleMapper : Mapper where
  space := "shop"
  fragments := ⟨[("all", sampleSelect), ("cols", sampleSql)], by decide⟩

/-- A written form with the statements in another order, a text as a section and a property in two
tags. -/
def sampleRoot : Content :=
  .element sampleMapper.tag [] [
    .element sampleSql.startTag ['\n'] [
      .text (escape textMarks (Token.renderAll [.parameter "p"])),
      .element (Property.tag ⟨"", ""⟩) [] []],
    .element sampleSelect.startTag [] [
      .cdata (Token.renderAll [.literal "a < ", .variable "t.x", .literal " && "]),
      .element sampleInclude.tag [] [.single (Property.tag ⟨"n", "\"1\" > '2'"⟩)],
      .text (escape textMarks (Token.renderAll [.literal " $ ]]> "]))]]

/-- The sample tree is one of the ways to write the sample mapper. -/
theorem writes_sampleRoot : sampleMapper.Writes sampleRoot := by
  have hinclude : Node.Writes (.include sampleInclude) (.element sampleInclude.tag []
      [.single (Property.tag ⟨"n", "\"1\" > '2'"⟩)]) :=
    .include (.refl _) (.cons .single .nil) (.pair [] _ rfl)
  have hselect : sampleSelect.Writes _ :=
    ⟨_, .cons (.section _ (by decide +kernel)) (.cons hinclude (.cons (.escaped _) .nil)),
      .pair [] _ rfl⟩
  have hsql : sampleSql.Writes _ :=
    ⟨_, .cons (.escaped _) (.cons (.property (.pair [] _ rfl)) .nil), .pair ['\n'] _ rfl⟩
  exact ⟨[sampleSql, sampleSelect], _, .swap _ _ _, .cons hsql (.cons hselect .nil),
    .pair [] _ rfl⟩

/-- That form, written out. -/
def sampleText : String :=
  "<mapper namespace=\"shop\"><sql id=\"cols\">#\x7bp\x7d"
    ++ "<property name=\"\" value=\"\"></property></sql\n><select id=\"all\">"
    ++ "<![CDATA[a < $\x7bt.x\x7d && ]]><include refid=\"cols\">"
    ++ "<property name=\"n\" value=\"&quot;1&quot; &gt; &apos;2&apos;\"/></include>"
    ++ " $ ]]&gt; </select></mapper>"

/-- The sample text is read as the sample mapper, with all its marks. -/
theorem ofDocument_of_writes_sampleMapper :
    sampleMapper.Writable ∧ sampleMapper.Writes sampleRoot ∧
      Mapper.ofDocument sampleText = .ok sampleMapper := by
  have hm : sampleMapper.Writable := by decide +kernel
  have htext : sampleText = String.ofList sampleRoot.render := by decide +kernel
  refine ⟨hm, writes_sampleRoot, ?_⟩
  rw [htext]
  exact (ofDocument_of_writes hm).2 sampleRoot writes_sampleRoot

end SqlFragments
