import Mathlib.Data.List.Infix
import SqlFragments.Markup.Tag

/-! # Documents as trees

A document as it stands on paper: a tree of elements, stretches of text, sections and asides, each
with its own spelling.

* `Content.render` writes a tree out;
* `Content.wellFormed`: the parts are spelled such that they cannot be mistaken for each other.
  Nothing is asked of the attributes in a tag and of the entities in a text, which may be bad. -/

namespace SqlFragments.Markup

open SqlFragments.Text

/-! ## Trees -/

/-- Markup that says nothing about the content. -/
inductive Aside where
  | comment (raw : List Char)
  /-- A processing instruction or a declaration. -/
  | instruction (raw : List Char)
  | doctype (raw : List Char)

/-- A part of a document. -/
inductive Content where
  /-- An element between a start tag and an end tag. The spaces stand in the end tag, behind the
  name. -/
  | element (tag : Tag) (spaces : List Char) (children : List Content)
  /-- A childless element that is written as one tag. -/
  | single (tag : Tag)
  /-- Text with entities. -/
  | text (raw : List Char)
  /-- A section of literal text. -/
  | cdata (raw : List Char)
  | aside (a : Aside)

/-! ## Spelling -/

/-- The written form of an aside. -/
def Aside.render : Aside → List Char
  | .comment raw => ['<', '!', '-', '-'] ++ (raw ++ ['-', '-', '>'])
  | .instruction raw => ['<', '?'] ++ (raw ++ ['?', '>'])
  | .doctype raw => ['<', '!', 'D', 'O', 'C', 'T', 'Y', 'P', 'E'] ++ (raw ++ ['>'])

/-- The end tag of an element. -/
def endTag (name spaces : List Char) : List Char := '<' :: '/' :: (name ++ (spaces ++ ['>']))

mutual

/-- The written form of a part. -/
def Content.render : Content → List Char
  | .element tag spaces children =>
    '<' :: (tag.content ++ '>' :: (Content.renderAll children ++ endTag tag.name spaces))
  | .single tag => '<' :: (tag.content ++ ['/', '>'])
  | .text raw => raw
  | .cdata raw => ['<', '!', '[', 'C', 'D', 'A', 'T', 'A', '['] ++ (raw ++ [']', ']', '>'])
  | .aside a => a.render

/-- The written form of parts that follow each other. -/
def Content.renderAll : List Content → List Char
  | [] => []
  | c :: cs => c.render ++ Content.renderAll cs

end

/-- Whether quotes are closed in a text and angle brackets stand inside of quotes only, `quote`
being open at its head. -/
def quotesClosed : Option Char → List Char → Bool
  | quote, [] => quote.isNone
  | none, c :: cs =>
    c ≠ '>' && quotesClosed (if c = '"' ∨ c = '\'' then some c else none) cs
  | some q, c :: cs => quotesClosed (if c = q then none else some q) cs

/-- How many inner angle brackets a text leaves open, `depth` being open at its head; `none` if it
closes one too many. -/
def bracketDepth : Nat → List Char → Option Nat
  | depth, [] => some depth
  | depth, c :: cs =>
    if c = '<' then bracketDepth (depth + 1) cs
    else if c = '>' then
      match depth with
      | 0 => none
      | depth + 1 => bracketDepth depth cs
    else bracketDepth depth cs

/-- The spelling of an aside: what ends it stands at its end only. -/
def Aside.wellFormed : Aside → Bool
  | .comment raw => !decide (['-', '-', '>'] <:+: raw)
  | .instruction raw => !decide (['?', '>'] <:+: raw) && raw.head? ≠ some '>'
  | .doctype raw => bracketDepth 0 raw = some 0 && !raw.all isSpace

/-- The spelling of a tag: a name comes first, which is none of the marks for other markup, and
quotes are closed. -/
def Tag.wellFormed (tag : Tag) : Bool :=
  tag.name ≠ [] && tag.content.headD ' ' ∉ ['!', '?', '/'] && quotesClosed none tag.content

/-- The spelling of a start tag: it does not end like an element in one tag, and its name can
stand in an end tag. -/
def Tag.wellFormedStart (tag : Tag) : Bool :=
  tag.wellFormed && tag.content.getLast? ≠ some '/' && quotesClosed none tag.name

/-- What the spelling of a tag asks for. -/
theorem Tag.wellFormed_iff {tag : Tag} : tag.wellFormed ↔
    tag.name ≠ [] ∧ tag.content.headD ' ' ∉ ['!', '?', '/'] ∧ quotesClosed none tag.content := by
  simp only [wellFormed, Bool.and_eq_true, decide_eq_true_eq, and_assoc]

/-- What the spelling of a start tag asks for beyond that. -/
theorem Tag.wellFormedStart_iff {tag : Tag} : tag.wellFormedStart ↔
    tag.wellFormed ∧ tag.content.getLast? ≠ some '/' ∧ quotesClosed none tag.name := by
  simp only [wellFormedStart, Bool.and_eq_true, decide_eq_true_eq, and_assoc]

/-- Whether a part is text. -/
def Content.isText : Content → Bool
  | .text _ => true
  | _ => false

/-- Whether text comes first. -/
def Content.startsText : List Content → Bool
  | [] => false
  | c :: _ => c.isText

mutual

/-- The spelling of a part. -/
def Content.wellFormed : Content → Bool
  | .element tag spaces children =>
    tag.wellFormedStart && spaces.all isSpace && Content.wellFormedAll children
  | .single tag => tag.wellFormed
  | .text raw => raw ≠ [] && !raw.contains '<'
  | .cdata raw => !decide ([']', ']', '>'] <:+: raw)
  | .aside a => a.wellFormed

/-- The spelling of parts that follow each other: no two texts do. -/
def Content.wellFormedAll : List Content → Bool
  | [] => true
  | c :: cs =>
    c.wellFormed && !(c.isText && Content.startsText cs) && Content.wellFormedAll cs

end

/-- An element is well-spelled if its start tag and its children are, and only spaces stand in its
end tag. -/
theorem Content.wellFormed_element_iff {tag : Tag} {spaces : List Char}
    {children : List Content} : (Content.element tag spaces children).wellFormed ↔
      tag.wellFormedStart ∧ spaces.all isSpace ∧ Content.wellFormedAll children := by
  simp only [wellFormed, Bool.and_eq_true, and_assoc]

/-- Text is well-spelled if it is there and holds no angle bracket that opens markup. -/
theorem Content.wellFormed_text_iff {raw : List Char} :
    (Content.text raw).wellFormed ↔ raw ≠ [] ∧ '<' ∉ raw := by
  simp [wellFormed]

/-! ## Documents -/

/-- A document: one element, with asides and spaces around it. -/
structure Document where
  /-- Whether a byte order mark stands at the start. -/
  mark : Bool
  prolog : List Content
  root : Content
  epilog : List Content

/-- Whether a part may stand outside of the root. -/
def Content.isMisc : Content → Bool
  | .text raw => raw.all isSpace
  | .aside _ => true
  | _ => false

/-- Whether a part is an element. -/
def Content.isElement : Content → Bool
  | .element _ _ _ => true
  | .single _ => true
  | _ => false

/-- The parts of a document in order. -/
def Document.parts (d : Document) : List Content := d.prolog ++ d.root :: d.epilog

/-- The written form of a document. -/
def Document.render (d : Document) : String :=
  String.ofList ((if d.mark then ['\uFEFF'] else []) ++ Content.renderAll d.parts)

/-- The spelling of a document. -/
def Document.wellFormed (d : Document) : Bool :=
  Content.wellFormedAll d.parts && d.prolog.all Content.isMisc && d.root.isElement
    && d.epilog.all Content.isMisc

end SqlFragments.Markup
