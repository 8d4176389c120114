import SqlFragments.Dict
import SqlFragments.Placeholder.Token

/-! # Statement nodes

A statement is a fragment: a named sequence of text, includes of other fragments and properties,
the bindings that an include makes before it is expanded. -/

namespace SqlFragments

open SqlFragments.Placeholder

/-- An attribute of an element, its value with all entities replaced. -/
structure Attribute where
  name : String
  value : String
  deriving DecidableEq, Repr

/-- A binding of a variable that belongs to an include. -/
structure Property where
  name : String
  value : String
  deriving DecidableEq, Repr

/-- What an include points at. -/
inductive Reference where
  /-- The id of a fragment, which belongs to the include's namespace unless it is qualified. -/
  | literal (id : String)
  /-- The variable whose value is the qualified name of a fragment. -/
  | variable (name : String)
  deriving DecidableEq, Repr

/-- An include of another fragment. -/
structure Include where
  /-- The namespace it was declared in, to which a bare id belongs wherever it is resolved. -/
  space : String
  /-- What it points at. -/
  reference : Option Reference
  /-- The bindings it makes, by name. -/
  properties : Dict Property

/-- A part of a statement. -/
inductive Node where
  /-- Text with placeholders. -/
  | text (tokens : List Token)
  /-- A binding, which stands for no text. -/
  | property (property : Property)
  /-- An include. -/
  | include (inc : Include)
  /-- A fragment, declared with an element of the given name. -/
  | fragment (tag id : String) (children : List Node)

/-- A fragment on its own. -/
structure Fragment where
  /-- The name of the element it was declared with. -/
  tag : String
  id : String
  children : List Node

/-- A fragment as a node. -/
def Fragment.toNode (f : Fragment) : Node := .fragment f.tag f.id f.children

/-- A property without name and value. -/
def Property.empty : Property := ⟨"", ""⟩

/-- An include in a namespace, without a target and without bindings. -/
def Include.empty (space : String) : Include := ⟨space, none, .empty⟩

end SqlFragments
