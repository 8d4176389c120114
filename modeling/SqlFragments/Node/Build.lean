import SqlFragments.Node.Basic
import SqlFragments.Node.Error
import SqlFragments.Placeholder.Cursor

/-! # Building statement nodes

A node takes up the attributes of its element and then the nodes built from the element's
children. A step that fails keeps what it did before the failure, so each step answers and gives
the node as it is afterwards. -/

namespace SqlFragments

open SqlFragments.Placeholder

/-- The node for a stretch of text. -/
def Node.ofText (text : String) : Except NodeError Node :=
  match tokenize text with
  | .error e => .error (.token e)
  | .ok tokens => .ok (.text tokens)

/-- What an include with this target points at. -/
def Reference.ofText (text : String) : Except NodeError Reference :=
  match tokenize text with
  | .error e => .error (.token e)
  | .ok [.literal id] => .ok (.literal id)
  | .ok [.variable name] => .ok (.variable name)
  | .ok _ => .error (.invalidReference text)

/-- Gives an include a target, unless it has one. -/
def Include.adopt (inc : Include) (reference : Reference) : Include :=
  { inc with reference := inc.reference <|> some reference }

/-- Takes up attributes: every target must be a good one, and the first of them stays. -/
def Include.scan (inc : Include) : List Attribute → Except NodeError Unit × Include
  | [] => (.ok (), inc)
  | attr :: attrs =>
    if attr.name = "refid" then
      match Reference.ofText attr.value with
      | .error e => (.error e, inc)
      | .ok reference => (inc.adopt reference).scan attrs
    else inc.scan attrs

/-- Gives an include a further binding. -/
def Include.addProperty (inc : Include) (p : Property) : Include :=
  { inc with properties := inc.properties.insert p.name p }

/-- Takes up child nodes: the properties among them become bindings, with each name once. -/
def Include.addChildren (inc : Include) : List Node → Except NodeError Unit × Include
  | [] => (.ok (), inc)
  | .property p :: nodes =>
    if inc.properties.contains p.name then (.error (.duplicateProperty p.name), inc)
    else (inc.addProperty p).addChildren nodes
  | _ :: nodes => inc.addChildren nodes

/-- Takes up attributes: of several names or values the last one counts. -/
def Property.scan (p : Property) (attrs : List Attribute) : Property :=
  attrs.foldl
    (fun p attr =>
      if attr.name = "name" then { p with name := attr.value }
      else if attr.name = "value" then { p with value := attr.value }
      else p)
    p

/-- The id that the attributes of a fragment give it, or the one it has. -/
def scanId (id : String) (attrs : List Attribute) : String :=
  match attrs.find? (·.name = "id") with
  | some attr => attr.value
  | none => id

/-- Takes up the attributes of an element. -/
def Node.scan (node : Node) (attrs : List Attribute) : Except NodeError Unit × Node :=
  match node with
  | .text ts => (.ok (), .text ts)
  | .property p => (.ok (), .property (p.scan attrs))
  | .include inc =>
    let (answer, inc) := inc.scan attrs
    (answer, .include inc)
  | .fragment tag id children => (.ok (), .fragment tag (scanId id attrs) children)

/-- Takes up the children of an element. -/
def Node.addChildren (node : Node) (nodes : List Node) : Except NodeError Unit × Node :=
  match node with
  | .text ts => (.ok (), .text ts)
  | .property p => (.ok (), .property p)
  | .include inc =>
    let (answer, inc) := inc.addChildren nodes
    (answer, .include inc)
  | .fragment tag id children => (.ok (), .fragment tag id (children ++ nodes))

end SqlFragments
