import SqlFragments.Context

/-! # Mappers

A mapper is what one document declares: a namespace and the statements in it, by their ids. -/

namespace SqlFragments

/-- The statements of one document. -/
structure Mapper where
  /-- The namespace of the statements. -/
  space : String
  /-- The statements, by their ids as they stand in the document. -/
  fragments : Dict Fragment

namespace Mapper

/-- A mapper without statements. -/
def empty (space : String) : Mapper := ⟨space, .empty⟩

/-- The statement of an id. -/
def fragment? (m : Mapper) (id : String) : Option Fragment := m.fragments.get? id

/-- The qualified names of the statements, in the order of their ids. -/
def qualifiedNames (m : Mapper) : List String := m.fragments.keys.map (qualify m.space)

/-- Registers statements one after the other under their qualified names, and gives the names
that were registered before. -/
def registerAll (space : String) (ctx : Context) :
    List (String × Fragment) → List String × Context
  | [] => ([], ctx)
  | (id, fragment) :: rest =>
    let name := qualify space id
    let (replaced, after) :=
      registerAll space (ctx.register name (.node fragment.toNode)) rest
    (if ctx.registry.contains name then name :: replaced else replaced, after)

/-- Registers the statements of a mapper in a context. The names that stood for something else
before are given in the order of the ids. -/
def register (m : Mapper) (ctx : Context) : List String × Context :=
  registerAll m.space ctx m.fragments.entries

end Mapper

end SqlFragments
