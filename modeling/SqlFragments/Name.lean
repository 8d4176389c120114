/-! # Qualified names

A fragment is known by its qualified name, the namespace it was declared in and its id with a
period between them. An id that has a period is such a name already. -/

namespace SqlFragments

/-- The qualified name of an id in a namespace. -/
def qualify (space id : String) : String :=
  if '.' ∈ id.toList then id else space ++ "." ++ id

/-- An id with a period is not qualified again. -/
theorem qualify_of_mem {space id : String} (h : '.' ∈ id.toList) : qualify space id = id :=
  if_pos h

/-- An id without a period is qualified by the namespace. -/
theorem qualify_of_not_mem {space id : String} (h : '.' ∉ id.toList) :
    qualify space id = space ++ "." ++ id :=
  if_neg h

end SqlFragments
