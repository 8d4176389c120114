import SqlFragments.Context
import SqlFragments.Proofs.Dict

/-! # Frames take back what was set inside them

A frame notes what a variable had before it was first set inside the frame. `Bindings.popFrame_set`
says that this is enough: while a frame is open, setting a variable does not change what closing
the frame leads to. -/

namespace SqlFragments

/-! ## What a frame puts back -/

namespace Frame

/-- Gives one variable back what it had. -/
def putBack (values : Dict String) (name : String) : Option String → Dict String
  | some value => values.insert name value
  | none => values.erase name

@[simp] theorem restore_nil (values : Dict String) : restore [] values = values := rfl

/-- The latest note is put back first. -/
theorem restore_cons (name : String) (previous : Option String) (frame : Frame)
    (values : Dict String) :
    restore ((name, previous) :: frame) values
      = restore frame (putBack values name previous) := by
  cases previous <;> rfl

/-- The variable that is put back has what it had before, the others stay. -/
@[simp] theorem get?_putBack (values : Dict String) (name other : String)
    (previous : Option String) :
    (putBack values name previous).get? other
      = if name = other then previous else values.get? other := by
  cases previous <;> simp [putBack]

/-- Putting back what a variable has changes nothing, whatever it was set to meanwhile. -/
theorem putBack_insert_get? (values : Dict String) (name value : String) :
    putBack (values.insert name value) name (values.get? name) = values := by
  cases h : values.get? name with
  | none => exact Dict.erase_insert_of_get?_eq_none value h
  | some old => exact Dict.insert_insert_get? value h

/-- A frame that has noted a variable forgets what the variable was set to. -/
theorem restore_insert_of_mem {frame : Frame} {name : String} (value : String)
    (h : name ∈ frame.map Prod.fst) (values : Dict String) :
    restore frame (values.insert name value) = restore frame values := by
  induction frame generalizing values with
  | nil => simp at h
  | cons saved frame ih =>
    obtain ⟨noted, previous⟩ := saved
    rw [restore_cons, restore_cons]
    by_cases hname : noted = name
    · -- the entry itself overwrites the new value
      subst hname
      congr 1
      apply Dict.ext_get?
      intro other
      by_cases hother : noted = other <;> simp [hother]
    · -- the new value passes by the entry and meets its own further on
      have htail : name ∈ frame.map Prod.fst := by
        simpa [Ne.symm hname] using h
      have hcomm : putBack (values.insert name value) noted previous
          = (putBack values noted previous).insert name value := by
        apply Dict.ext_get?
        intro other
        by_cases hother : name = other
        · subst hother
          simp [hname]
        · simp [hother]
      rw [hcomm, ih htail]

/-- **A note is enough.** Setting a variable inside a frame leads to the same values once the frame
is closed. -/
theorem restore_note_insert (frame : Frame) (values : Dict String) (name value : String) :
    restore (frame.note name (values.get? name)) (values.insert name value)
      = restore frame values := by
  by_cases h : frame.any (·.1 == name)
  · rw [note, if_pos h]
    refine restore_insert_of_mem value ?_ values
    obtain ⟨saved, hsaved, hname⟩ := List.any_eq_true.1 h
    exact List.mem_map.2 ⟨saved, hsaved, by simpa using hname⟩
  · rw [note, if_neg h, restore_cons, putBack_insert_get?]

end Frame

/-! ## Open frames -/

namespace Bindings

/-- While a frame is open, what is set inside it is gone once it is closed. -/
theorem popFrame_set {b : Bindings} (h : b.frames ≠ []) (name value : String) :
    (b.set name value).popFrame = b.popFrame := by
  obtain ⟨values, frames⟩ := b
  cases frames with
  | nil => exact absurd rfl h
  | cons frame outer =>
    simp only [set, popFrame]
    rw [Frame.restore_note_insert]

/-- Setting a variable closes no frame. -/
theorem frames_set_ne_nil {b : Bindings} (h : b.frames ≠ []) (name value : String) :
    (b.set name value).frames ≠ [] := by
  obtain ⟨values, frames⟩ := b
  cases frames with
  | nil => exact absurd rfl h
  | cons frame outer => exact List.cons_ne_nil _ _

/-- Sets variables to the values that properties give them, one after the other. -/
def bindAll (b : Bindings) (properties : List Property) : Bindings :=
  properties.foldl (fun b p => b.set p.name p.value) b

@[simp] theorem bindAll_nil (b : Bindings) : b.bindAll [] = b := rfl

@[simp] theorem bindAll_cons (b : Bindings) (p : Property) (properties : List Property) :
    b.bindAll (p :: properties) = (b.set p.name p.value).bindAll properties := rfl

/-- What several properties set inside a frame is gone once it is closed. -/
theorem popFrame_bindAll {b : Bindings} (h : b.frames ≠ []) (properties : List Property) :
    (b.bindAll properties).popFrame = b.popFrame := by
  induction properties generalizing b with
  | nil => rfl
  | cons p properties ih =>
    rw [bindAll_cons, ih (frames_set_ne_nil h p.name p.value), popFrame_set h]

/-- **An include's bindings go with its frame.** -/
@[simp] theorem popFrame_bindAll_pushFrame (b : Bindings) (properties : List Property) :
    (b.pushFrame.bindAll properties).popFrame = b := by
  rw [popFrame_bindAll (List.cons_ne_nil _ _), popFrame_pushFrame]

end Bindings

end SqlFragments
