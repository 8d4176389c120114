import SqlFragments.Dict

/-! # Bindings of variables

The values of variables, with frames that can be opened and closed. Closing a frame gives every
variable the value back that it had when the frame was opened. A frame holds no copy of the
values: it notes what a variable had before it was first set inside the frame. -/

namespace SqlFragments

/-- What the variables set inside a frame had before, the latest first; `none` for those that had
no value. -/
abbrev Frame := List (String × Option String)

/-- Notes what a variable had, unless the frame knows already. -/
def Frame.note (frame : Frame) (name : String) (previous : Option String) : Frame :=
  if frame.any (·.1 == name) then frame else (name, previous) :: frame

/-- Gives the variables of a frame back what they had. -/
def Frame.restore (frame : Frame) (values : Dict String) : Dict String :=
  frame.foldl
    (fun values saved =>
      match saved.2 with
      | some value => values.insert saved.1 value
      | none => values.erase saved.1)
    values

/-- The values of variables and the open frames. -/
structure Bindings where
  /-- The value of each variable that has one. -/
  values : Dict String
  /-- The open frames, innermost first. -/
  frames : List Frame

namespace Bindings

/-- No variable has a value and no frame is open. -/
def empty : Bindings := ⟨.empty, []⟩

/-- The value of a variable. -/
def get? (b : Bindings) (name : String) : Option String := b.values.get? name

/-- Gives a variable a value. The innermost frame notes what it had. -/
def set (b : Bindings) (name value : String) : Bindings where
  values := b.values.insert name value
  frames :=
    match b.frames with
    | [] => []
    | frame :: outer => frame.note name (b.values.get? name) :: outer

/-- Opens a frame. -/
def pushFrame (b : Bindings) : Bindings := { b with frames := [] :: b.frames }

/-- Closes the innermost frame and takes back what was set inside it. Without an open frame
nothing happens. -/
def popFrame (b : Bindings) : Bindings :=
  match b.frames with
  | [] => b
  | frame :: outer => ⟨frame.restore b.values, outer⟩

/-- The variable that is set has the new value, the others have what they had. -/
@[simp] theorem get?_set (b : Bindings) (name other value : String) :
    (b.set name value).get? other = if name = other then some value else b.get? other :=
  Dict.get?_insert b.values name other value

@[simp] theorem get?_pushFrame (b : Bindings) (name : String) :
    b.pushFrame.get? name = b.get? name := rfl

/-- A frame that is closed at once changes nothing. -/
@[simp] theorem popFrame_pushFrame (b : Bindings) : b.pushFrame.popFrame = b := rfl

end Bindings

end SqlFragments
