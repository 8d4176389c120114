import SqlFragments.Dict
import SqlFragments.Node.Error

/-! # Fragments defined by the application

An application may register fragments of its own beside those read from documents. Such a
fragment is a finite tree of requests: it sets and reads variables, has other fragments expanded
and goes on with what they give, and draws on meters, budgets of its own that last for as long as
the fragment is registered. -/

namespace SqlFragments

/-- The requests of a fragment defined by the application. -/
inductive Host where
  /-- The fragment is finished. -/
  | done (answer : Except NodeError String)
  /-- Sets a variable. -/
  | set (name value : String) (next : Host)
  /-- Reads the values of all variables. -/
  | read (next : Dict String → Host)
  /-- Has the fragment of a qualified name expanded. -/
  | expand (name : String) (next : Except NodeError String → Host)
  /-- Draws one unit from a meter; the reply is whether there was one. -/
  | draw (meter : Nat) (next : Bool → Host)

namespace Host

/-- Goes on with the answer of a fragment. -/
def andThen : Host → (Except NodeError String → Host) → Host
  | .done answer, next => next answer
  | .set name value rest, next => .set name value (rest.andThen next)
  | .read rest, next => .read fun values => (rest values).andThen next
  | .expand name rest, next => .expand name fun answer => (rest answer).andThen next
  | .draw meter rest, next => .draw meter fun granted => (rest granted).andThen next

/-- Stands for a fixed text. -/
def static (text : String) : Host := .done (.ok text)

/-- Always fails. -/
def fail (error : NodeError) : Host := .done (.error error)

/-- Sets a variable and stands for no text. -/
def assign (name value : String) : Host := .set name value (.done (.ok ""))

/-- Lists the variables and their values, in the order of their names. -/
def listing : Host :=
  .read fun values =>
    .done (.ok (String.join (values.entries.map fun e => "[" ++ e.1 ++ "=" ++ e.2 ++ "]")))

/-- Expands another fragment as long as the meter allows it. -/
def call (meter : Nat) (name : String) : Host :=
  .draw meter fun granted =>
    if granted then .expand name .done else .fail (.fragmentNotFound "call limit")

/-- Several fragments one after the other, up to the first that fails. -/
def sequence : List Host → Host
  | [] => .done (.ok "")
  | host :: hosts =>
    host.andThen fun
      | .error e => .fail e
      | .ok text =>
        (sequence hosts).andThen fun
          | .error e => .fail e
          | .ok more => .done (.ok (text ++ more))

end Host

end SqlFragments
