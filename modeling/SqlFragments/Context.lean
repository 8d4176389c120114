import SqlFragments.Bindings
import SqlFragments.Host
import SqlFragments.Name
import SqlFragments.Node.Basic
import SqlFragments.Text.Quoted

/-! # The context of a resolution

The variables, the registered fragments and the options that a resolution works with, and the
names of the fragments that are being resolved. -/

namespace SqlFragments

/-- How fragments are resolved. -/
structure Options where
  /-- Whether the bindings of an include end with it. -/
  scopedBindings : Bool := false
  /-- Whether entering a fragment again while it is being resolved is an error. -/
  detectCycles : Bool := true
  deriving DecidableEq, Repr

/-- What a qualified name stands for. -/
inductive Definition where
  /-- A node, as read from a document. -/
  | node (node : Node)
  /-- A fragment defined by the application. -/
  | host (host : Host)

/-- What a resolution works with. -/
structure Context where
  /-- The namespace to which bare ids of statements belong. -/
  space : String
  /-- The variables. -/
  bindings : Bindings
  /-- The fragments, by their qualified names. -/
  registry : Dict Definition
  options : Options
  /-- The qualified names that are being resolved, innermost first. -/
  active : List String
  /-- What is left on the meters of the application's fragments. -/
  meters : List Nat

namespace Context

/-- A context without variables and fragments. -/
def empty (space : String) (options : Options) : Context :=
  ⟨space, .empty, .empty, options, [], []⟩

/-- The value of a variable. -/
def get? (ctx : Context) (name : String) : Option String := ctx.bindings.get? name

/-- Gives a variable a value. -/
def set (ctx : Context) (name value : String) : Context :=
  { ctx with bindings := ctx.bindings.set name value }

/-- Opens a frame of bindings. -/
def pushFrame (ctx : Context) : Context := { ctx with bindings := ctx.bindings.pushFrame }

/-- Closes the innermost frame of bindings. -/
def popFrame (ctx : Context) : Context := { ctx with bindings := ctx.bindings.popFrame }

/-- Lets a qualified name stand for a fragment, in place of the one it stood for. -/
def register (ctx : Context) (name : String) (definition : Definition) : Context :=
  { ctx with registry := ctx.registry.insert name definition }

/-- The registered names, in increasing order. -/
def fragmentNames (ctx : Context) : List String := ctx.registry.keys

/-- Notes that a fragment is being resolved. -/
def enter (ctx : Context) (name : String) : Context := { ctx with active := name :: ctx.active }

/-- Notes that the innermost fragment has been resolved. -/
def leave (ctx : Context) : Context := { ctx with active := ctx.active.tail }

/-- Sets up a meter. -/
def addMeter (ctx : Context) (budget : Nat) : Nat × Context :=
  (ctx.meters.length, { ctx with meters := ctx.meters ++ [budget] })

/-- Draws one unit from a meter, if there is one. -/
def drawMeter (ctx : Context) (meter : Nat) : Bool × Context :=
  match ctx.meters[meter]? with
  | some (left + 1) => (true, { ctx with meters := ctx.meters.set meter left })
  | _ => (false, ctx)

/-- Leaving the fragment that was entered last restores the context. -/
@[simp] theorem leave_enter (ctx : Context) (name : String) : (ctx.enter name).leave = ctx := rfl

/-- A frame that is closed at once changes nothing. -/
@[simp] theorem popFrame_pushFrame (ctx : Context) : ctx.pushFrame.popFrame = ctx := rfl

/-! ## Description -/

/-- A truth value as a word. -/
def describeBool (b : Bool) : String := if b then "true" else "false"

/-- The parts of a context that its description shows: namespace, variables, names of fragments
and options. -/
def describe (ctx : Context) : String :=
  let values := ctx.bindings.values.entries.map fun e =>
    Text.quoted e.1 ++ ": " ++ Text.quoted e.2
  let fragments := ctx.fragmentNames.map Text.quoted
  "Context \x7b namespace: " ++ Text.quoted ctx.space
    ++ ", variables: \x7b" ++ String.intercalate ", " values
    ++ "\x7d, fragments: [" ++ String.intercalate ", " fragments
    ++ "], options: ContextOptions \x7b scoped_bindings: "
    ++ describeBool ctx.options.scopedBindings
    ++ ", detect_cycles: " ++ describeBool ctx.options.detectCycles ++ " \x7d \x7d"

end Context

end SqlFragments
