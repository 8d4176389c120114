import SqlFragments.Context

/-! # Resolution

A fragment is resolved to text in a context: variables are replaced by their values, an include
by what its target resolves to, after its bindings have been made. Every step gives an answer and
the context as it is afterwards, also when the answer is an error.

Resolution follows the nodes of a fragment and, at an include, goes on with another fragment, so
it is bounded by how deep fragments may nest. Running out of that bound is no answer (`none`).
With cycle detection a run never gets deeper than there are registered fragments, and the bound
is chosen so that it is not felt. -/

namespace SqlFragments

open SqlFragments.Placeholder

/-- What a resolution comes to: a text or an error, and the context afterwards. It comes to nothing
if fragments nest deeper than the given bound. -/
abbrev Resolution := Option (Except NodeError String × Context)

/-- The text that tokens stand for when variables have these values. -/
def renderTokens (values : Dict String) : List Token → Except NodeError String
  | [] => .ok ""
  | .literal text :: tokens => (renderTokens values tokens).map (text ++ ·)
  | .variable name :: tokens =>
    match values.get? name with
    | none => .error (.undefinedVariable name)
    | some value => (renderTokens values tokens).map (value ++ ·)
  | .parameter expr :: tokens =>
    (renderTokens values tokens).map ((Token.parameter expr).render ++ ·)
  | .endOfText :: tokens => renderTokens values tokens

/-- The qualified name that an include points at when variables have these values. -/
def Include.target (inc : Include) (values : Dict String) : Except NodeError String :=
  match inc.reference with
  | some (.literal id) => .ok (qualify inc.space id)
  | some (.variable name) =>
    match values.get? name with
    | none => .error (.undefinedVariable name)
    | some value => .ok value
  | none => .error .missingReference

/-- Makes bindings, one after the other. -/
def Context.bindAll (ctx : Context) (properties : List Property) : Context :=
  properties.foldl (fun ctx p => ctx.set p.name p.value) ctx

section

variable (expand : String → Context → Resolution)

/-- Makes the bindings of an include and expands its target. The bindings are made first, so they
count for the target and stay when the target cannot be found. -/
def Include.resolveBound (inc : Include) (ctx : Context) : Resolution :=
  let ctx := ctx.bindAll inc.properties.values
  match inc.target ctx.bindings.values with
  | .error e => some (.error e, ctx)
  | .ok name => expand name ctx

/-- Resolves an include. If bindings are scoped, a frame around it takes them back, whatever the
answer. -/
def Include.resolveWith (inc : Include) (ctx : Context) : Resolution :=
  if ctx.options.scopedBindings then
    (inc.resolveBound expand ctx.pushFrame).map fun r => (r.1, r.2.popFrame)
  else inc.resolveBound expand ctx

mutual

/-- Resolves a node, with `expand` for the fragments that it includes. -/
def Node.resolveWith : Node → Context → Resolution
  | .text ts, ctx => some (renderTokens ctx.bindings.values ts, ctx)
  | .property _, ctx => some (.ok "", ctx)
  | .include inc, ctx => inc.resolveWith expand ctx
  | .fragment _ _ children, ctx => Node.resolveAllWith children ctx

/-- Resolves nodes one after the other and joins their texts, up to the first error. -/
def Node.resolveAllWith : List Node → Context → Resolution
  | [], ctx => some (.ok "", ctx)
  | node :: nodes, ctx =>
    match Node.resolveWith node ctx with
    | some (.ok first, ctx) =>
      match Node.resolveAllWith nodes ctx with
      | some (.ok more, ctx) => some (.ok (first ++ more), ctx)
      | failed => failed
    | failed => failed

end

/-- Follows the requests of a fragment defined by the application. -/
def Host.resolveWith : Host → Context → Resolution
  | .done answer, ctx => some (answer, ctx)
  | .set name value next, ctx => next.resolveWith (ctx.set name value)
  | .read next, ctx => (next ctx.bindings.values).resolveWith ctx
  | .expand name next, ctx =>
    match expand name ctx with
    | none => none
    | some (answer, ctx) => (next answer).resolveWith ctx
  | .draw meter next, ctx =>
    (next (ctx.drawMeter meter).1).resolveWith (ctx.drawMeter meter).2

/-- Resolves what a name stands for. -/
def Definition.resolveWith : Definition → Context → Resolution
  | .node n, ctx => n.resolveWith expand ctx
  | .host h, ctx => h.resolveWith expand ctx

end

/-- Resolves the fragment of a qualified name, `depth` being how many fragments may be entered
one inside the other. An unknown name is reported before a cycle. -/
def resolveFragmentWithin : Nat → String → Context → Resolution
  | 0, _, _ => none
  | depth + 1, name, ctx =>
    match ctx.registry.get? name with
    | none => some (.error (.fragmentNotFound name), ctx)
    | some definition =>
      if ctx.options.detectCycles && ctx.active.contains name then
        some (.error (.cyclicReference (ctx.active.reverse ++ [name])), ctx)
      else
        (definition.resolveWith (resolveFragmentWithin depth) (ctx.enter name)).map
          fun r => (r.1, r.2.leave)

namespace Context

/-- How deep fragments may nest. With cycle detection each fragment is entered once at most, and
one more step finds the cycle. Without it the depth is limited only by the values that variables
can take, and the bound is beyond what any memory holds. -/
def depthBound (ctx : Context) : Nat :=
  if ctx.options.detectCycles then ctx.registry.size + 1 else ctx.registry.size + Nat.pow 2 64

/-- Resolves the fragment of a qualified name. -/
def resolveFragment (ctx : Context) (name : String) : Resolution :=
  resolveFragmentWithin ctx.depthBound name ctx

/-- Resolves a statement by its id, which belongs to the context's namespace unless it is
qualified. -/
def resolveStatement (ctx : Context) (id : String) : Resolution :=
  ctx.resolveFragment (qualify ctx.space id)

/-- Resolves a definition without noting that its name is being resolved. -/
def resolveDefinition (ctx : Context) (definition : Definition) : Resolution :=
  definition.resolveWith (resolveFragmentWithin ctx.depthBound) ctx

/-- Resolves a node. -/
def resolveNode (ctx : Context) (node : Node) : Resolution :=
  ctx.resolveDefinition (.node node)

end Context

end SqlFragments
