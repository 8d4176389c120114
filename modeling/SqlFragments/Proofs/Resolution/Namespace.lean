import SqlFragments.Proofs.Resolution.Depth

/-! # Resolution does not read the namespace of its context

An include has the namespace with it in which it was declared, so the namespace of the context plays
a part only where a statement is looked up by a bare id. In another namespace every fragment is
resolved in the same way.

* `Context.inSpace`: a context in another namespace;
* `Node.resolveWith_inSpace`, `Host.resolveWith_inSpace`: one node or one fragment of the
  application, where what it expands is resolved in the same way;
* `resolveFragmentWithin_inSpace`: so are fragments, however deep they nest. -/

namespace SqlFragments

namespace Context

/-- The context in another namespace. -/
def inSpace (ctx : Context) (space : String) : Context := { ctx with space := space }

variable (ctx : Context) (space : String)

@[simp] theorem bindings_inSpace : (ctx.inSpace space).bindings = ctx.bindings := rfl

@[simp] theorem registry_inSpace : (ctx.inSpace space).registry = ctx.registry := rfl

@[simp] theorem options_inSpace : (ctx.inSpace space).options = ctx.options := rfl

@[simp] theorem active_inSpace : (ctx.inSpace space).active = ctx.active := rfl

/-- Opening a frame takes no notice of the namespace. -/
theorem pushFrame_inSpace : (ctx.inSpace space).pushFrame = ctx.pushFrame.inSpace space := rfl

/-- Nor does entering a fragment. -/
theorem enter_inSpace (name : String) :
    (ctx.inSpace space).enter name = (ctx.enter name).inSpace space := rfl

/-- Nor does binding properties. -/
theorem bindAll_inSpace (properties : List Property) :
    (ctx.inSpace space).bindAll properties = (ctx.bindAll properties).inSpace space := by
  rw [bindAll_eq, bindAll_eq ctx]
  rfl

/-- Nor does drawing from a meter. -/
theorem drawMeter_inSpace (meter : Nat) : (ctx.inSpace space).drawMeter meter
    = ((ctx.drawMeter meter).1, (ctx.drawMeter meter).2.inSpace space) := by
  have hmeters : (ctx.inSpace space).meters = ctx.meters := rfl
  rw [drawMeter, drawMeter, hmeters]
  split <;> rfl

end Context

/-- What a resolution comes to, with the context in another namespace. -/
def Resolution.inSpace (r : Resolution) (space : String) : Resolution :=
  r.map fun r => (r.1, r.2.inSpace space)

@[simp] theorem Resolution.inSpace_some (answer : Except NodeError String) (ctx : Context)
    (space : String) :
    Resolution.inSpace (some (answer, ctx)) space = some (answer, ctx.inSpace space) := rfl

/-- Expanding fragments in this way takes no notice of the namespace. -/
def SpaceBlind (expand : String → Context → Resolution) : Prop :=
  ∀ name space ctx, expand name (ctx.inSpace space) = (expand name ctx).inSpace space

section

variable {expand : String → Context → Resolution}

/-- With its properties bound, an include is resolved in the same way in every namespace. -/
theorem Include.resolveBound_inSpace (hexpand : SpaceBlind expand) (inc : Include) (space : String)
    (ctx : Context) :
    inc.resolveBound expand (ctx.inSpace space) = (inc.resolveBound expand ctx).inSpace space := by
  rw [resolveBound, resolveBound, Context.bindAll_inSpace]
  simp only [Context.bindings_inSpace]
  cases inc.target (ctx.bindAll inc.properties.values).bindings.values with
  | error e => rfl
  | ok name => exact hexpand name space _

/-- An include is resolved in the same way in every namespace, for it brings its own with it. -/
theorem Include.resolveWith_inSpace (hexpand : SpaceBlind expand) (inc : Include) (space : String)
    (ctx : Context) :
    inc.resolveWith expand (ctx.inSpace space) = (inc.resolveWith expand ctx).inSpace space := by
  rw [resolveWith, resolveWith, Context.options_inSpace, Context.pushFrame_inSpace,
    inc.resolveBound_inSpace hexpand, inc.resolveBound_inSpace hexpand]
  split
  · rcases inc.resolveBound expand ctx.pushFrame with _ | ⟨answer, after⟩ <;> rfl
  · rfl

mutual

/-- A node is resolved in the same way in every namespace, if what it expands is. -/
theorem Node.resolveWith_inSpace (hexpand : SpaceBlind expand) (space : String) :
    ∀ (node : Node) (ctx : Context),
      node.resolveWith expand (ctx.inSpace space) = (node.resolveWith expand ctx).inSpace space
  | .text _, _ => rfl
  | .property _, _ => rfl
  | .include inc, ctx => inc.resolveWith_inSpace hexpand space ctx
  | .fragment _ _ children, ctx => Node.resolveAllWith_inSpace hexpand space children ctx

/-- So are nodes one after the other. -/
theorem Node.resolveAllWith_inSpace (hexpand : SpaceBlind expand) (space : String) :
    ∀ (nodes : List Node) (ctx : Context), Node.resolveAllWith expand nodes (ctx.inSpace space)
      = (Node.resolveAllWith expand nodes ctx).inSpace space
  | [], _ => rfl
  | node :: nodes, ctx => by
    rw [Node.resolveAllWith, Node.resolveAllWith, node.resolveWith_inSpace hexpand space ctx]
    match node.resolveWith expand ctx with
    | none => rfl
    | some (.error e, mid) => rfl
    | some (.ok first, mid) =>
      simp only [Resolution.inSpace_some, Node.resolveAllWith_inSpace hexpand space nodes mid]
      match Node.resolveAllWith expand nodes mid with
      | none => rfl
      | some (.error e, after) => rfl
      | some (.ok more, after) => rfl

end

/-- A fragment of the application is resolved in the same way in every namespace, if what it expands
is. -/
theorem Host.resolveWith_inSpace (hexpand : SpaceBlind expand) (host : Host) (space : String)
    (ctx : Context) :
    host.resolveWith expand (ctx.inSpace space) = (host.resolveWith expand ctx).inSpace space := by
  induction host generalizing ctx with
  | done answer => rfl
  | set name value next ih => exact ih (ctx.set name value)
  | read next ih => exact ih ctx.bindings.values ctx
  | expand name next ih =>
    rw [resolveWith, resolveWith, hexpand name space ctx]
    rcases expand name ctx with _ | ⟨answer, mid⟩
    · rfl
    · exact ih answer mid
  | draw meter next ih =>
    rw [resolveWith, resolveWith, Context.drawMeter_inSpace]
    exact ih _ _

/-- Whatever is registered is resolved in the same way in every namespace, if what it expands is. -/
theorem Definition.resolveWith_inSpace (hexpand : SpaceBlind expand) (definition : Definition)
    (space : String) (ctx : Context) : definition.resolveWith expand (ctx.inSpace space)
      = (definition.resolveWith expand ctx).inSpace space := by
  cases definition with
  | node n => exact n.resolveWith_inSpace hexpand space ctx
  | host h => exact h.resolveWith_inSpace hexpand space ctx

end

/-- **Fragments are resolved in the same way in every namespace.** -/
theorem resolveFragmentWithin_inSpace (depth : Nat) : SpaceBlind (resolveFragmentWithin depth) := by
  induction depth with
  | zero => exact fun _ _ _ => rfl
  | succ depth ih =>
    intro name space ctx
    simp only [resolveFragmentWithin, Context.registry_inSpace, Context.options_inSpace,
      Context.active_inSpace, Context.enter_inSpace]
    cases ctx.registry.get? name with
    | none => rfl
    | some definition =>
      simp only [definition.resolveWith_inSpace ih]
      split
      · rfl
      · rcases definition.resolveWith (resolveFragmentWithin depth) (ctx.enter name) with
          _ | ⟨answer, after⟩ <;> rfl

/-- Nor does the depth that a context allows depend on its namespace. -/
theorem Context.resolveFragment_inSpace (ctx : Context) (name space : String) :
    (ctx.inSpace space).resolveFragment name = (ctx.resolveFragment name).inSpace space :=
  resolveFragmentWithin_inSpace ctx.depthBound name space ctx

end SqlFragments
