import SqlFragments.Proofs.Frames
import SqlFragments.Resolution

/-! # Resolution ends

With cycle detection every resolution comes to an answer, whatever the fragments include and
whatever the application's own fragments ask for. The depth of a run is bounded by the names that
are registered and not yet being resolved (`Context.unentered`): entering a fragment uses up one
of them.

* `Context.SameSetting`: what a resolution never changes;
* `resolveFragmentWithin_settles`: a bound above `Context.unentered` is not felt;
* `Context.resolveFragment_settles`, `Context.resolveDefinition_settles`: nor is the bound that
  a context computes. -/

namespace SqlFragments

/-! ## The setting of a run -/

namespace Context

/-- The parts of a context that no resolution changes: all but the variables and the meters. -/
structure SameSetting (before after : Context) : Prop where
  space : after.space = before.space
  registry : after.registry = before.registry
  options : after.options = before.options
  active : after.active = before.active

/-- A context has its own setting. -/
theorem SameSetting.refl (ctx : Context) : ctx.SameSetting ctx := ⟨rfl, rfl, rfl, rfl⟩

/-- To be of one setting is mutual. -/
theorem SameSetting.symm {a b : Context} (h : a.SameSetting b) : b.SameSetting a :=
  ⟨h.space.symm, h.registry.symm, h.options.symm, h.active.symm⟩

/-- What keeps the setting twice keeps it. -/
theorem SameSetting.trans {a b c : Context} (h : a.SameSetting b) (h' : b.SameSetting c) :
    a.SameSetting c where
  space := h'.space.trans h.space
  registry := h'.registry.trans h.registry
  options := h'.options.trans h.options
  active := h'.active.trans h.active

/-- Cycle detection belongs to the setting. -/
theorem SameSetting.detectCycles {before after : Context} (h : before.SameSetting after)
    (hdetect : before.options.detectCycles = true) : after.options.detectCycles = true := by
  rw [h.options]
  exact hdetect

/-- The binding of an include's properties touches the variables only. -/
theorem bindAll_eq (ctx : Context) (properties : List Property) :
    ctx.bindAll properties = { ctx with bindings := ctx.bindings.bindAll properties } := by
  induction properties generalizing ctx with
  | nil => rfl
  | cons p properties ih => exact ih (ctx.set p.name p.value)

/-- Binding properties keeps the setting. -/
theorem sameSetting_bindAll (ctx : Context) (properties : List Property) :
    ctx.SameSetting (ctx.bindAll properties) := by
  rw [bindAll_eq]
  exact ⟨rfl, rfl, rfl, rfl⟩

/-- Drawing from a meter keeps the setting. -/
theorem sameSetting_drawMeter (ctx : Context) (meter : Nat) :
    ctx.SameSetting (ctx.drawMeter meter).2 := by
  rw [drawMeter]
  split <;> exact ⟨rfl, rfl, rfl, rfl⟩

/-! ## How deep a run can get -/

/-- How many registered fragments are not being resolved. -/
def unentered (ctx : Context) : Nat := (ctx.registry.keys.filter (· ∉ ctx.active)).length

/-- In one setting as many names are left to enter. -/
theorem SameSetting.unentered_eq {before after : Context} (h : before.SameSetting after) :
    after.unentered = before.unentered := by
  rw [unentered, unentered, h.registry, h.active]

/-- No more names are left to enter than are registered. -/
theorem unentered_le_size (ctx : Context) : ctx.unentered ≤ ctx.registry.size := by
  have h := List.length_filter_le (· ∉ ctx.active) ctx.registry.keys
  rwa [Dict.keys, List.length_map] at h

end Context

/-- Fewer keys of a dictionary are left out of a list once a further key is put on it. -/
theorem Dict.length_filter_notMem_cons_lt {α : Type _} {d : Dict α} {name : String}
    {taken : List String} (hkey : name ∈ d.keys) (hnew : name ∉ taken) :
    (d.keys.filter (· ∉ name :: taken)).length < (d.keys.filter (· ∉ taken)).length := by
  have hsplit : d.keys.filter (· ∉ name :: taken)
      = (d.keys.filter (· ∉ taken)).filter (· ≠ name) := by
    rw [List.filter_filter]
    apply List.filter_congr
    intro key _
    simp [not_or]
  rw [hsplit]
  apply List.length_filter_lt_length_iff_exists.2
  exact ⟨name, List.mem_filter.2 ⟨hkey, by simpa using hnew⟩, by simp⟩

/-- **Entering a fragment uses up a name.** -/
theorem Context.unentered_enter_lt {ctx : Context} {name : String} {definition : Definition}
    (hreg : ctx.registry.get? name = some definition) (hnew : name ∉ ctx.active) :
    (ctx.enter name).unentered < ctx.unentered := by
  refine Dict.length_filter_notMem_cons_lt (Dict.mem_keys_iff.2 ?_) hnew
  exact Option.isSome_iff_exists.2 ⟨definition, hreg⟩

/-! ## Runs that settle -/

/-- A resolution that comes to an answer and leaves the setting as it was. -/
def Context.Settles (ctx : Context) (r : Resolution) : Prop :=
  ∃ answer after, r = some (answer, after) ∧ ctx.SameSetting after

/-- Expansion settles wherever the setting is the given one. -/
def SettlesFrom (setting : Context) (expand : String → Context → Resolution) : Prop :=
  ∀ name ctx, setting.SameSetting ctx → ctx.Settles (expand name ctx)

section

variable {expand : String → Context → Resolution} {setting : Context}

/-- An include settles once its properties are bound, if expansion does. -/
theorem Include.resolveBound_settles (hexpand : SettlesFrom setting expand) (inc : Include)
    {ctx : Context} (hctx : setting.SameSetting ctx) :
    ctx.Settles (inc.resolveBound expand ctx) := by
  have hbound := ctx.sameSetting_bindAll inc.properties.values
  simp only [Include.resolveBound]
  split
  · exact ⟨_, _, rfl, hbound⟩
  · rename_i name _
    obtain ⟨answer, after, heq, hafter⟩ := hexpand name _ (hctx.trans hbound)
    exact ⟨answer, after, heq, hbound.trans hafter⟩

/-- An include settles, if expansion does: closing its frame keeps the setting. -/
theorem Include.resolveWith_settles (hexpand : SettlesFrom setting expand) (inc : Include)
    {ctx : Context} (hctx : setting.SameSetting ctx) :
    ctx.Settles (inc.resolveWith expand ctx) := by
  simp only [Include.resolveWith]
  split
  · have hpush : setting.SameSetting ctx.pushFrame := hctx.trans ⟨rfl, rfl, rfl, rfl⟩
    obtain ⟨answer, after, heq, h⟩ := inc.resolveBound_settles hexpand hpush
    refine ⟨answer, after.popFrame, by rw [heq]; rfl, ?_⟩
    exact ⟨h.space, h.registry, h.options, h.active⟩
  · exact inc.resolveBound_settles hexpand hctx

mutual

/-- A node settles, if expansion does. -/
theorem Node.resolveWith_settles (hexpand : SettlesFrom setting expand) :
    ∀ (node : Node) {ctx : Context}, setting.SameSetting ctx →
      ctx.Settles (node.resolveWith expand ctx)
  | .text _, ctx, _ => ⟨_, ctx, rfl, .refl ctx⟩
  | .property _, ctx, _ => ⟨_, ctx, rfl, .refl ctx⟩
  | .include inc, _, hctx => inc.resolveWith_settles hexpand hctx
  | .fragment _ _ children, _, hctx => Node.resolveAllWith_settles hexpand children hctx

/-- So do nodes one after the other. -/
theorem Node.resolveAllWith_settles (hexpand : SettlesFrom setting expand) :
    ∀ (nodes : List Node) {ctx : Context}, setting.SameSetting ctx →
      ctx.Settles (Node.resolveAllWith expand nodes ctx)
  | [], ctx, _ => ⟨_, ctx, rfl, .refl ctx⟩
  | node :: nodes, ctx, hctx => by
    obtain ⟨first, mid, hfirst, hmid⟩ := Node.resolveWith_settles hexpand node hctx
    rw [Node.resolveAllWith, hfirst]
    cases first with
    | error e => exact ⟨_, mid, rfl, hmid⟩
    | ok text =>
      obtain ⟨more, after, hmore, hafter⟩ :=
        Node.resolveAllWith_settles hexpand nodes (hctx.trans hmid)
      simp only [hmore]
      cases more with
      | error e => exact ⟨_, after, rfl, hmid.trans hafter⟩
      | ok rest => exact ⟨_, after, rfl, hmid.trans hafter⟩

end

/-- A fragment of the application settles, if expansion does, whatever it asks for. -/
theorem Host.resolveWith_settles (hexpand : SettlesFrom setting expand) (host : Host)
    {ctx : Context} (hctx : setting.SameSetting ctx) :
    ctx.Settles (host.resolveWith expand ctx) := by
  induction host generalizing ctx with
  | done answer => exact ⟨_, ctx, rfl, .refl ctx⟩
  | set name value next ih =>
    have hset : ctx.SameSetting (ctx.set name value) := ⟨rfl, rfl, rfl, rfl⟩
    obtain ⟨answer, after, heq, hafter⟩ := ih (hctx.trans hset)
    exact ⟨answer, after, heq, hset.trans hafter⟩
  | read next ih => exact ih ctx.bindings.values hctx
  | expand name next ih =>
    obtain ⟨inner, mid, hinner, hmid⟩ := hexpand name ctx hctx
    obtain ⟨answer, after, heq, hafter⟩ := ih inner (hctx.trans hmid)
    refine ⟨answer, after, ?_, hmid.trans hafter⟩
    rw [Host.resolveWith, hinner]
    exact heq
  | draw meter next ih =>
    have hdraw := ctx.sameSetting_drawMeter meter
    obtain ⟨answer, after, heq, hafter⟩ := ih (ctx.drawMeter meter).1 (hctx.trans hdraw)
    exact ⟨answer, after, heq, hdraw.trans hafter⟩

/-- Whatever is registered settles, if expansion does. -/
theorem Definition.resolveWith_settles (hexpand : SettlesFrom setting expand)
    (definition : Definition) {ctx : Context} (hctx : setting.SameSetting ctx) :
    ctx.Settles (definition.resolveWith expand ctx) := by
  cases definition with
  | node n => exact n.resolveWith_settles hexpand hctx
  | host h => exact h.resolveWith_settles hexpand hctx

end

/-- **A depth above the unentered names is enough.** -/
theorem resolveFragmentWithin_settles {depth : Nat} {name : String} {ctx : Context}
    (hdetect : ctx.options.detectCycles = true) (hdepth : ctx.unentered < depth) :
    ctx.Settles (resolveFragmentWithin depth name ctx) := by
  induction depth generalizing name ctx with
  | zero => exact absurd hdepth (Nat.not_lt_zero _)
  | succ depth ih =>
    simp only [resolveFragmentWithin, hdetect, Bool.true_and]
    split
    · exact ⟨_, ctx, rfl, .refl ctx⟩
    · rename_i definition hreg
      split
      · exact ⟨_, ctx, rfl, .refl ctx⟩
      · rename_i hnew
        -- inside the fragment one name fewer is left to enter
        have hlt : (ctx.enter name).unentered < depth := by
          have := ctx.unentered_enter_lt hreg (by simpa using hnew)
          omega
        have hexpand : SettlesFrom (ctx.enter name) (resolveFragmentWithin depth) := by
          intro next inner hinner
          apply ih
          · exact hinner.detectCycles hdetect
          · rw [hinner.unentered_eq]
            exact hlt
        obtain ⟨answer, after, heq, h⟩ := definition.resolveWith_settles hexpand (.refl _)
        refine ⟨answer, after.leave, by rw [heq]; rfl, ?_⟩
        exact ⟨h.space, h.registry, h.options, congrArg List.tail h.active⟩

namespace Context

/-- With cycle detection the depth that a context allows is enough for its names. -/
theorem unentered_lt_depthBound {ctx : Context} (hdetect : ctx.options.detectCycles = true) :
    ctx.unentered < ctx.depthBound := by
  rw [depthBound, if_pos hdetect]
  exact Nat.lt_succ_of_le ctx.unentered_le_size

/-- **Resolution ends.** With cycle detection a fragment always resolves to an answer. -/
theorem resolveFragment_settles {ctx : Context} (hdetect : ctx.options.detectCycles = true)
    (name : String) : ctx.Settles (ctx.resolveFragment name) :=
  resolveFragmentWithin_settles hdetect (unentered_lt_depthBound hdetect)

/-- With cycle detection a definition that is resolved on its own comes to an answer, too. -/
theorem resolveDefinition_settles {ctx : Context} (hdetect : ctx.options.detectCycles = true)
    (definition : Definition) : ctx.Settles (ctx.resolveDefinition definition) := by
  refine definition.resolveWith_settles (fun name inner hinner => ?_) (.refl ctx)
  apply resolveFragmentWithin_settles
  · rw [hinner.options]
    exact hdetect
  · rw [hinner.unentered_eq]
    exact unentered_lt_depthBound hdetect

end Context

end SqlFragments
