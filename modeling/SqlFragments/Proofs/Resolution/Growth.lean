import SqlFragments.Proofs.Resolution.Following

/-! # Growing contexts

A context may be given more variables and more fragments. What has been resolved to a text comes to
the same text then: no variable that was read has another value, and no fragment that was entered is
another one. Errors need not stay, since what was missing may be there now.

* `Context.Within`: a context that has everything which another has;
* `Likeness.growing`: texts are shared, and variables keep the values that they have;
* `Context.within_set`, `Context.within_register`: variables and fragments of new names;
* `Context.resolveStatement_of_within`: a statement that is resolved stays resolved. -/

namespace SqlFragments

/-- Everything in the first context is there in the second, under the same names. The second may
hold more variables and more fragments, the application's own among them. -/
structure Context.Within (ctx more : Context) : Prop where
  options : more.options = ctx.options
  active : more.active = ctx.active
  values : ctx.bindings.values.Within more.bindings.values
  registry : ctx.registry.Within more.registry

/-- The second run has every value that the first one has, and shares its texts. -/
def Likeness.growing : Likeness where
  Alike v v' := v.Within v'
  Shared _ := False
  alike_insert name value h := h.insert name value
  get?_of_some h hget := h _ _ hget
  get?_of_none _ hshared := hshared.elim

namespace Context

/-- What is within a context is within every context that this one is within. -/
theorem Within.trans {a b c : Context} (h : a.Within b) (h' : b.Within c) : a.Within c where
  options := h'.options.trans h.options
  active := h'.active.trans h.active
  values := Dict.Within.trans h.values h'.values
  registry := Dict.Within.trans h.registry h'.registry

/-- A variable of a new name is added. -/
theorem within_set {ctx : Context} {name : String} (value : String) (hnew : ctx.get? name = none) :
    ctx.Within (ctx.set name value) :=
  ⟨rfl, rfl, Dict.within_insert value hnew, .refl _⟩

/-- A fragment of a new name is added, be it a node or one of the application. -/
theorem within_register {ctx : Context} {name : String} (definition : Definition)
    (hnew : ctx.registry.get? name = none) : ctx.Within (ctx.register name definition) :=
  ⟨rfl, rfl, .refl _, Dict.within_insert definition hnew⟩

end Context

namespace Context.Within

variable {ctx more after after' : Context} {library : Dict Node}

/-- The larger context refuses nothing that the smaller one lets through. -/
theorem laxer (h : ctx.Within more) : ctx.Laxer more where
  scopedBindings := by rw [h.options]
  detectCycles hdetect := by rwa [← h.options]
  active _ name hname := by rwa [← h.active]

/-- Every fragment of the smaller context is the same one in the larger context. -/
theorem coveredBy (h : ctx.Within more) (hold : ctx.Holds library) :
    Likeness.growing.CoveredBy library more.registry where
  get?_of_some {name body} hlib := by
    refine ⟨body, h.registry name _ ?_, .refl library body⟩
    rw [hold name, hlib, Option.map_some]
  get?_of_none _ hshared := hshared.elim

/-- A larger context has as much depth to spend. -/
theorem depthBound_le (h : ctx.Within more) : ctx.depthBound ≤ more.depthBound := by
  have hsize := h.registry.size_le
  rw [depthBound, depthBound, h.options]
  split <;> omega

/-- Contexts that differ from one within the other only in their variables stay so related, if the
variables do. -/
theorem of_sameSetting (h : ctx.Within more) (hafter : ctx.SameSetting after)
    (hafter' : more.SameSetting after')
    (hvalues : after.bindings.values.Within after'.bindings.values) : after.Within after' where
  options := by rw [hafter'.options, hafter.options, h.options]
  active := by rw [hafter'.active, hafter.active, h.active]
  values := hvalues
  registry := by
    rw [hafter'.registry, hafter.registry]
    exact h.registry

end Context.Within

namespace Context

variable {ctx more after : Context} {library : Dict Node} {text : String}

/-- In a context with more variables and more fragments a fragment comes to the same text, and the
one context has everything again that the other has. -/
theorem resolveFragment_of_within {name : String} (hold : ctx.Holds library)
    (hwithin : ctx.Within more) (h : ctx.resolveFragment name = some (.ok text, after)) :
    ∃ after', more.resolveFragment name = some (.ok text, after') ∧ after.Within after' := by
  -- no error is shared, so the larger context need not run into a cycle or miss a fragment, too
  have hfollows := Likeness.follows_resolveFragmentWithin (fun _ hshared => hshared)
    hwithin.depthBound_le hold (hwithin.coveredBy hold) hwithin.laxer
  obtain ⟨after', hafter', hvalues⟩ :=
    hfollows.1 name (.refl ctx) (.refl more) hwithin.values h (by rintro e ⟨⟩)
  have hkeeps := resolveFragmentWithin_keeps ctx.depthBound h
  have hkeeps' := resolveFragmentWithin_keeps more.depthBound hafter'
  exact ⟨after', hafter', hwithin.of_sameSetting hkeeps.toSameSetting hkeeps'.toSameSetting hvalues⟩

/-- **What is resolved stays resolved.** So does a statement that has the same qualified name in
both contexts. -/
theorem resolveStatement_of_within {id : String} (hold : ctx.Holds library)
    (hwithin : ctx.Within more) (hname : qualify more.space id = qualify ctx.space id)
    (h : ctx.resolveStatement id = some (.ok text, after)) :
    ∃ after', more.resolveStatement id = some (.ok text, after') ∧ after.Within after' := by
  rw [resolveStatement, hname]
  exact resolveFragment_of_within hold hwithin h

end Context

end SqlFragments
