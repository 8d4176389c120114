import SqlFragments.Proofs.Resolution.Keeping

/-! # A scoped include leaves no trace

With scoped bindings an include opens a frame and closes it at its end, whatever the answer. What is
set meanwhile, by the include itself, by includes and by fragments of the application further in, is
noted in that frame and goes with it, and no frame around it is touched.

* `Context.Confined`: nothing has been written but to the innermost frame;
* `Context.Confined.popFrame`: what is confined to a frame is gone once the frame is closed;
* `Context.confined_enduring`: everything that a resolution does is confined in this way;
* `Context.Confined.behind_eq`: behind an include everything is as it was;
* `Include.resolveWith_traceless`: so the context behind an include is the one before it. -/

namespace SqlFragments

namespace Context

/-- Nothing but the innermost frame has been written to: the setting is the same, and a frame that
was open is still there and can be closed with the same result. -/
structure Confined (before after : Context) : Prop extends before.SameSetting after where
  frames_ne_nil : before.bindings.frames ≠ [] → after.bindings.frames ≠ []
  popFrame_eq : before.bindings.frames ≠ [] → after.bindings.popFrame = before.bindings.popFrame

variable {a b c ctx mid : Context}

/-- Where nothing is done nothing but the innermost frame has been written to. -/
theorem Confined.refl (ctx : Context) : ctx.Confined ctx := ⟨.refl ctx, id, fun _ => rfl⟩

/-- What is confined twice is confined. -/
theorem Confined.trans (h : a.Confined b) (h' : b.Confined c) : a.Confined c where
  toSameSetting := h.toSameSetting.trans h'.toSameSetting
  frames_ne_nil hopen := h'.frames_ne_nil (h.frames_ne_nil hopen)
  popFrame_eq hopen := (h'.popFrame_eq (h.frames_ne_nil hopen)).trans (h.popFrame_eq hopen)

/-- Setting a variable is confined: the innermost frame notes what it had. -/
theorem confined_set (ctx : Context) (name value : String) : ctx.Confined (ctx.set name value) where
  toSameSetting := ⟨rfl, rfl, rfl, rfl⟩
  frames_ne_nil hopen := Bindings.frames_set_ne_nil hopen name value
  popFrame_eq hopen := Bindings.popFrame_set hopen name value

/-- Drawing from a meter does not touch the variables. -/
theorem bindings_drawMeter (ctx : Context) (meter : Nat) :
    (ctx.drawMeter meter).2.bindings = ctx.bindings := by
  rw [drawMeter]
  split <;> rfl

/-- So it is confined. -/
theorem confined_drawMeter (ctx : Context) (meter : Nat) :
    ctx.Confined (ctx.drawMeter meter).2 where
  toSameSetting := ctx.sameSetting_drawMeter meter
  frames_ne_nil hopen := by rwa [bindings_drawMeter]
  popFrame_eq _ := by rw [bindings_drawMeter]

/-- **What is confined to a frame is gone with it**: all bindings are as they were when the frame
was opened, and so are the frames around it. -/
theorem Confined.popFrame (h : ctx.pushFrame.Confined mid) : mid.popFrame.bindings = ctx.bindings :=
  h.popFrame_eq (List.cons_ne_nil _ _)

/-- Whatever a resolution does is confined to the innermost frame. -/
theorem confined_enduring : Enduring Confined where
  refl := Confined.refl
  trans h h' := h.trans h'
  set := confined_set
  drawMeter := confined_drawMeter
  -- the frame that was opened is closed, and what was noted in it is as before
  popFrame {ctx mid} h := by
    have hbindings : mid.popFrame.bindings = ctx.bindings := h.popFrame
    refine ⟨⟨h.space, h.registry, h.options, h.active⟩, fun hopen => ?_, fun _ => ?_⟩
    · rwa [hbindings]
    · rw [hbindings]
  leave h := ⟨⟨h.space, h.registry, h.options, congrArg List.tail h.active⟩, h.frames_ne_nil,
    h.popFrame_eq⟩

/-- **Behind an include everything is as it was** if, from the inside of it to its end, writes were
confined to its frame. -/
theorem Confined.behind_eq {inc : Include} (hscoped : ctx.options.scopedBindings = true)
    (h : (inc.inside ctx).Confined mid) :
    ctx.behind mid = { ctx with meters := (ctx.behind mid).meters } := by
  have hinside : inc.inside ctx = ctx.pushFrame.bindAll inc.properties.values := by
    rw [Include.inside, if_pos hscoped]
  have hconfined : ctx.pushFrame.Confined mid := by
    rw [hinside] at h
    -- the include's own bindings are noted in the frame as well
    exact (confined_enduring.bindAll ctx.pushFrame _).trans h
  have hbehind : ctx.behind mid = mid.popFrame := by rw [behind, if_pos hscoped]
  have hbindings := hconfined.popFrame
  rw [hbehind]
  obtain ⟨space, bindings, registry, options, active, meters⟩ := mid
  obtain ⟨rfl, rfl, rfl, rfl⟩ := hconfined.toSameSetting
  simp only [Context.popFrame] at hbindings ⊢
  rw [hbindings]
  rfl

end Context

/-- **A scoped include leaves no trace.** Take any context with scoped bindings, whatever variables
it has, whatever frames are open and whatever names are being resolved in it, and whatever nodes and
fragments of the application are registered. Behind an include that comes to an answer, be it a text
or an error, the context is the one before it, up to the meters, which belong to the application.
With cycle detection the include does come to an answer. -/
theorem Include.resolveWith_traceless {ctx : Context} (hscoped : ctx.options.scopedBindings = true)
    (inc : Include) :
    (∀ depth answer after,
      inc.resolveWith (resolveFragmentWithin depth) ctx = some (answer, after) →
        after = { ctx with meters := after.meters }) ∧
    (ctx.options.detectCycles = true → ∃ answer after,
      ctx.resolveNode (.include inc) = some (answer, after) ∧
        after = { ctx with meters := after.meters }) := by
  have htraceless : ∀ depth answer after,
      inc.resolveWith (resolveFragmentWithin depth) ctx = some (answer, after) →
        after = { ctx with meters := after.meters } := by
    intro depth answer after h
    rcases resolveWith_cases h with ⟨e, -, -, rfl⟩ | ⟨name, last, -, hlast, rfl⟩
    · exact (Context.Confined.refl (inc.inside ctx)).behind_eq hscoped
    · have hconfined := resolveFragmentWithin_respects Context.confined_enduring depth hlast
      exact hconfined.behind_eq hscoped
  refine ⟨htraceless, fun hdetect => ?_⟩
  obtain ⟨answer, after, heq, -⟩ := ctx.resolveDefinition_settles hdetect (.node (.include inc))
  exact ⟨answer, after, heq, htraceless _ _ _ heq⟩

/-- A context in which a fragment is being resolved and two frames are open. A fragment of the
application sets a variable and then fails, because it has a fragment expanded that is missing. -/
def Context.failingHost : Context where
  space := "m"
  bindings := ⟨Dict.empty.insert "t" "0", [[("u", none)], []]⟩
  registry := Dict.ofList [
    ("m.inner", .host (.set "t" "9" (.set "v" "8" (.expand "m.none" .done)))),
    ("m.mid", .node (.fragment "sql" "mid"
      [.include ⟨"m", some (.literal "inner"), Dict.empty.insert "u" ⟨"u", "2"⟩⟩]))]
  options := ⟨true, true⟩
  active := ["m.outer"]
  meters := []

/-- What a fragment of the application sets before it fails is gone, too. -/
theorem Include.resolveWith_traceless_failingHost :
    Context.failingHost.options.scopedBindings = true ∧
    Context.failingHost.options.detectCycles = true ∧
    (Context.failingHost.resolveNode
        (.include ⟨"m", some (.literal "mid"), Dict.empty.insert "t" ⟨"t", "1"⟩⟩)).map Prod.fst
      = some (.error (.fragmentNotFound "m.none")) ∧
    ∃ answer after, Context.failingHost.resolveNode
        (.include ⟨"m", some (.literal "mid"), Dict.empty.insert "t" ⟨"t", "1"⟩⟩)
      = some (answer, after) ∧ after = { Context.failingHost with meters := after.meters } :=
  ⟨rfl, rfl, by decide +kernel, (Include.resolveWith_traceless rfl _).2 rfl⟩

end SqlFragments
