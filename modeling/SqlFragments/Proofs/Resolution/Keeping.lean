import SqlFragments.Proofs.Resolution.Snapshot

/-! # What a resolution keeps

However a resolution ends, it leaves the setting of the context as it was, it unbinds no variable,
and closing the frames that were open before leads to the same variables as before
(`Context.Keeps`). This is so for every depth and with or without cycle detection.

* `Node.resolveAllWith_cons_cases`, `resolveFragmentWithin_succ_cases`: all that can happen in a
  resolution that comes to an answer;
* `Include.resolveWith_cases`: an include as one look-up, in the context inside of it
  (`Include.inside`);
* `Context.Enduring`: a relation that no step breaks, and that holds behind a frame or a fragment if
  it holds up to its end;
* `resolveFragmentWithin_respects`: every resolution respects what endures;
* `resolveFragmentWithin_keeps`: so every resolution keeps the context. -/

namespace SqlFragments

/-! ## What can happen -/

section

variable {expand : String → Context → Resolution} {answer : Except NodeError String}
  {ctx after : Context}

/-- Nodes one after the other: the first fails, or one of the others does, or none. -/
theorem Node.resolveAllWith_cons_cases {node : Node} {nodes : List Node}
    (h : Node.resolveAllWith expand (node :: nodes) ctx = some (answer, after)) :
    (∃ e, node.resolveWith expand ctx = some (.error e, after) ∧ answer = .error e) ∨
    ∃ first mid, node.resolveWith expand ctx = some (.ok first, mid) ∧
      ((∃ e, Node.resolveAllWith expand nodes mid = some (.error e, after) ∧ answer = .error e) ∨
      ∃ more, Node.resolveAllWith expand nodes mid = some (.ok more, after) ∧
        answer = .ok (first ++ more)) := by
  rw [Node.resolveAllWith] at h
  -- one case for each result of the first node, and behind a text one for each result of the others
  match hfirst : node.resolveWith expand ctx with
  | none => simp [hfirst] at h
  | some (.error e, mid) =>
    simp only [hfirst, Option.some.injEq, Prod.mk.injEq] at h
    exact .inl ⟨e, by rw [h.2], h.1.symm⟩
  | some (.ok first, mid) =>
    refine .inr ⟨first, mid, rfl, ?_⟩
    match hmore : Node.resolveAllWith expand nodes mid with
    | none => simp [hfirst, hmore] at h
    | some (.error e, last) =>
      simp only [hfirst, hmore, Option.some.injEq, Prod.mk.injEq] at h
      exact .inl ⟨e, by rw [h.2], h.1.symm⟩
    | some (.ok more, last) =>
      simp only [hfirst, hmore, Option.some.injEq, Prod.mk.injEq] at h
      exact .inr ⟨more, by rw [h.2], h.1.symm⟩

/-- A fragment: its name is unknown, or it is being resolved, or it is entered and left. -/
theorem resolveFragmentWithin_succ_cases {depth : Nat} {name : String}
    (h : resolveFragmentWithin (depth + 1) name ctx = some (answer, after)) :
    (ctx.registry.get? name = none ∧ answer = .error (.fragmentNotFound name) ∧ after = ctx) ∨
    ∃ definition, ctx.registry.get? name = some definition ∧
      ((ctx.options.detectCycles = true ∧ name ∈ ctx.active ∧
        answer = .error (.cyclicReference (ctx.active.reverse ++ [name])) ∧ after = ctx) ∨
      ∃ last, (ctx.options.detectCycles = true → name ∉ ctx.active) ∧
        definition.resolveWith (resolveFragmentWithin depth) (ctx.enter name)
          = some (answer, last) ∧ after = last.leave) := by
  rw [resolveFragmentWithin] at h
  split at h
  -- the name is not registered
  · rename_i hreg
    obtain ⟨rfl, rfl⟩ := Prod.mk.inj (Option.some.inj h)
    exact .inl ⟨hreg, rfl, rfl⟩
  · rename_i definition hreg
    refine .inr ⟨definition, hreg, ?_⟩
    split at h
    -- the name is being resolved, and the run is stopped
    · rename_i hactive
      rw [Bool.and_eq_true, List.contains_iff_mem] at hactive
      obtain ⟨rfl, rfl⟩ := Prod.mk.inj (Option.some.inj h)
      exact .inl ⟨hactive.1, hactive.2, rfl, rfl⟩
    · rename_i hactive
      rw [Bool.and_eq_true, List.contains_iff_mem, not_and] at hactive
      -- the name is entered, and left behind its definition
      obtain ⟨⟨inner, last⟩, hlast, heq⟩ := Option.map_eq_some_iff.1 h
      obtain ⟨rfl, rfl⟩ := Prod.mk.inj heq
      exact .inr ⟨last, hactive, hlast, rfl⟩

end

/-! ## An include as one look-up -/

/-- The context in which the target of an include is looked up. -/
def Include.inside (inc : Include) (ctx : Context) : Context :=
  (if ctx.options.scopedBindings then ctx.pushFrame else ctx).bindAll inc.properties.values

/-- The context behind an include, given the one at its end. -/
def Context.behind (ctx after : Context) : Context :=
  if ctx.options.scopedBindings then after.popFrame else after

/-- An include whose reference cannot be read fails for this reason. -/
theorem Include.resolveWith_of_target_eq_error {expand : String → Context → Resolution}
    {inc : Include} {ctx : Context} {e : NodeError}
    (h : inc.target (inc.inside ctx).bindings.values = .error e) :
    inc.resolveWith expand ctx = some (.error e, ctx.behind (inc.inside ctx)) := by
  rw [resolveWith, Context.behind]
  rw [inside] at h ⊢
  split <;> rename_i hscoped
  · rw [if_pos hscoped] at h
    rw [resolveBound, h]
    rfl
  · rw [if_neg hscoped] at h
    rw [resolveBound, h]

/-- An include that points at a name answers what the fragment of this name does. -/
theorem Include.resolveWith_of_target_eq_ok {expand : String → Context → Resolution}
    {inc : Include} {ctx : Context} {name : String}
    (h : inc.target (inc.inside ctx).bindings.values = .ok name) :
    inc.resolveWith expand ctx
      = (expand name (inc.inside ctx)).map fun r => (r.1, ctx.behind r.2) := by
  rw [resolveWith]
  simp only [Context.behind]
  rw [inside] at h ⊢
  split <;> rename_i hscoped
  · rw [if_pos hscoped] at h
    rw [resolveBound, h]
  · rw [if_neg hscoped] at h
    rw [resolveBound, h, Option.map_id']

/-- An include: it has no target, or its answer is that of its target. -/
theorem Include.resolveWith_cases {expand : String → Context → Resolution} {inc : Include}
    {ctx after : Context} {answer : Except NodeError String}
    (h : inc.resolveWith expand ctx = some (answer, after)) :
    (∃ e, inc.target (inc.inside ctx).bindings.values = .error e ∧ answer = .error e ∧
      after = ctx.behind (inc.inside ctx)) ∨
    ∃ name last, inc.target (inc.inside ctx).bindings.values = .ok name ∧
      expand name (inc.inside ctx) = some (answer, last) ∧ after = ctx.behind last := by
  cases htarget : inc.target (inc.inside ctx).bindings.values with
  | error e =>
    rw [resolveWith_of_target_eq_error htarget] at h
    obtain ⟨rfl, rfl⟩ := Prod.mk.inj (Option.some.inj h)
    exact .inl ⟨e, rfl, rfl, rfl⟩
  | ok name =>
    rw [resolveWith_of_target_eq_ok htarget] at h
    obtain ⟨⟨inner, last⟩, hlast, heq⟩ := Option.map_eq_some_iff.1 h
    obtain ⟨rfl, rfl⟩ := Prod.mk.inj heq
    exact .inr ⟨name, last, rfl, hlast, rfl⟩

/-- Inside of an include the setting is the same. -/
theorem Include.sameSetting_inside (inc : Include) (ctx : Context) :
    ctx.SameSetting (inc.inside ctx) := by
  have hpush : ctx.SameSetting ctx.pushFrame := ⟨rfl, rfl, rfl, rfl⟩
  rw [inside]
  split
  · exact hpush.trans (ctx.pushFrame.sameSetting_bindAll _)
  · exact ctx.sameSetting_bindAll _

/-! ## What is kept -/

namespace Context

/-- A context after a part of a resolution, compared with the context before it. -/
structure Keeps (before after : Context) : Prop extends before.SameSetting after where
  /-- A variable that had a value has one. -/
  bound : ∀ name, (before.get? name).isSome → (after.get? name).isSome
  /-- The open frames stand for the same copies. -/
  saved : after.snapshot.saved = before.snapshot.saved

variable {a b c ctx mid : Context}

/-- A context keeps itself. -/
theorem Keeps.refl (ctx : Context) : ctx.Keeps ctx := ⟨.refl ctx, fun _ h => h, rfl⟩

/-- What is kept twice is kept. -/
theorem Keeps.trans (h : a.Keeps b) (h' : b.Keeps c) : a.Keeps c where
  toSameSetting := h.toSameSetting.trans h'.toSameSetting
  bound name hname := h'.bound name (h.bound name hname)
  saved := h'.saved.trans h.saved

/-- Setting a variable keeps the context. -/
theorem keeps_set (ctx : Context) (name value : String) : ctx.Keeps (ctx.set name value) where
  toSameSetting := ⟨rfl, rfl, rfl, rfl⟩
  bound other hother := by
    have hget : (ctx.set name value).get? other
        = if name = other then some value else ctx.get? other :=
      ctx.bindings.get?_set name other value
    rw [hget]
    split
    · rfl
    · exact hother
  saved := by
    rw [snapshot_set]
    rfl

/-- Drawing from a meter keeps the context. -/
theorem keeps_drawMeter (ctx : Context) (meter : Nat) : ctx.Keeps (ctx.drawMeter meter).2 := by
  rw [drawMeter]
  split <;> exact ⟨⟨rfl, rfl, rfl, rfl⟩, fun _ h => h, rfl⟩

/-- What is kept inside a frame is kept once the frame is closed: its copy is put back. -/
theorem Keeps.popFrame (h : ctx.pushFrame.Keeps mid) : ctx.Keeps mid.popFrame := by
  have hsaved : mid.snapshot.saved = ctx.snapshot.values :: ctx.snapshot.saved := h.saved
  have hpop := snapshot_popFrame mid
  rw [SnapshotContext.popFrame, hsaved] at hpop
  have hvalues : mid.popFrame.bindings.values = ctx.bindings.values :=
    congrArg SnapshotContext.values hpop
  refine ⟨⟨h.space, h.registry, h.options, h.active⟩, fun name hname => ?_, ?_⟩
  · rw [get?, Bindings.get?, hvalues]
    exact hname
  · rw [hpop]

/-- What is kept inside a fragment is kept once it is left. -/
theorem Keeps.leave {name : String} (h : (ctx.enter name).Keeps mid) : ctx.Keeps mid.leave where
  toSameSetting := ⟨h.space, h.registry, h.options, congrArg List.tail h.active⟩
  bound := h.bound
  saved := h.saved

end Context

/-! ## What endures -/

/-- A relation between a context and a later one that endures: no step of a resolution breaks it,
and if it holds up to the end of a frame or of a fragment then it holds behind it. -/
structure Context.Enduring (R : Context → Context → Prop) : Prop where
  refl : ∀ ctx, R ctx ctx
  trans : ∀ {a b c}, R a b → R b c → R a c
  set : ∀ ctx name value, R ctx (ctx.set name value)
  drawMeter : ∀ ctx meter, R ctx (ctx.drawMeter meter).2
  popFrame : ∀ {ctx mid}, R ctx.pushFrame mid → R ctx mid.popFrame
  leave : ∀ {ctx mid name}, R (Context.enter ctx name) mid → R ctx mid.leave

/-- Expanding fragments in this way respects a relation. -/
def Respects (R : Context → Context → Prop) (expand : String → Context → Resolution) : Prop :=
  ∀ {name ctx answer after}, expand name ctx = some (answer, after) → R ctx after

/-- Expanding fragments in this way keeps every context. -/
def KeepsContexts (expand : String → Context → Resolution) : Prop :=
  ∀ {name ctx answer after}, expand name ctx = some (answer, after) → ctx.Keeps after

/-- To keep a context endures. -/
theorem Context.keeps_enduring : Context.Enduring Context.Keeps where
  refl := Keeps.refl
  trans h h' := h.trans h'
  set := keeps_set
  drawMeter := keeps_drawMeter
  popFrame h := h.popFrame
  leave h := h.leave

namespace Context.Enduring

variable {R : Context → Context → Prop} (hR : Enduring R)
include hR

/-- Binding properties does not break what endures. -/
theorem bindAll (ctx : Context) (properties : List Property) : R ctx (ctx.bindAll properties) := by
  induction properties generalizing ctx with
  | nil => exact hR.refl ctx
  | cons p properties ih => exact hR.trans (hR.set ctx p.name p.value) (ih _)

/-- What holds from inside of an include to its end holds behind it. -/
theorem behind {inc : Include} {ctx after : Context} (h : R (inc.inside ctx) after) :
    R ctx (ctx.behind after) := by
  rw [Context.behind]
  rw [Include.inside] at h
  split <;> rename_i hscoped
  · rw [if_pos hscoped] at h
    exact hR.popFrame (hR.trans (hR.bindAll ctx.pushFrame _) h)
  · rw [if_neg hscoped] at h
    exact hR.trans (hR.bindAll ctx _) h

end Context.Enduring

/-- Binding properties keeps the context. -/
theorem Context.keeps_bindAll (ctx : Context) (properties : List Property) :
    ctx.Keeps (ctx.bindAll properties) := keeps_enduring.bindAll ctx properties

/-- A variable with a value has one inside an include, too. -/
theorem Include.bound_inside (inc : Include) {ctx : Context} {name : String}
    (h : (ctx.get? name).isSome) : ((inc.inside ctx).get? name).isSome := by
  rw [inside]
  split
  · exact (ctx.pushFrame.keeps_bindAll _).bound name h
  · exact (ctx.keeps_bindAll _).bound name h

/-- What is kept from inside of an include to its end is kept behind it. -/
theorem Context.Keeps.behind {inc : Include} {ctx after : Context}
    (h : (inc.inside ctx).Keeps after) : ctx.Keeps (ctx.behind after) := keeps_enduring.behind h

/-! ## Every resolution respects what endures -/

section

variable {R : Context → Context → Prop} {expand : String → Context → Resolution}
  {answer : Except NodeError String} {ctx after : Context}

/-- An include respects what endures, if expansion does. -/
theorem Include.resolveWith_respects (hR : Context.Enduring R) (hexpand : Respects R expand)
    {inc : Include} (h : inc.resolveWith expand ctx = some (answer, after)) : R ctx after := by
  rcases resolveWith_cases h with ⟨e, -, -, rfl⟩ | ⟨name, last, -, hlast, rfl⟩
  · exact hR.behind (hR.refl _)
  · exact hR.behind (hexpand hlast)

mutual

/-- A node respects what endures, if expansion does. -/
theorem Node.resolveWith_respects (hR : Context.Enduring R) (hexpand : Respects R expand) :
    ∀ (node : Node) {ctx : Context} {answer : Except NodeError String} {after : Context},
      node.resolveWith expand ctx = some (answer, after) → R ctx after
  | .text _, ctx, _, _, h => (Prod.mk.inj (Option.some.inj h)).2 ▸ hR.refl ctx
  | .property _, ctx, _, _, h => (Prod.mk.inj (Option.some.inj h)).2 ▸ hR.refl ctx
  | .include _, _, _, _, h => Include.resolveWith_respects hR hexpand h
  | .fragment _ _ children, _, _, _, h => Node.resolveAllWith_respects hR hexpand children h

/-- So do nodes one after the other. -/
theorem Node.resolveAllWith_respects (hR : Context.Enduring R) (hexpand : Respects R expand) :
    ∀ (nodes : List Node) {ctx : Context} {answer : Except NodeError String} {after : Context},
      Node.resolveAllWith expand nodes ctx = some (answer, after) → R ctx after
  | [], ctx, _, _, h => (Prod.mk.inj (Option.some.inj h)).2 ▸ hR.refl ctx
  | node :: nodes, _, _, _, h => by
    rcases Node.resolveAllWith_cons_cases h with
      ⟨e, hfirst, -⟩ | ⟨first, mid, hfirst, ⟨e, hmore, -⟩ | ⟨more, hmore, -⟩⟩
    · exact Node.resolveWith_respects hR hexpand node hfirst
    · exact hR.trans (Node.resolveWith_respects hR hexpand node hfirst)
        (Node.resolveAllWith_respects hR hexpand nodes hmore)
    · exact hR.trans (Node.resolveWith_respects hR hexpand node hfirst)
        (Node.resolveAllWith_respects hR hexpand nodes hmore)

end

/-- A fragment of the application respects what endures, if expansion does. -/
theorem Host.resolveWith_respects (hR : Context.Enduring R) (hexpand : Respects R expand)
    {host : Host} (h : host.resolveWith expand ctx = some (answer, after)) : R ctx after := by
  induction host generalizing ctx with
  | done reply => exact (Prod.mk.inj (Option.some.inj h)).2 ▸ hR.refl ctx
  | set name value next ih => exact hR.trans (hR.set ctx name value) (ih h)
  | read next ih => exact ih ctx.bindings.values h
  | expand name next ih =>
    rw [Host.resolveWith] at h
    rcases hinner : expand name ctx with _ | ⟨inner, mid⟩
    · simp [hinner] at h
    · simp only [hinner] at h
      exact hR.trans (hexpand hinner) (ih inner h)
  | draw meter next ih => exact hR.trans (hR.drawMeter ctx meter) (ih _ h)

/-- Whatever is registered respects what endures, if expansion does. -/
theorem Definition.resolveWith_respects (hR : Context.Enduring R) (hexpand : Respects R expand)
    {definition : Definition} (h : definition.resolveWith expand ctx = some (answer, after)) :
    R ctx after := by
  cases definition with
  | node n => exact n.resolveWith_respects hR hexpand h
  | host host => exact Host.resolveWith_respects hR hexpand h

end

/-- **Every resolution respects what endures**, whatever its answer and its depth, and with or
without cycle detection. -/
theorem resolveFragmentWithin_respects {R : Context → Context → Prop} (hR : Context.Enduring R)
    (depth : Nat) : Respects R (resolveFragmentWithin depth) := by
  induction depth with
  | zero =>
    intro name ctx answer after h
    cases h
  | succ depth ih =>
    intro name ctx answer after h
    rcases resolveFragmentWithin_succ_cases h with
      ⟨-, -, rfl⟩ | ⟨definition, -, ⟨-, -, -, rfl⟩ | ⟨last, -, hlast, rfl⟩⟩
    · exact hR.refl _
    · exact hR.refl _
    · exact hR.leave (Definition.resolveWith_respects hR ih hlast)

/-! ## Every resolution keeps the context -/

/-- A node keeps its context, if expansion does. -/
theorem Node.resolveWith_keeps {expand : String → Context → Resolution}
    (hexpand : KeepsContexts expand) (node : Node) {ctx : Context}
    {answer : Except NodeError String} {after : Context}
    (h : node.resolveWith expand ctx = some (answer, after)) : ctx.Keeps after :=
  node.resolveWith_respects Context.keeps_enduring hexpand h

/-- **Every resolution keeps its context**, whatever its answer. -/
theorem resolveFragmentWithin_keeps (depth : Nat) :
    KeepsContexts (resolveFragmentWithin depth) :=
  resolveFragmentWithin_respects Context.keeps_enduring depth

end SqlFragments
