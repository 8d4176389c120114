import SqlFragments.Proofs.Dict
import SqlFragments.Proofs.Resolution.Lexical
import SqlFragments.Proofs.Resolution.Visits

/-! # Resolution ends, and never enters a fragment twice

What a reference points at depends on the values that variables have when the run comes to it, so
no graph of includes is known beforehand. What bounds a run is the list of the names that are
being resolved: it grows by a registered name that is not on it.

* `Context.Orderly`: the list has each name once, and registered names only;
* `visitsWithin_orderly`: it stays so at every place that a run comes to;
* `resolveFragmentWithin_eq_of_unentered_lt`: two depths that are both enough give the same;
* `resolution_ends_orderly`: every resolution of statements, fragments and nodes ends, and the
  list is never longer than there are fragments. -/

namespace SqlFragments

/-! ## The names that are being resolved -/

namespace Context

/-- The names that are being resolved are different, registered, and so not more than there are
fragments. -/
structure Orderly (ctx : Context) : Prop where
  nodup : ctx.active.Nodup
  registered : ∀ name ∈ ctx.active, name ∈ ctx.registry.keys
  length_le : ctx.active.length ≤ ctx.registry.size

variable {ctx c : Context}

/-- Names that are different and registered are not more than there are fragments. -/
theorem Orderly.of_nodup (hnodup : ctx.active.Nodup)
    (hregistered : ∀ name ∈ ctx.active, name ∈ ctx.registry.keys) : ctx.Orderly where
  nodup := hnodup
  registered := hregistered
  length_le := Dict.length_le_size hnodup hregistered

/-- Where nothing is being resolved the names are in order. -/
theorem orderly_of_idle (h : ctx.active = []) : ctx.Orderly :=
  .of_nodup (by simp [h]) (by simp [h])

/-- They stay in order where only variables change. -/
theorem Orderly.of_sameSetting (horderly : ctx.Orderly) (h : ctx.SameSetting c) : c.Orderly := by
  apply Orderly.of_nodup <;> rw [h.active]
  · exact horderly.nodup
  · rw [h.registry]
    exact horderly.registered

/-- A fragment is entered when it is registered and not being resolved. -/
theorem Orderly.enter (horderly : ctx.Orderly) {name : String} {definition : Definition}
    (hreg : ctx.registry.get? name = some definition) (hnew : name ∉ ctx.active) :
    (ctx.enter name).Orderly := by
  refine .of_nodup (List.nodup_cons.2 ⟨hnew, horderly.nodup⟩) fun other hother => ?_
  rcases List.mem_cons.1 hother with rfl | hother
  · exact Dict.mem_keys_iff.2 (Option.isSome_iff_exists.2 ⟨definition, hreg⟩)
  · exact horderly.registered other hother

/-- At a visit the fragments are those of the context, and the names being resolved are in
order. -/
def VisitsOrderly (ctx : Context) (v : Visit) : Prop :=
  v.2.registry = ctx.registry ∧ v.2.Orderly

/-- What is in order as seen from one context is so from every other one of its setting. -/
theorem VisitsOrderly.of_sameSetting {v : Visit} (h : ctx.SameSetting c)
    (hv : c.VisitsOrderly v) : ctx.VisitsOrderly v := ⟨hv.1.trans h.registry, hv.2⟩

end Context

section

variable {ctx : Context}

/-- What follows from the visits to a node: they are in its setting, and so is what they look
up. -/
theorem Visit.orderly_of_mem_followAll {depth : Nat} {node : Node} {v : Visit}
    (horderly : ctx.Orderly)
    (hfollow : ∀ name c, ctx.SameSetting c → ∀ v ∈ visitsWithin depth name c, c.VisitsOrderly v)
    (hv : v ∈ followAll (visitsWithin depth) (node.visits (resolveFragmentWithin depth) ctx)) :
    ctx.VisitsOrderly v := by
  obtain ⟨u, hu, rfl | ⟨found, hfound, hv⟩⟩ := mem_followAll.1 hv
  · have h := (node.mem_visits (resolveFragmentWithin_keeps depth) hu).2.toSameSetting
    exact ⟨h.registry, horderly.of_sameSetting h⟩
  · have h := Node.sameSetting_lookUp (resolveFragmentWithin_keeps depth) hu hfound
    exact (hfollow found.1 found.2 h v hv).of_sameSetting h

/-- **A run stays in order.** -/
theorem visitsWithin_orderly {depth : Nat} {name : String}
    (hdetect : ctx.options.detectCycles = true) (horderly : ctx.Orderly) :
    ∀ v ∈ visitsWithin depth name ctx, ctx.VisitsOrderly v := by
  induction depth generalizing name ctx with
  | zero => exact fun v hv => nomatch hv
  | succ depth ih =>
    intro v hv
    rw [visitsWithin] at hv
    split at hv
    · rename_i body hreg
      rw [hdetect, Bool.true_and] at hv
      split at hv
      -- a name that is being resolved is not entered again, and nothing is visited
      · cases hv
      · rename_i hnew
        have hentered : (ctx.enter name).Orderly :=
          horderly.enter hreg (by simpa using hnew)
        have hbody : (ctx.enter name).VisitsOrderly v := by
          refine Visit.orderly_of_mem_followAll hentered (fun next c hc => ih ?_ ?_) hv
          · exact hc.detectCycles hdetect
          · exact hentered.of_sameSetting hc
        exact hbody
    · cases hv

/-- The visits of a node are in order. -/
theorem Node.visitsWithin_orderly {depth : Nat} {node : Node}
    (hdetect : ctx.options.detectCycles = true) (horderly : ctx.Orderly) :
    ∀ v ∈ node.visitsWithin depth ctx, ctx.VisitsOrderly v := by
  refine fun v hv => Visit.orderly_of_mem_followAll horderly (fun name c hc => ?_) hv
  exact SqlFragments.visitsWithin_orderly (hc.detectCycles hdetect) (horderly.of_sameSetting hc)

/-! ## The depth is not felt -/

/-- Depths that give the same wherever the setting is that of the node give it the same
resolution. -/
theorem Node.resolveWith_eq_of_depths {a b : Nat} (node : Node)
    (h : ∀ name c, ctx.SameSetting c →
      resolveFragmentWithin a name c = resolveFragmentWithin b name c) :
    node.resolveWith (resolveFragmentWithin a) ctx
      = node.resolveWith (resolveFragmentWithin b) ctx :=
  node.resolveWith_congr fun _ hvisit found hfound =>
    h found.1 found.2 (Node.sameSetting_lookUp (resolveFragmentWithin_keeps b) hvisit hfound)

/-- **The depth is not felt.** Depths above the number of the names that are left to enter give
the same. -/
theorem resolveFragmentWithin_eq_of_unentered_lt {library : Dict Node} {a b : Nat} {name : String}
    (hold : ctx.Holds library) (hdetect : ctx.options.detectCycles = true)
    (ha : ctx.unentered < a) (hb : ctx.unentered < b) :
    resolveFragmentWithin a name ctx = resolveFragmentWithin b name ctx := by
  induction a generalizing b name ctx with
  | zero => exact absurd ha (Nat.not_lt_zero _)
  | succ a ih =>
    obtain ⟨b, rfl⟩ := Nat.exists_eq_succ_of_ne_zero (Nat.ne_zero_of_lt hb)
    rw [resolveFragmentWithin, resolveFragmentWithin, hold name]
    cases hlib : library.get? name with
    | none => rfl
    | some body =>
      simp only [Option.map_some, hdetect, Bool.true_and]
      split
      · rfl
      · rename_i hnew
        have hreg : ctx.registry.get? name = some (.node body) := by
          rw [hold name, hlib]
          rfl
        -- the body looks things up in the setting inside, where one name fewer is left to enter
        have hlt := ctx.unentered_enter_lt hreg (by simpa using hnew)
        rw [Definition.resolveWith, Definition.resolveWith,
          body.resolveWith_eq_of_depths fun next c hc => ih ?_ ?_ ?_ ?_]
        · have hentered : (ctx.enter name).Holds library := hold
          exact hentered.of_sameSetting hc
        · exact hc.detectCycles hdetect
        · rw [hc.unentered_eq]
          omega
        · rw [hc.unentered_eq]
          omega

end

/-! ## The runs of a context -/

/-- What is said of a run: its result, what the run gives within each depth of nesting, and the
visits that it makes there. -/
structure Context.EndsOrderly (ctx : Context) (result : Resolution) (within : Nat → Resolution)
    (visits : Nat → List Visit) : Prop where
  /-- It comes to an answer, and nothing is left on the list of names. -/
  ends : ∃ answer after, result = some (answer, after) ∧ after.active = ctx.active
  /-- No depth plays a part once all fragments can be entered one inside the other. -/
  unbounded : ∀ depth, ctx.registry.size < depth → within depth = result
  /-- At each visit the names on the list are in order. -/
  orderly : ∀ depth, ∀ v ∈ visits depth, ctx.VisitsOrderly v

section

variable {ctx : Context} {library : Dict Node}

/-- **A fragment is resolved in order**, and its resolution ends. -/
theorem Context.resolveFragment_endsOrderly (hold : ctx.Holds library)
    (hdetect : ctx.options.detectCycles = true) (horderly : ctx.Orderly) (name : String) :
    ctx.EndsOrderly (ctx.resolveFragment name)
      (fun depth => resolveFragmentWithin depth name ctx)
      (fun depth => visitsWithin depth name ctx) where
  ends := by
    obtain ⟨answer, after, heq, h⟩ := ctx.resolveFragment_settles hdetect name
    exact ⟨answer, after, heq, h.active⟩
  unbounded depth hdepth :=
    resolveFragmentWithin_eq_of_unentered_lt hold hdetect
      (Nat.lt_of_le_of_lt ctx.unentered_le_size hdepth) (ctx.unentered_lt_depthBound hdetect)
  orderly _ := visitsWithin_orderly hdetect horderly

/-- So is a node, and so does its resolution. -/
theorem Context.resolveNode_endsOrderly (hold : ctx.Holds library)
    (hdetect : ctx.options.detectCycles = true) (horderly : ctx.Orderly) (node : Node) :
    ctx.EndsOrderly (ctx.resolveNode node)
      (fun depth => node.resolveWith (resolveFragmentWithin depth) ctx)
      (fun depth => node.visitsWithin depth ctx) where
  ends := by
    obtain ⟨answer, after, heq, h⟩ := ctx.resolveDefinition_settles hdetect (.node node)
    exact ⟨answer, after, heq, h.active⟩
  unbounded depth hdepth := by
    refine node.resolveWith_eq_of_depths fun name c hc => ?_
    have hsize := Nat.lt_of_le_of_lt ctx.unentered_le_size hdepth
    refine resolveFragmentWithin_eq_of_unentered_lt (hold.of_sameSetting hc)
      (hc.detectCycles hdetect) ?_ ?_
    · rwa [hc.unentered_eq]
    · rw [hc.unentered_eq]
      exact ctx.unentered_lt_depthBound hdetect
  orderly _ := Node.visitsWithin_orderly hdetect horderly

/-- **Resolution ends.** With cycle detection and nothing being resolved, whatever nodes are
registered, whatever their references are read from, and with scoped bindings or without, every
fragment, every statement and every node is resolved to an answer. All through the run the names
that are being resolved are registered and different, and not more than there are fragments. -/
theorem resolution_ends_orderly (hold : ctx.Holds library)
    (hdetect : ctx.options.detectCycles = true) (hidle : ctx.active = []) :
    (∀ name, ctx.EndsOrderly (ctx.resolveFragment name)
      (fun depth => resolveFragmentWithin depth name ctx)
      (fun depth => visitsWithin depth name ctx)) ∧
    (∀ id, ctx.EndsOrderly (ctx.resolveStatement id)
      (fun depth => resolveFragmentWithin depth (qualify ctx.space id) ctx)
      (fun depth => visitsWithin depth (qualify ctx.space id) ctx)) ∧
    ∀ node, ctx.EndsOrderly (ctx.resolveNode node)
      (fun depth => node.resolveWith (resolveFragmentWithin depth) ctx)
      (fun depth => node.visitsWithin depth ctx) := by
  have horderly := Context.orderly_of_idle hidle
  refine ⟨fun name => ?_, fun id => ?_, fun node => ?_⟩
  · exact Context.resolveFragment_endsOrderly hold hdetect horderly name
  · exact Context.resolveFragment_endsOrderly hold hdetect horderly (qualify ctx.space id)
  · exact Context.resolveNode_endsOrderly hold hdetect horderly node

end

/-- The names that are being resolved where the run of `loop` comes to something: in its fragment,
and at the include in it, which leads no further. -/
example : (visitsWithin 5 "m.loop" Lexical.sampleContext).map (·.2.active)
    = [["m.loop"], ["m.loop"]] := by decide +kernel

/-- A fragment that includes itself is resolved in order, too. -/
theorem resolution_ends_orderly_loop :
    Lexical.sampleContext.Holds (Dict.ofList Lexical.sampleNodes) ∧
    Lexical.sampleContext.options.detectCycles = true ∧ Lexical.sampleContext.active = [] ∧
    Lexical.sampleContext.EndsOrderly (Lexical.sampleContext.resolveStatement "loop")
      (fun depth => resolveFragmentWithin depth "m.loop" Lexical.sampleContext)
      (fun depth => visitsWithin depth "m.loop" Lexical.sampleContext) := by
  have hold : Lexical.sampleContext.Holds (Dict.ofList Lexical.sampleNodes) :=
    Context.holds_registerNodes rfl Lexical.sampleNodes
  exact ⟨hold, rfl, rfl, (resolution_ends_orderly hold rfl rfl).2.1 "loop"⟩

end SqlFragments
