import SqlFragments.Proofs.Resolution.Following
import SqlFragments.Proofs.Resolution.Chains

/-! # Unscoped resolution changes variables only

Without scoped bindings nothing is taken back: the bindings of the includes that a run executes stay,
one after the other, and this is all that a run does to its context.

* `includesOf`: the includes that a run executes, in the order in which it comes to them;
* `Run.after_eq_of_unscoped`: behind a run the context is the one before it, with the bindings made
  that these includes make;
* `Bindings.get?_bindAll_includes`: of the bindings of one variable the last one counts;
* `resolveNode_unscoped`: what a node leaves behind, be its answer a text or an error. -/

namespace SqlFragments

/-! ## Bindings of includes -/

/-- The value that an include gives a variable, if it has a property of that name. -/
def Include.binding? (inc : Include) (name : String) : Option String :=
  (inc.properties.values.reverse.find? (·.name = name)).map (·.value)

/-- The properties of includes, one include after the other. -/
def propertiesOf (incs : List Include) : List Property := incs.flatMap (·.properties.values)

namespace Bindings

/-- Properties can be bound in two stages. -/
theorem bindAll_append (b : Bindings) (properties more : List Property) :
    b.bindAll (properties ++ more) = (b.bindAll properties).bindAll more :=
  List.foldl_append

/-- Where no frame is open nothing is noted. -/
theorem frames_bindAll_of_eq_nil {b : Bindings} (h : b.frames = []) (properties : List Property) :
    (b.bindAll properties).frames = [] := by
  induction properties generalizing b with
  | nil => exact h
  | cons p properties ih =>
    apply ih
    simp only [set, h]

/-- Behind the binding of an include a variable has the value that the include gives it, or the one
that it had. -/
theorem get?_bindAll_include (b : Bindings) (inc : Include) (name : String) :
    (b.bindAll inc.properties.values).get? name = (inc.binding? name).or (b.get? name) := by
  rw [Lexical.get?_bindAll, Lexical.Environment.overlay, Include.binding?]
  cases inc.properties.values.reverse.find? (·.name = name) <;> rfl

/-- **The last binding counts**: after the properties of several includes have been bound, a
variable has the value that the last include with a property of its name gives it, or the one that
it had. -/
theorem get?_bindAll_includes (b : Bindings) (incs : List Include) (name : String) :
    (b.bindAll (propertiesOf incs)).get? name
      = (incs.reverse.findSome? (·.binding? name)).or (b.get? name) := by
  induction incs generalizing b with
  | nil => rfl
  | cons inc incs ih =>
    have hsplit : b.bindAll (propertiesOf (inc :: incs))
        = (b.bindAll inc.properties.values).bindAll (propertiesOf incs) :=
      b.bindAll_append _ _
    rw [hsplit, ih, get?_bindAll_include, List.reverse_cons, List.findSome?_append, Option.or_assoc]
    congr 2
    cases h : inc.binding? name <;> simp [h]

end Bindings

/-! ## What a run leaves behind -/

/-- The context in which includes have made their bindings, one include after the other. -/
def Context.bindIncludes (ctx : Context) (incs : List Include) : Context :=
  { ctx with bindings := ctx.bindings.bindAll (propertiesOf incs) }

namespace Context

variable (ctx : Context)

/-- The bindings of includes can be made in two stages. -/
theorem bindIncludes_append (incs more : List Include) :
    ctx.bindIncludes (incs ++ more) = (ctx.bindIncludes incs).bindIncludes more := by
  rw [bindIncludes, propertiesOf, List.flatMap_append, Bindings.bindAll_append]
  rfl

/-- The bindings of one include are those of its properties. -/
theorem bindIncludes_singleton (inc : Include) :
    ctx.bindIncludes [inc] = ctx.bindAll inc.properties.values := by
  rw [bindAll_eq, bindIncludes, propertiesOf, List.flatMap_singleton]

/-- Behind several includes a variable has the value that the last one of them with a property of
its name gives it, or the one that it had. -/
theorem get?_bindIncludes (incs : List Include) (name : String) :
    (ctx.bindIncludes incs).get? name
      = (incs.reverse.findSome? (·.binding? name)).or (ctx.get? name) :=
  ctx.bindings.get?_bindAll_includes incs name

/-- Entering a fragment and leaving it again does not touch the bindings. -/
theorem leave_bindIncludes_enter (incs : List Include) (name : String) :
    ((ctx.enter name).bindIncludes incs).leave = ctx.bindIncludes incs := rfl

end Context

/-- Without scoped bindings the inside of an include is the context with its bindings made. -/
theorem Include.inside_of_unscoped {ctx : Context} (hunscoped : ctx.options.scopedBindings = false)
    (inc : Include) : inc.inside ctx = ctx.bindIncludes [inc] := by
  rw [inside, if_neg (by simp [hunscoped]), Context.bindIncludes_singleton]

namespace Run

variable {subject : Subject} {ctx after : Context} {visits : List Visit}
  {answer : Except NodeError String}

/-- **A run without scoped bindings makes the bindings of its includes**, and changes nothing
else. -/
theorem after_eq_of_unscoped (h : Run subject ctx visits answer after)
    (hunscoped : ctx.options.scopedBindings = false) :
    after = ctx.bindIncludes (includesOf visits) := by
  induction h with
  | missing | cyclic | text | property | nil => rfl
  | @entered name ctx body visits answer last _ _ _ ih =>
    rw [ih hunscoped, Context.leave_bindIncludes_enter]
  | @aimless inc ctx e _ =>
    rw [Context.behind_of_not_scoped hunscoped, inc.inside_of_unscoped hunscoped]
    rfl
  | @included inc ctx name visits answer last _ _ ih =>
    -- first the include's own bindings, then those that are made inside of it
    have hinside := ih ((inc.sameSetting_inside ctx).options ▸ hunscoped)
    rw [Context.behind_of_not_scoped hunscoped, hinside, inc.inside_of_unscoped hunscoped,
      ← Context.bindIncludes_append]
    rfl
  | fragment _ ih => exact ih hunscoped
  | stopped _ ih => exact ih hunscoped
  | @next node nodes ctx visits first mid more answer after hfirst _ ih ihMore =>
    have hmid : mid.options.scopedBindings = false := hfirst.keeps.options ▸ hunscoped
    rw [ihMore hmid, ih hunscoped, ← Context.bindIncludes_append, includesOf_append]

end Run

/-- **Unscoped resolution changes variables only, and only by the includes that it executes.** With
cycle detection, without scoped bindings and with no frame open, a node comes to an answer. Whatever
it is, the context afterwards is the one before it but for the values of variables. No variable has
lost its value: each has the one that the last executed include with a property of its name gives
it, or else the one that it had; an include is executed whether or not its target is found. A cycle
that is reported by a later resolution in this context is its own: the chain goes on from the names
that were being resolved before the node, and holds no name besides that the later run has not looked
up itself. -/
theorem resolveNode_unscoped {ctx : Context} {library : Dict Node} (hold : ctx.Holds library)
    (hunscoped : ctx.options.scopedBindings = false) (hdetect : ctx.options.detectCycles = true)
    (hframes : ctx.bindings.frames = []) (node : Node) :
    ∃ answer after, ctx.resolveNode node = some (answer, after) ∧
      after = { ctx with bindings := ⟨after.bindings.values, []⟩ } ∧
      (∀ name, (ctx.get? name).isSome → (after.get? name).isSome) ∧
      (∀ name, after.get? name
        = ((includesOf (ctx.nodeVisits node)).reverse.findSome? (·.binding? name)).or
            (ctx.get? name)) ∧
      ∀ name chain last,
        after.resolveFragment name = some (.error (.cyclicReference chain), last) →
          ∃ rest, chain = ctx.active.reverse ++ name :: rest ∧
            ∀ other ∈ rest, other ∈ after.lookUps name := by
  obtain ⟨answer, after, heq, hrun⟩ := Context.exists_run_node hold hdetect node
  have hafter := hrun.after_eq_of_unscoped hunscoped
  refine ⟨answer, after, heq, ?_, hrun.keeps.bound, fun name => ?_, fun name chain last hlater => ?_⟩
  -- bindings open no frame, so none is open afterwards
  · have hclosed : after.bindings.frames = [] := by
      rw [hafter]
      exact Bindings.frames_bindAll_of_eq_nil hframes _
    rw [← hclosed, hafter]
    rfl
  · rw [hafter, Context.get?_bindIncludes]
  · have hlast := Context.run_of_resolveFragment
      (hold.of_sameSetting hrun.keeps.toSameSetting) hlater
    obtain ⟨rest, hchain, hrest⟩ := hlast.chain_eq
    rw [hrun.keeps.active] at hchain
    exact ⟨rest, hchain, fun other hother => List.mem_cons_of_mem _ (hrest other hother)⟩

/-- A node whose second include points at a fragment with a target that is missing. -/
def unscopedSampleNode : Node :=
  .fragment "select" "" [
    .include ⟨"m", some (.literal "left"), Dict.empty.insert "u" ⟨"u", "5"⟩⟩,
    .include ⟨"m", some (.literal "gap"), Dict.empty.insert "t" ⟨"t", "2"⟩⟩,
    .include ⟨"m", some (.literal "base"), Dict.empty.insert "t" ⟨"t", "3"⟩⟩]

/-- The includes that are executed until the missing target is looked up. -/
example : (includesOf (includeSampleContext.nodeVisits unscopedSampleNode)).map (·.reference)
    = [some (.literal "left"), some (.literal "base"), some (.literal "base"),
        some (.literal "gap"), some (.literal "none")] := by decide +kernel

/-- Bindings that were made before a target is missing stay. -/
theorem resolveNode_unscoped_missingTarget :
    includeSampleContext.Holds (Dict.ofList includeSample) ∧
    includeSampleContext.options.scopedBindings = false ∧
    includeSampleContext.options.detectCycles = true ∧
    includeSampleContext.bindings.frames = [] ∧
    ∃ after, includeSampleContext.resolveNode unscopedSampleNode
        = some (.error (.fragmentNotFound "m.none"), after) ∧
      after.get? "t" = some "2" ∧ after.get? "u" = some "5" := by
  have hold : includeSampleContext.Holds (Dict.ofList includeSample) :=
    Context.holds_registerNodes rfl includeSample
  have hmissing : (includeSampleContext.resolveNode unscopedSampleNode).map Prod.fst
      = some (.error (.fragmentNotFound "m.none")) := by decide +kernel
  refine ⟨hold, rfl, rfl, rfl, ?_⟩
  obtain ⟨answer, after, hanswer, -, -, hlast, -⟩ :=
    resolveNode_unscoped hold rfl rfl rfl unscopedSampleNode
  rw [hanswer, Option.map_some, Option.some.injEq] at hmissing
  subst hmissing
  refine ⟨after, hanswer, ?_, ?_⟩
  · rw [hlast]
    decide +kernel
  · rw [hlast]
    decide +kernel

end SqlFragments
