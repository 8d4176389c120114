import Mathlib
import SqlFragments.Proofs.Resolution.Depth

/-! # Frames behave as full copies

A frame notes only what was overwritten inside it. Here it is compared with the plain way to take
settings back: a context (`SnapshotContext`) that copies all variables when a frame is opened, and
puts the last copy back when it is closed.

* `Context.snapshot` reads the frames of a context as the copies that they stand for, and every
  operation on contexts is carried over to the same operation on copies
  (`snapshot_set`, `snapshot_popFrame`, …);
* `Context.snapshot_resolveFragment`: hence every resolution is, too;
* `trace_eq_traceCopying`: a script of operations gets the same replies and shows the same
  variables from either context. -/

namespace SqlFragments

/-! ## Contexts that copy their variables -/

/-- A context in which an open frame is a copy of all variables. -/
structure SnapshotContext where
  space : String
  /-- The variables. -/
  values : Dict String
  /-- The copies that the open frames hold, innermost first. -/
  saved : List (Dict String)
  registry : Dict Definition
  options : Options
  active : List String
  meters : List Nat

/-- What a resolution comes to in a context that copies. -/
abbrev SnapshotResolution := Option (Except NodeError String × SnapshotContext)

namespace SnapshotContext

/-- Gives a variable a value. No frame takes notice. -/
def set (ctx : SnapshotContext) (name value : String) : SnapshotContext :=
  { ctx with values := ctx.values.insert name value }

/-- Opens a frame: the variables are copied. -/
def pushFrame (ctx : SnapshotContext) : SnapshotContext :=
  { ctx with saved := ctx.values :: ctx.saved }

/-- Closes the innermost frame: its copy is put back. -/
def popFrame (ctx : SnapshotContext) : SnapshotContext :=
  match ctx.saved with
  | [] => ctx
  | copy :: saved => { ctx with values := copy, saved := saved }

/-- Makes bindings, one after the other. -/
def bindAll (ctx : SnapshotContext) (properties : List Property) : SnapshotContext :=
  properties.foldl (fun ctx p => ctx.set p.name p.value) ctx

/-- Registers a definition under a name. -/
def register (ctx : SnapshotContext) (name : String) (definition : Definition) :
    SnapshotContext :=
  { ctx with registry := ctx.registry.insert name definition }

/-- Notes that a fragment is being resolved. -/
def enter (ctx : SnapshotContext) (name : String) : SnapshotContext :=
  { ctx with active := name :: ctx.active }

/-- Notes that the innermost fragment has been resolved. -/
def leave (ctx : SnapshotContext) : SnapshotContext := { ctx with active := ctx.active.tail }

/-- Draws one unit from a meter, if there is one. -/
def drawMeter (ctx : SnapshotContext) (meter : Nat) : Bool × SnapshotContext :=
  match ctx.meters[meter]? with
  | some (left + 1) => (true, { ctx with meters := ctx.meters.set meter left })
  | _ => (false, ctx)

section

variable (expand : String → SnapshotContext → SnapshotResolution)

/-- Makes the bindings of an include and expands its target. -/
def resolveBound (inc : Include) (ctx : SnapshotContext) : SnapshotResolution :=
  let ctx := ctx.bindAll inc.properties.values
  match inc.target ctx.values with
  | .error e => some (.error e, ctx)
  | .ok name => expand name ctx

/-- Resolves an include, between a copy and its return if bindings are scoped. -/
def resolveInclude (inc : Include) (ctx : SnapshotContext) : SnapshotResolution :=
  if ctx.options.scopedBindings then
    (resolveBound expand inc ctx.pushFrame).map fun r => (r.1, r.2.popFrame)
  else resolveBound expand inc ctx

mutual

/-- Resolves a node, with `expand` for the targets of includes. -/
def resolveNodeWith : Node → SnapshotContext → SnapshotResolution
  | .text ts, ctx => some (renderTokens ctx.values ts, ctx)
  | .property _, ctx => some (.ok "", ctx)
  | .include inc, ctx => resolveInclude expand inc ctx
  | .fragment _ _ children, ctx => resolveAllWith children ctx

/-- Resolves nodes in order, up to the first error, and joins their answers. -/
def resolveAllWith : List Node → SnapshotContext → SnapshotResolution
  | [], ctx => some (.ok "", ctx)
  | node :: nodes, ctx =>
    match resolveNodeWith node ctx with
    | some (.ok first, ctx) =>
      match resolveAllWith nodes ctx with
      | some (.ok more, ctx) => some (.ok (first ++ more), ctx)
      | failed => failed
    | failed => failed

end

/-- Runs a host fragment on the copying context. -/
def resolveHost : Host → SnapshotContext → SnapshotResolution
  | .done answer, ctx => some (answer, ctx)
  | .set name value next, ctx => resolveHost next (ctx.set name value)
  | .read next, ctx => resolveHost (next ctx.values) ctx
  | .expand name next, ctx =>
    match expand name ctx with
    | none => none
    | some (answer, ctx) => resolveHost (next answer) ctx
  | .draw meter next, ctx =>
    resolveHost (next (ctx.drawMeter meter).1) (ctx.drawMeter meter).2

/-- Resolves a registered definition, of either kind. -/
def resolveDefinitionWith : Definition → SnapshotContext → SnapshotResolution
  | .node n, ctx => resolveNodeWith expand n ctx
  | .host h, ctx => resolveHost expand h ctx

end

/-- Resolves the fragment of a qualified name, with a bound on the depth. -/
def resolveFragmentWithin : Nat → String → SnapshotContext → SnapshotResolution
  | 0, _, _ => none
  | depth + 1, name, ctx =>
    match ctx.registry.get? name with
    | none => some (.error (.fragmentNotFound name), ctx)
    | some definition =>
      if ctx.options.detectCycles && ctx.active.contains name then
        some (.error (.cyclicReference (ctx.active.reverse ++ [name])), ctx)
      else
        (resolveDefinitionWith (resolveFragmentWithin depth) definition (ctx.enter name)).map
          fun r => (r.1, r.2.leave)

/-- How deep fragments may nest. -/
def depthBound (ctx : SnapshotContext) : Nat :=
  if ctx.options.detectCycles then ctx.registry.size + 1 else ctx.registry.size + Nat.pow 2 64

/-- Resolves the fragment of a qualified name. -/
def resolveFragment (ctx : SnapshotContext) (name : String) : SnapshotResolution :=
  resolveFragmentWithin ctx.depthBound name ctx

/-- Resolves a statement by its id, which belongs to the context's namespace unless it is
qualified. -/
def resolveStatement (ctx : SnapshotContext) (id : String) : SnapshotResolution :=
  ctx.resolveFragment (qualify ctx.space id)

/-- Resolves a node. -/
def resolveNode (ctx : SnapshotContext) (node : Node) : SnapshotResolution :=
  resolveNodeWith (resolveFragmentWithin ctx.depthBound) node ctx

end SnapshotContext

/-! ## Frames read as copies -/

/-- The copies that open frames stand for: closing a frame leads to the variables of its copy. -/
def Frame.copies (values : Dict String) : List Frame → List (Dict String)
  | [] => []
  | frame :: outer => frame.restore values :: copies (frame.restore values) outer

namespace Context

/-- The context that holds copies where this one holds frames. -/
def snapshot (ctx : Context) : SnapshotContext where
  space := ctx.space
  values := ctx.bindings.values
  saved := Frame.copies ctx.bindings.values ctx.bindings.frames
  registry := ctx.registry
  options := ctx.options
  active := ctx.active
  meters := ctx.meters

/-- **Setting a variable leaves the copies alone.** The innermost frame notes the value that its
copy has, and the outer frames are only reached through it. -/
@[simp] theorem snapshot_set (ctx : Context) (name value : String) :
    (ctx.set name value).snapshot = ctx.snapshot.set name value := by
  obtain ⟨space, ⟨values, frames⟩, registry, options, active, meters⟩ := ctx
  cases frames with
  | nil => rfl
  | cons frame outer =>
    simp only [snapshot, set, Bindings.set, SnapshotContext.set, Frame.copies,
      Frame.restore_note_insert]

@[simp] theorem snapshot_pushFrame (ctx : Context) :
    ctx.pushFrame.snapshot = ctx.snapshot.pushFrame := rfl

/-- Closing a frame puts its copy back. What this writes is noted nowhere, nor need it be. -/
@[simp] theorem snapshot_popFrame (ctx : Context) :
    ctx.popFrame.snapshot = ctx.snapshot.popFrame := by
  obtain ⟨space, ⟨values, frames⟩, registry, options, active, meters⟩ := ctx
  cases frames <;> rfl

@[simp] theorem snapshot_register (ctx : Context) (name : String) (definition : Definition) :
    (ctx.register name definition).snapshot = ctx.snapshot.register name definition := rfl

@[simp] theorem snapshot_enter (ctx : Context) (name : String) :
    (ctx.enter name).snapshot = ctx.snapshot.enter name := rfl

@[simp] theorem snapshot_leave (ctx : Context) : ctx.leave.snapshot = ctx.snapshot.leave := rfl

/-- Bindings are made alike in either context. -/
@[simp] theorem snapshot_bindAll (ctx : Context) (properties : List Property) :
    (ctx.bindAll properties).snapshot = ctx.snapshot.bindAll properties := by
  induction properties generalizing ctx with
  | nil => rfl
  | cons p properties ih =>
    have h := ih (ctx.set p.name p.value)
    rwa [snapshot_set] at h

/-- A meter gives the same answer in either context. -/
theorem snapshot_drawMeter (ctx : Context) (meter : Nat) :
    ctx.snapshot.drawMeter meter
      = ((ctx.drawMeter meter).1, (ctx.drawMeter meter).2.snapshot) := by
  have hmeters : ctx.snapshot.meters = ctx.meters := rfl
  rw [SnapshotContext.drawMeter, drawMeter, hmeters]
  cases ctx.meters[meter]? with
  | none => rfl
  | some budget => cases budget <;> rfl

end Context

/-- What a resolution comes to, with copies for frames. -/
def Resolution.snapshot (r : Resolution) : SnapshotResolution :=
  r.map fun r => (r.1, r.2.snapshot)

@[simp] theorem Resolution.snapshot_some (answer : Except NodeError String) (ctx : Context) :
    Resolution.snapshot (some (answer, ctx)) = some (answer, ctx.snapshot) := rfl

@[simp] theorem Resolution.snapshot_none : Resolution.snapshot none = none := rfl

/-! ## Resolution carries over -/

section

variable {expand : String → Context → Resolution}
  {expandCopying : String → SnapshotContext → SnapshotResolution}

/-- The two ways to expand fragments correspond. -/
def Corresponds (expand : String → Context → Resolution)
    (expandCopying : String → SnapshotContext → SnapshotResolution) : Prop :=
  ∀ name ctx, expandCopying name ctx.snapshot = (expand name ctx).snapshot

/-- Behind its bindings an include leads to the same target. -/
theorem Include.snapshot_resolveBound (hexpand : Corresponds expand expandCopying)
    (inc : Include) (ctx : Context) :
    SnapshotContext.resolveBound expandCopying inc ctx.snapshot
      = (inc.resolveBound expand ctx).snapshot := by
  simp only [SnapshotContext.resolveBound, Include.resolveBound, ← Context.snapshot_bindAll]
  have hvalues : (ctx.bindAll inc.properties.values).snapshot.values
      = (ctx.bindAll inc.properties.values).bindings.values := rfl
  rw [hvalues]
  cases inc.target (ctx.bindAll inc.properties.values).bindings.values with
  | error e => rfl
  | ok name => exact hexpand name _

/-- An include comes to the same, as its frame stands for the copy. -/
theorem Include.snapshot_resolveWith (hexpand : Corresponds expand expandCopying)
    (inc : Include) (ctx : Context) :
    SnapshotContext.resolveInclude expandCopying inc ctx.snapshot
      = (inc.resolveWith expand ctx).snapshot := by
  have hoptions : ctx.snapshot.options = ctx.options := rfl
  rw [SnapshotContext.resolveInclude, Include.resolveWith, hoptions]
  split
  · rw [← Context.snapshot_pushFrame, inc.snapshot_resolveBound hexpand]
    cases inc.resolveBound expand ctx.pushFrame with
    | none => rfl
    | some r =>
      obtain ⟨answer, after⟩ := r
      exact congrArg (fun c => some (answer, c)) after.snapshot_popFrame.symm
  · exact inc.snapshot_resolveBound hexpand ctx

mutual

/-- **Every node comes to the same**, if the fragments that it includes do. -/
theorem Node.snapshot_resolveWith (hexpand : Corresponds expand expandCopying) :
    ∀ (node : Node) (ctx : Context), SnapshotContext.resolveNodeWith expandCopying node ctx.snapshot
      = (node.resolveWith expand ctx).snapshot
  | .text _, _ => rfl
  | .property _, _ => rfl
  | .include inc, ctx => inc.snapshot_resolveWith hexpand ctx
  | .fragment _ _ children, ctx => Node.snapshot_resolveAllWith hexpand children ctx

/-- So do nodes one after the other. -/
theorem Node.snapshot_resolveAllWith (hexpand : Corresponds expand expandCopying) :
    ∀ (nodes : List Node) (ctx : Context),
      SnapshotContext.resolveAllWith expandCopying nodes ctx.snapshot
        = (Node.resolveAllWith expand nodes ctx).snapshot
  | [], _ => rfl
  | node :: nodes, ctx => by
    rw [SnapshotContext.resolveAllWith, Node.resolveAllWith,
      Node.snapshot_resolveWith hexpand node ctx]
    match node.resolveWith expand ctx with
    | none => rfl
    | some (.error e, mid) => rfl
    | some (.ok first, mid) =>
      simp only [Resolution.snapshot_some, Node.snapshot_resolveAllWith hexpand nodes mid]
      match Node.resolveAllWith expand nodes mid with
      | none => rfl
      | some (.error e, after) => rfl
      | some (.ok more, after) => rfl

end

/-- What an application does comes to the same. -/
theorem Host.snapshot_resolveWith (hexpand : Corresponds expand expandCopying) (host : Host)
    (ctx : Context) :
    SnapshotContext.resolveHost expandCopying host ctx.snapshot
      = (host.resolveWith expand ctx).snapshot := by
  -- on the program of the host; each of its operations has a counterpart
  induction host generalizing ctx with
  | done answer => rfl
  | set name value next ih =>
    rw [SnapshotContext.resolveHost, ← Context.snapshot_set, ih]
    rfl
  | read next ih => exact ih ctx.bindings.values ctx
  | expand name next ih =>
    rw [SnapshotContext.resolveHost, Host.resolveWith, hexpand name ctx]
    rcases expand name ctx with _ | ⟨answer, mid⟩
    · rfl
    · exact ih answer mid
  | draw meter next ih =>
    rw [SnapshotContext.resolveHost, Host.resolveWith, Context.snapshot_drawMeter]
    exact ih _ _

/-- Whatever is registered comes to the same. -/
theorem Definition.snapshot_resolveWith (hexpand : Corresponds expand expandCopying)
    (definition : Definition) (ctx : Context) :
    SnapshotContext.resolveDefinitionWith expandCopying definition ctx.snapshot
      = (definition.resolveWith expand ctx).snapshot := by
  cases definition with
  | node n => exact n.snapshot_resolveWith hexpand ctx
  | host h => exact h.snapshot_resolveWith hexpand ctx

end

/-- Fragments come to the same at every depth. -/
theorem snapshot_resolveFragmentWithin (depth : Nat) :
    Corresponds (resolveFragmentWithin depth) (SnapshotContext.resolveFragmentWithin depth) := by
  induction depth with
  | zero => exact fun _ _ => rfl
  | succ depth ih =>
    intro name ctx
    have hregistry : ctx.snapshot.registry = ctx.registry := rfl
    have hoptions : ctx.snapshot.options = ctx.options := rfl
    have hactive : ctx.snapshot.active = ctx.active := rfl
    rw [SnapshotContext.resolveFragmentWithin, resolveFragmentWithin, hregistry, hoptions, hactive]
    cases ctx.registry.get? name with
    | none => rfl
    | some definition =>
      simp only
      split
      · rfl
      · rw [← Context.snapshot_enter, definition.snapshot_resolveWith ih]
        cases definition.resolveWith (resolveFragmentWithin depth) (ctx.enter name) <;> rfl

namespace Context

/-- A fragment comes to the same, with a copy for each frame. -/
theorem snapshot_resolveFragment (ctx : Context) (name : String) :
    ctx.snapshot.resolveFragment name = (ctx.resolveFragment name).snapshot :=
  snapshot_resolveFragmentWithin ctx.depthBound name ctx

/-- So does a statement. -/
theorem snapshot_resolveStatement (ctx : Context) (id : String) :
    ctx.snapshot.resolveStatement id = (ctx.resolveStatement id).snapshot :=
  ctx.snapshot_resolveFragment (qualify ctx.space id)

/-- And so does a node. -/
theorem snapshot_resolveNode (ctx : Context) (node : Node) :
    ctx.snapshot.resolveNode node = (ctx.resolveNode node).snapshot :=
  node.snapshot_resolveWith (snapshot_resolveFragmentWithin ctx.depthBound) ctx

end Context

/-! ## Scripts -/

/-- One operation of a script. -/
inductive Step where
  | set (name value : String)
  | get (name : String)
  | pushFrame
  | popFrame
  | register (name : String) (definition : Definition)
  | resolveFragment (name : String)
  | resolveStatement (id : String)
  /-- Resolves a node on its own, such as an include. -/
  | resolveNode (node : Node)

/-- What an operation answers. -/
inductive Reply where
  /-- The operation has no answer. -/
  | done
  | value (value : Option String)
  /-- The definition that a registration replaces. -/
  | replaced (former : Option Definition)
  | resolved (answer : Except NodeError String)

namespace Step

/-- Carries out an operation. -/
def run (ctx : Context) : Step → Option (Reply × Context)
  | .set name value => some (.done, ctx.set name value)
  | .get name => some (.value (ctx.get? name), ctx)
  | .pushFrame => some (.done, ctx.pushFrame)
  | .popFrame => some (.done, ctx.popFrame)
  | .register name definition =>
    some (.replaced (ctx.registry.get? name), ctx.register name definition)
  | .resolveFragment name => (ctx.resolveFragment name).map fun r => (.resolved r.1, r.2)
  | .resolveStatement id => (ctx.resolveStatement id).map fun r => (.resolved r.1, r.2)
  | .resolveNode node => (ctx.resolveNode node).map fun r => (.resolved r.1, r.2)

/-- Carries out an operation in a context that copies. -/
def runCopying (ctx : SnapshotContext) : Step → Option (Reply × SnapshotContext)
  | .set name value => some (.done, ctx.set name value)
  | .get name => some (.value (ctx.values.get? name), ctx)
  | .pushFrame => some (.done, ctx.pushFrame)
  | .popFrame => some (.done, ctx.popFrame)
  | .register name definition =>
    some (.replaced (ctx.registry.get? name), ctx.register name definition)
  | .resolveFragment name => (ctx.resolveFragment name).map fun r => (.resolved r.1, r.2)
  | .resolveStatement id => (ctx.resolveStatement id).map fun r => (.resolved r.1, r.2)
  | .resolveNode node => (ctx.resolveNode node).map fun r => (.resolved r.1, r.2)

/-- The replies to a script, each with the variables after its operation. -/
def trace (ctx : Context) : List Step → Option (List (Reply × Dict String))
  | [] => some []
  | step :: script => do
    let (reply, after) ← step.run ctx
    let more ← trace after script
    return (reply, after.bindings.values) :: more

/-- The replies to a script in a context that copies, and the variables after each operation. -/
def traceCopying (ctx : SnapshotContext) : List Step → Option (List (Reply × Dict String))
  | [] => some []
  | step :: script => do
    let (reply, after) ← step.runCopying ctx
    let more ← traceCopying after script
    return (reply, after.values) :: more

/-- An operation gets the same reply from either context, and leads to contexts that correspond. -/
theorem runCopying_snapshot (ctx : Context) (step : Step) :
    step.runCopying ctx.snapshot = (step.run ctx).map fun r => (r.1, r.2.snapshot) := by
  cases step with
  | set name value => simp [run, runCopying]
  | get name => rfl
  | pushFrame => rfl
  | popFrame => simp [run, runCopying]
  | register name definition => rfl
  | resolveFragment name =>
    simp [run, runCopying, ctx.snapshot_resolveFragment, Resolution.snapshot, Function.comp_def]
  | resolveStatement id =>
    simp [run, runCopying, ctx.snapshot_resolveStatement, Resolution.snapshot, Function.comp_def]
  | resolveNode node =>
    simp [run, runCopying, ctx.snapshot_resolveNode, Resolution.snapshot, Function.comp_def]

/-- With cycle detection every operation ends, and leaves the options as they were. -/
theorem exists_run {ctx : Context} (hdetect : ctx.options.detectCycles = true) (step : Step) :
    ∃ reply after, step.run ctx = some (reply, after) ∧ after.options = ctx.options := by
  have hsettles : ∀ {r : Resolution}, ctx.Settles r →
      ∃ reply after, r.map (fun r => (Reply.resolved r.1, r.2)) = some (reply, after) ∧
        after.options = ctx.options := by
    rintro r ⟨answer, after, rfl, hafter⟩
    exact ⟨.resolved answer, after, rfl, hafter.options⟩
  cases step with
  | set name value => exact ⟨_, _, rfl, rfl⟩
  | get name => exact ⟨_, _, rfl, rfl⟩
  | pushFrame => exact ⟨_, _, rfl, rfl⟩
  | popFrame => exact ⟨_, _, rfl, rfl⟩
  | register name definition => exact ⟨_, _, rfl, rfl⟩
  | resolveFragment name => exact hsettles (ctx.resolveFragment_settles hdetect name)
  | resolveStatement id => exact hsettles (ctx.resolveFragment_settles hdetect (qualify ctx.space id))
  | resolveNode node => exact hsettles (ctx.resolveDefinition_settles hdetect (.node node))

/-- There is one reply for each operation. -/
theorem length_trace {ctx : Context} {script : List Step} {replies : List (Reply × Dict String)}
    (h : trace ctx script = some replies) : replies.length = script.length := by
  induction script generalizing ctx replies with
  | nil =>
    rw [← Option.some.inj h]
    rfl
  | cons step script ih =>
    simp only [trace, Option.bind_eq_bind, Option.bind_eq_some_iff, Prod.exists,
      Option.pure_def, Option.some.injEq] at h
    obtain ⟨reply, after, -, more, hmore, rfl⟩ := h
    rw [List.length_cons, List.length_cons, ih hmore]

/-- With cycle detection a script comes to its end, with the same replies and variables from either
context. -/
theorem exists_trace {ctx : Context} (hdetect : ctx.options.detectCycles = true)
    (script : List Step) :
    ∃ replies, trace ctx script = some replies ∧ traceCopying ctx.snapshot script = some replies := by
  -- on the script; detection stays switched on from one operation to the next
  induction script generalizing ctx with
  | nil => exact ⟨[], rfl, rfl⟩
  | cons step script ih =>
    obtain ⟨reply, after, hrun, hoptions⟩ := step.exists_run hdetect
    obtain ⟨more, htrace, hcopying⟩ := ih (hoptions ▸ hdetect)
    have hrunCopying : step.runCopying ctx.snapshot = some (reply, after.snapshot) := by
      rw [runCopying_snapshot, hrun]
      rfl
    refine ⟨(reply, after.bindings.values) :: more, ?_, ?_⟩
    · rw [trace, hrun]
      simp [htrace]
    · rw [traceCopying, hrunCopying]
      simp only [Option.bind_eq_bind, Option.bind_some, hcopying]
      rfl

end Step

/-- A context without open frames, to be gone on with by copying. -/
def SnapshotContext.ofContext (ctx : Context) : SnapshotContext :=
  ⟨ctx.space, ctx.bindings.values, [], ctx.registry, ctx.options, ctx.active, ctx.meters⟩

/-- Without open frames there are no copies. -/
theorem Context.snapshot_of_frames_eq_nil {ctx : Context} (h : ctx.bindings.frames = []) :
    ctx.snapshot = SnapshotContext.ofContext ctx := by
  rw [snapshot, h]
  rfl

/-- **Frames behave as full copies.** A script of settings, look-ups, frames, registrations and
resolutions, carried out with cycle detection in a context without open frames, comes to its end.
Its replies and the variables after every operation are those of a context that copies all
variables when a frame is opened and puts the last copy back when one is closed. -/
theorem trace_eq_traceCopying {ctx : Context} (hdetect : ctx.options.detectCycles = true)
    (hframes : ctx.bindings.frames = []) (script : List Step) :
    ∃ replies, Step.trace ctx script = some replies ∧ replies.length = script.length ∧
      Step.traceCopying (SnapshotContext.ofContext ctx) script = some replies := by
  obtain ⟨replies, htrace, hcopying⟩ := Step.exists_trace hdetect script
  rw [Context.snapshot_of_frames_eq_nil hframes] at hcopying
  exact ⟨replies, htrace, Step.length_trace htrace, hcopying⟩

/-- A variable is first set in an inner frame and then in the outer one, a fragment of the
application sets another, and one frame more is closed than was opened. -/
def Step.sampleScript : List Step := [
  .set "a" "1", .pushFrame, .pushFrame, .set "a" "2", .popFrame, .set "a" "3",
  .register "m.b" (.host (.assign "b" "4")), .resolveFragment "m.b",
  .resolveNode (.include ⟨"m", some (.literal "b"), Dict.empty.insert "a" ⟨"a", "5"⟩⟩),
  .popFrame, .popFrame, .get "a"]

/-- The sample script comes to its end, and its variables are those that copies would show. -/
theorem trace_eq_traceCopying_sampleScript :
    (Context.empty "m" {}).options.detectCycles = true ∧
    (Context.empty "m" {}).bindings.frames = [] ∧
    (∃ replies, Step.trace (Context.empty "m" {}) Step.sampleScript = some replies ∧
      replies.length = Step.sampleScript.length ∧
      Step.traceCopying (SnapshotContext.ofContext (Context.empty "m" {})) Step.sampleScript
        = some replies) ∧
    (Step.trace (Context.empty "m" {}) Step.sampleScript).map (·.map (·.2.entries))
      = some [[("a", "1")], [("a", "1")], [("a", "1")], [("a", "2")], [("a", "1")], [("a", "3")],
          [("a", "3")], [("a", "3"), ("b", "4")], [("a", "5"), ("b", "4")], [("a", "1")],
          [("a", "1")], [("a", "1")]] :=
  ⟨rfl, rfl, trace_eq_traceCopying rfl rfl Step.sampleScript, by cbv⟩

end SqlFragments
