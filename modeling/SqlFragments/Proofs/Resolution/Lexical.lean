import Mathlib
import SqlFragments.Proofs.Resolution.Depth

/-! # Scoped resolution is lexical

An evaluator without side effects: the environment, the value of each variable that has one, is an
argument, and so is the chain of the names that are being resolved. Text reads the environment, an
include extends it for its own target alone, and nothing is ever taken back.

* `Lexical.evaluate`: the evaluator, total because each name is entered once on a chain;
* `Lexical.resolveWith_eq`: a node resolved with scoped bindings gives what it evaluates to, and
  the context it leaves is the one it was given;
* `resolveStatement_eq_evaluate`: so does a statement, in every sequence of resolutions. -/

namespace SqlFragments

open SqlFragments.Placeholder

namespace Lexical

/-! ## The evaluator -/

/-- The value of each variable that has one. -/
abbrev Environment := String → Option String

/-- The environment inside of an include: where a property has the name the property's value
counts, the last one's if there are several. -/
def Environment.overlay (env : Environment) (properties : List Property) : Environment :=
  fun name =>
    match properties.reverse.find? (·.name = name) with
    | some p => some p.value
    | none => env name

/-- What a token stands for. -/
def piece (env : Environment) : Token → Except NodeError String
  | .literal text => .ok text
  | .variable name => (env name).elim (.error (.undefinedVariable name)) .ok
  | .parameter expr => .ok ("#\x7b" ++ expr ++ "\x7d")
  | .endOfText => .ok ""

/-- The fragment that an include points at. -/
def target (env : Environment) (inc : Include) : Except NodeError String :=
  match inc.reference with
  | none => .error .missingReference
  | some (.literal id) => .ok (qualify inc.space id)
  | some (.variable name) => (env name).elim (.error (.undefinedVariable name)) .ok

section

variable (expand : String → Environment → Except NodeError String)

mutual

/-- The text of a node, `expand` giving the text of a fragment in an environment. -/
def evaluateNode (env : Environment) : Node → Except NodeError String
  | .text tokens => String.join <$> tokens.mapM (piece env)
  | .property _ => .ok ""
  | .include inc => do
    let inner := env.overlay inc.properties.values
    let name ← target inner inc
    expand name inner
  | .fragment _ _ children => evaluateAll env children

/-- The texts of nodes one after the other, all in the same environment. -/
def evaluateAll (env : Environment) : List Node → Except NodeError String
  | [] => .ok ""
  | node :: nodes => do
    let first ← evaluateNode env node
    let more ← evaluateAll env nodes
    return first ++ more

end

end

/-- The text of the fragment of a name in a library, `chain` being the names that are being
resolved, the outermost first. -/
def evaluate (library : Dict Node) (chain : List String) (name : String) (env : Environment) :
    Except NodeError String :=
  match _h : library.get? name with
  | none => .error (.fragmentNotFound name)
  | some body =>
    if _hnew : name ∈ chain then .error (.cyclicReference (chain ++ [name]))
    else evaluateNode (fun next inner => evaluate library (chain ++ [name]) next inner) env body
termination_by (library.keys.filter (· ∉ chain)).length
decreasing_by
  have hkey : name ∈ library.keys := Dict.mem_keys_iff.2 (by rw [_h]; rfl)
  simpa [or_comm] using Dict.length_filter_notMem_cons_lt hkey _hnew

/-! ## Environments and bindings -/

/-- The first property is bound beneath the others. -/
theorem overlay_cons (env : Environment) (p : Property) (properties : List Property) :
    env.overlay (p :: properties)
      = Environment.overlay (fun name => if p.name = name then some p.value else env name)
          properties := by
  funext name
  simp only [Environment.overlay, List.reverse_cons, List.find?_append]
  cases properties.reverse.find? (·.name = name) with
  | some q => rfl
  | none => by_cases h : p.name = name <;> simp [h]

/-- Binding properties extends the environment by them. -/
theorem get?_bindAll (b : Bindings) (properties : List Property) :
    (b.bindAll properties).get? = Environment.overlay b.get? properties := by
  induction properties generalizing b with
  | nil => rfl
  | cons p properties ih =>
    rw [Bindings.bindAll_cons, ih, overlay_cons]
    congr 1
    funext name
    exact Bindings.get?_set b p.name name p.value

/-- The text of tokens is their pieces joined, or the first error among them. -/
theorem renderTokens_eq (values : Dict String) (tokens : List Token) :
    renderTokens values tokens = String.join <$> tokens.mapM (piece values.get?) := by
  induction tokens with
  | nil => rfl
  | cons token tokens ih =>
    -- the pieces after the first are joined to it, or the first error stops both
    have hjoin : ∀ text : String,
        (renderTokens values tokens).map (text ++ ·)
          = String.join <$> (do return text :: (← tokens.mapM (piece values.get?))) := by
      intro text
      rw [ih]
      cases tokens.mapM (piece values.get?) with
      | error e => rfl
      | ok pieces => exact congrArg Except.ok String.join_cons.symm
    rw [List.mapM_cons]
    cases token with
    | literal text => exact hjoin text
    | «variable» name =>
      rw [renderTokens, piece]
      cases values.get? name with
      | none => rfl
      | some value => exact hjoin value
    | parameter expr => exact hjoin _
    | endOfText =>
      have hempty : (renderTokens values tokens).map ("" ++ ·) = renderTokens values tokens := by
        cases renderTokens values tokens <;> simp [Except.map]
      exact hempty.symm.trans (hjoin "")

/-- An include points at the same fragment, be its target read from values or from an environment.
-/
theorem target_eq (values : Dict String) (inc : Include) :
    inc.target values = target values.get? inc := by
  rw [Include.target, target]
  cases inc.reference with
  | none => rfl
  | some reference =>
    cases reference with
    | literal id => rfl
    | «variable» name =>
      simp only
      cases values.get? name <;> rfl

/-! ## The simulation -/

section

variable {expand : String → Context → Resolution}
  {pureExpand : String → Environment → Except NodeError String}

/-- **An include extends the environment for its target alone**: the frame is closed behind it,
whatever the answer was. -/
theorem include_resolveWith_eq (ctx : Context) (hscoped : ctx.options.scopedBindings = true)
    (hexpand : ∀ name b, expand name { ctx with bindings := b }
      = some (pureExpand name b.get?, { ctx with bindings := b }))
    (inc : Include) (b : Bindings) :
    inc.resolveWith expand { ctx with bindings := b }
      = some (evaluateNode pureExpand b.get? (.include inc), { ctx with bindings := b }) := by
  -- the properties are bound in a frame of their own
  have hbound : Context.bindAll (Context.pushFrame { ctx with bindings := b })
      inc.properties.values
        = { ctx with bindings := b.pushFrame.bindAll inc.properties.values } :=
    Context.bindAll_eq _ _
  have henv : (b.pushFrame.bindAll inc.properties.values).get?
      = Environment.overlay b.get? inc.properties.values :=
    get?_bindAll b.pushFrame inc.properties.values
  have hpop : Context.popFrame
      { ctx with bindings := b.pushFrame.bindAll inc.properties.values }
        = { ctx with bindings := b } := by
    simp [Context.popFrame]
  have htarget : inc.target (b.pushFrame.bindAll inc.properties.values).values
      = target (Environment.overlay b.get? inc.properties.values) inc := by
    rw [target_eq, ← henv]
    rfl
  simp only [Include.resolveWith, hscoped, if_true, Include.resolveBound, hbound, htarget,
    evaluateNode]
  -- the frame is closed on both ways out, without a target and behind its resolution
  cases target (Environment.overlay b.get? inc.properties.values) inc with
  | error e => simp only [Option.map_some, hpop]; rfl
  | ok name =>
    simp only [hexpand, Option.map_some, hpop, henv]
    rfl

mutual

/-- **A node resolves to what it evaluates to**, and leaves no trace in the context. -/
theorem resolveWith_eq (ctx : Context) (hscoped : ctx.options.scopedBindings = true)
    (hexpand : ∀ name b, expand name { ctx with bindings := b }
      = some (pureExpand name b.get?, { ctx with bindings := b })) :
    ∀ (node : Node) (b : Bindings), node.resolveWith expand { ctx with bindings := b }
      = some (evaluateNode pureExpand b.get? node, { ctx with bindings := b })
  | .text tokens, b => congrArg (fun r => some (r, _)) (renderTokens_eq b.values tokens)
  | .property _, _ => rfl
  | .include inc, b => include_resolveWith_eq ctx hscoped hexpand inc b
  | .fragment _ _ children, b => resolveAllWith_eq ctx hscoped hexpand children b

/-- So do nodes one after the other, each in the environment that the first was given. -/
theorem resolveAllWith_eq (ctx : Context) (hscoped : ctx.options.scopedBindings = true)
    (hexpand : ∀ name b, expand name { ctx with bindings := b }
      = some (pureExpand name b.get?, { ctx with bindings := b })) :
    ∀ (nodes : List Node) (b : Bindings),
      Node.resolveAllWith expand nodes { ctx with bindings := b }
        = some (evaluateAll pureExpand b.get? nodes, { ctx with bindings := b })
  | [], _ => rfl
  | node :: nodes, b => by
    rw [Node.resolveAllWith, resolveWith_eq ctx hscoped hexpand node b, evaluateAll]
    cases evaluateNode pureExpand b.get? node with
    | error e => rfl
    | ok first =>
      simp only [resolveAllWith_eq ctx hscoped hexpand nodes b]
      cases evaluateAll pureExpand b.get? nodes <;> rfl

end

end

end Lexical

/-! ## Statements -/

namespace Context

/-- The fragments of a context are the nodes of a library. -/
def Holds (ctx : Context) (library : Dict Node) : Prop :=
  ∀ name, ctx.registry.get? name = (library.get? name).map .node

/-- A context that differs only in its variables holds the same library. -/
theorem Holds.of_sameSetting {ctx c : Context} {library : Dict Node} (hold : ctx.Holds library)
    (h : ctx.SameSetting c) : c.Holds library := fun name => by rw [h.registry, hold name]

/-- Registering a node in a context puts it into the library. -/
theorem Holds.register {ctx : Context} {library : Dict Node} (h : ctx.Holds library)
    (name : String) (node : Node) :
    (ctx.register name (.node node)).Holds (library.insert name node) := by
  intro other
  rw [Context.register, Dict.get?_insert, Dict.get?_insert, h other]
  split <;> rfl

/-- Registers nodes under their names, one after the other. -/
def registerNodes (ctx : Context) (entries : List (String × Node)) : Context :=
  entries.foldl (fun ctx e => ctx.register e.1 (.node e.2)) ctx

/-- Every library is that of some context: its nodes need only be registered. -/
theorem holds_registerNodes {ctx : Context} (h : ctx.registry = .empty)
    (entries : List (String × Node)) : (ctx.registerNodes entries).Holds (Dict.ofList entries) := by
  have hfold : ∀ (library : Dict Node) (ctx : Context), ctx.Holds library →
      (ctx.registerNodes entries).Holds
        (entries.foldl (fun d e => d.insert e.1 e.2) library) := by
    induction entries with
    | nil => exact fun _ _ hold => hold
    | cons e entries ih => exact fun _ _ hold => ih _ _ (hold.register e.1 e.2)
  apply hfold
  intro name
  rw [h]
  rfl

end Context

/-- **A fragment resolves to what it evaluates to**, if the depth is enough for the names that have
not been entered. -/
theorem Lexical.resolveFragmentWithin_eq {library : Dict Node} {depth : Nat} (name : String)
    {ctx : Context} (hold : ctx.Holds library) (hscoped : ctx.options.scopedBindings = true)
    (hdetect : ctx.options.detectCycles = true) (hdepth : ctx.unentered < depth) :
    resolveFragmentWithin depth name ctx
      = some (evaluate library ctx.active.reverse name ctx.bindings.get?, ctx) := by
  -- the induction is on the depth, of which entering a name takes one, as it takes one name
  induction depth generalizing name ctx with
  | zero => exact absurd hdepth (Nat.not_lt_zero _)
  | succ depth ih =>
    rw [resolveFragmentWithin, evaluate, hold name]
    cases hlib : library.get? name with
    | none => rfl
    | some body =>
      simp only [Option.map_some, hdetect, Bool.true_and, List.mem_reverse,
        List.contains_iff_mem]
      split
      · rfl
      · rename_i hnew
        -- inside the fragment its name is on the chain and one name fewer is left to enter
        have hexpand : ∀ next b,
            resolveFragmentWithin depth next { ctx.enter name with bindings := b }
              = some (evaluate library (ctx.active.reverse ++ [name]) next b.get?,
                  { ctx.enter name with bindings := b }) := by
          intro next b
          have hreg : ctx.registry.get? name = some (.node body) := by
            rw [hold name, hlib]
            rfl
          have hlt : (ctx.enter name).unentered < depth := by
            have := ctx.unentered_enter_lt hreg hnew
            omega
          rw [← List.reverse_cons]
          exact @ih next { ctx.enter name with bindings := b } hold hscoped hdetect hlt
        have hbody : body.resolveWith (resolveFragmentWithin depth) (ctx.enter name)
            = some (evaluateNode
                (fun next inner => evaluate library (ctx.active.reverse ++ [name]) next inner)
                ctx.bindings.get? body, ctx.enter name) :=
          resolveWith_eq (ctx.enter name) hscoped hexpand body ctx.bindings
        rw [Definition.resolveWith, hbody]
        rfl

/-- Resolves statements one after the other, each in the context that the one before it leaves.
An error does not keep the later ones from being resolved. -/
def Context.resolveStatements (ctx : Context) :
    List String → Option (List (Except NodeError String) × Context)
  | [] => some ([], ctx)
  | id :: ids => do
    let (answer, mid) ← ctx.resolveStatement id
    let (answers, after) ← mid.resolveStatements ids
    return (answer :: answers, after)

/-- What a statement evaluates to in a library. -/
def Lexical.evaluateStatement (library : Dict Node) (space id : String) (env : Environment) :
    Except NodeError String :=
  evaluate library [] (qualify space id) env

/-- One statement: the answer is what it evaluates to, and the context stays as it was. -/
theorem Lexical.resolveStatement_eq {ctx : Context} {library : Dict Node}
    (hold : ctx.Holds library) (hscoped : ctx.options.scopedBindings = true)
    (hdetect : ctx.options.detectCycles = true) (hidle : ctx.active = []) (id : String) :
    ctx.resolveStatement id
      = some (evaluateStatement library ctx.space id ctx.get?, ctx) := by
  have h := resolveFragmentWithin_eq (qualify ctx.space id) hold hscoped hdetect
    (Context.unentered_lt_depthBound hdetect)
  rw [hidle] at h
  exact h

/-- **Scoped resolution is lexical.** With scoped bindings and cycle detection, a statement of a
context in which nothing is being resolved comes to what the evaluator gives for it in the
environment of the context's variables, be it a text or an error. The context is left as it was,
so in a sequence of resolutions, some of which may fail, each gives what it would give alone. -/
theorem resolveStatement_eq_evaluate {ctx : Context} {library : Dict Node}
    (hold : ctx.Holds library) (hscoped : ctx.options.scopedBindings = true)
    (hdetect : ctx.options.detectCycles = true) (hidle : ctx.active = []) :
    (∀ id, ctx.resolveStatement id
      = some (Lexical.evaluateStatement library ctx.space id ctx.get?, ctx)) ∧
    ∀ ids, ctx.resolveStatements ids
      = some (ids.map fun id => Lexical.evaluateStatement library ctx.space id ctx.get?, ctx) := by
  have hone := Lexical.resolveStatement_eq hold hscoped hdetect hidle
  refine ⟨hone, fun ids => ?_⟩
  induction ids with
  | nil => rfl
  | cons id ids ih =>
    rw [Context.resolveStatements, hone id]
    simp only [Option.bind_eq_bind, Option.bind_some, ih]
    rfl

/-- Fragments in which an include binds a variable that an inner one binds again, a reference is
read from a binding, and a fragment includes itself. -/
def Lexical.sampleNodes : List (String × Node) := [
  ("m.base", .text [.literal "t=", .variable "t"]),
  ("m.mid", .fragment "sql" "mid"
    [.include ⟨"m", some (.variable "source"), Dict.empty.insert "t" ⟨"t", "2"⟩⟩,
      .text [.variable "t"]]),
  ("m.top", .fragment "select" "top"
    [.include ⟨"m", some (.literal "mid"),
        (Dict.empty.insert "source" ⟨"source", "m.base"⟩).insert "t" ⟨"t", "1"⟩⟩,
      .text [.variable "t"]]),
  ("m.loop", .fragment "select" "loop"
    [.include ⟨"m", some (.literal "loop"), Dict.empty.insert "t" ⟨"t", "3"⟩⟩])]

/-- A context with these fragments in which `t` has a value and a frame is open. -/
def Lexical.sampleContext : Context :=
  Context.registerNodes ⟨"m", ⟨Dict.empty.insert "t" "0", [[]]⟩, .empty, ⟨true, true⟩, [], []⟩
    sampleNodes

/-- A statement between others that fail comes to the same text each time. -/
theorem resolveStatement_eq_evaluate_rebinding :
    Lexical.sampleContext.Holds (Dict.ofList Lexical.sampleNodes) ∧
    Lexical.sampleContext.options.scopedBindings = true ∧
    Lexical.sampleContext.options.detectCycles = true ∧
    Lexical.sampleContext.active = [] ∧
    Lexical.sampleContext.resolveStatements ["loop", "top", "m.none", "top"]
      = some ([.error (.cyclicReference ["m.loop", "m.loop"]), .ok "t=210",
          .error (.fragmentNotFound "m.none"), .ok "t=210"], Lexical.sampleContext) := by
  have hold : Lexical.sampleContext.Holds (Dict.ofList Lexical.sampleNodes) :=
    Context.holds_registerNodes rfl Lexical.sampleNodes
  refine ⟨hold, rfl, rfl, rfl, ?_⟩
  rw [(resolveStatement_eq_evaluate hold rfl rfl rfl).2]
  congr 2
  cbv

end SqlFragments
