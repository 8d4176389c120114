import SqlFragments.Proofs.Except
import SqlFragments.Proofs.Resolution.Unscoped

/-! # Consistent bindings need no scopes

If all includes that bind a variable give it the same value, and no other value is there from the
start, then bindings that stay can do no harm: what an include has left behind is what a later one
would bind. Without scoped bindings a run then comes to what the lexical evaluator gives, wherever
that is a text.

* `Consistent`, `Agrees`: properties that give each variable one value, and an environment in which
  no variable has another one;
* `Agrees.within_overlay`, `Agrees.overlay`: binding such properties changes no value that is there;
* `Run.ok_of_evaluate`: an unscoped run comes to the text that the evaluator gives in a smaller
  environment;
* `resolveStatement_unscoped_of_scoped`: so a statement that is resolved with scoped bindings is
  resolved to the same text without them. -/

namespace SqlFragments

open SqlFragments.Placeholder
open Lexical (Environment)

/-! ## Properties that agree -/

/-- No two properties give a variable different values. -/
def Consistent (properties : List Property) : Prop :=
  ∀ p ∈ properties, ∀ q ∈ properties, p.name = q.name → p.value = q.value

/-- Each variable has no value or the one that the properties give it. -/
def Agrees (env : Environment) (properties : List Property) : Prop :=
  ∀ p ∈ properties, env p.name = none ∨ env p.name = some p.value

instance (properties : List Property) : Decidable (Consistent properties) :=
  inferInstanceAs (Decidable (∀ p ∈ properties, ∀ q ∈ properties, p.name = q.name →
    p.value = q.value))

instance (env : Environment) (properties : List Property) : Decidable (Agrees env properties) :=
  inferInstanceAs (Decidable (∀ p ∈ properties, env p.name = none ∨ env p.name = some p.value))

/-- The properties of all includes in a library. -/
def propertiesIn (library : Dict Node) : List Property :=
  propertiesOf (library.values.flatMap Node.includes)

namespace Lexical

/-- Every value of the first environment is there in the second. -/
def Environment.Within (env more : Environment) : Prop :=
  ∀ name value, env name = some value → more name = some value

variable {env more : Environment} {properties all : List Property}

/-- Being a part of an environment goes on along a chain of them. -/
theorem Environment.Within.trans {last : Environment} (h : env.Within more)
    (h' : more.Within last) : env.Within last :=
  fun name value hvalue => h' name value (h name value hvalue)

/-- Where an environment is extended, a variable has the value of a property of its name, or there
is none of its name. -/
theorem Environment.overlay_cases (env : Environment) (properties : List Property)
    (name : String) :
    (∃ p ∈ properties, p.name = name ∧ env.overlay properties name = some p.value) ∨
      env.overlay properties name = env name := by
  rw [Environment.overlay]
  -- the last property of the name decides, if there is one
  cases hfound : properties.reverse.find? (·.name = name) with
  | none => exact .inr rfl
  | some p =>
    have hname : p.name = name := by simpa using List.find?_some hfound
    exact .inl ⟨p, List.mem_reverse.1 (List.mem_of_find?_eq_some hfound), hname, rfl⟩

/-- The same properties on top of both leave the first a part of the second. -/
theorem Environment.Within.overlay (h : env.Within more) (properties : List Property) :
    (env.overlay properties).Within (more.overlay properties) := by
  intro name value hvalue
  rw [Environment.overlay] at hvalue ⊢
  cases hfound : properties.reverse.find? (·.name = name) with
  | none =>
    rw [hfound] at hvalue
    exact h name value hvalue
  | some p => rwa [hfound] at hvalue

/-- A token that has a text in an environment has the same text in a larger one. -/
theorem piece_of_within (h : env.Within more) {token : Token} {text : String}
    (htext : piece env token = .ok text) : piece more token = .ok text := by
  cases token with
  | literal _ | parameter _ | endOfText => exact htext
  | «variable» name =>
    rw [piece] at htext ⊢
    cases hvalue : env name with
    | none =>
      rw [hvalue] at htext
      cases htext
    | some value =>
      rw [hvalue] at htext
      rw [h name value hvalue]
      exact htext

/-- A text that can be read in an environment reads the same in a larger one. -/
theorem mapM_piece_of_within (h : env.Within more) {tokens : List Token} {pieces : List String}
    (hpieces : tokens.mapM (piece env) = .ok pieces) : tokens.mapM (piece more) = .ok pieces := by
  induction tokens generalizing pieces with
  | nil => exact hpieces
  | cons token tokens ih =>
    rw [List.mapM_cons] at hpieces ⊢
    obtain ⟨text, htext, hrest⟩ := bind_eq_ok.1 hpieces
    obtain ⟨rest, hrest, heq⟩ := bind_eq_ok.1 hrest
    rw [piece_of_within h htext]
    show (do return text :: (← tokens.mapM (piece more))) = Except.ok pieces
    rw [ih hrest]
    exact heq

/-- An include that points at a name in an environment points at it in a larger one. -/
theorem target_of_within (h : env.Within more) {inc : Include} {name : String}
    (htarget : target env inc = .ok name) : target more inc = .ok name := by
  rw [target] at htarget ⊢
  split at htarget
  · cases htarget
  · exact htarget
  · rename_i reference _
    cases hvalue : env reference with
    | none =>
      rw [hvalue] at htarget
      cases htarget
    | some value =>
      rw [hvalue] at htarget
      rw [h reference value hvalue]
      exact htarget

end Lexical

namespace Agrees

variable {env : Environment} {properties all : List Property}

/-- **Nothing is overwritten**: properties that agree with the values that are there leave them as
they are. -/
theorem within_overlay (h : Agrees env all) (hsub : properties ⊆ all) :
    env.Within (env.overlay properties) := by
  intro name value hvalue
  rcases env.overlay_cases properties name with ⟨p, hp, rfl, hoverlay⟩ | hsame
  · rcases h p (hsub hp) with hnone | hsome
    · cases hnone.symm.trans hvalue
    · rw [hoverlay, ← hsome, hvalue]
  · rw [hsame, hvalue]

/-- So the values still agree where such properties have been bound. -/
theorem overlay (h : Agrees env all) (hconsistent : Consistent all) (hsub : properties ⊆ all) :
    Agrees (env.overlay properties) all := by
  intro q hq
  rcases env.overlay_cases properties q.name with ⟨p, hp, hname, hoverlay⟩ | hsame
  · right
    rw [hoverlay, hconsistent p (hsub hp) q hq hname]
  · rw [hsame]
    exact h q hq

end Agrees

/-! ## What the evaluator succeeds with -/

namespace Lexical

variable {library : Dict Node} {chain : List String} {env : Environment} {text : String}

/-- What a subject evaluates to in a library, `chain` being the names that are being resolved. -/
def evaluateSubject (library : Dict Node) (chain : List String) (env : Environment) :
    Subject → Except NodeError String
  | .name name => evaluate library chain name env
  | .node node => evaluateNode (evaluate library chain) env node
  | .nodes nodes => evaluateAll (evaluate library chain) env nodes

/-- A name that evaluates to a text is in the library, is not being resolved, and its body evaluates
to that text. -/
theorem exists_of_evaluate_eq_ok {name : String} (h : evaluate library chain name env = .ok text) :
    ∃ body, library.get? name = some body ∧ name ∉ chain ∧
      evaluateNode (evaluate library (chain ++ [name])) env body = .ok text := by
  rw [evaluate] at h
  split at h
  · cases h
  · rename_i body hbody
    split at h
    · cases h
    · exact ⟨body, hbody, ‹_›, h⟩

end Lexical

/-! ## Unscoped runs with consistent bindings -/

/-- What includes in a library bind is among its properties. -/
theorem properties_subset_propertiesIn {library : Dict Node} :
    ∀ body ∈ library.values, ∀ inc ∈ body.includes,
      inc.properties.values ⊆ propertiesIn library := by
  intro body hbody inc hinc p hp
  have hlib : inc ∈ library.values.flatMap Node.includes :=
    List.mem_flatMap.2 ⟨body, hbody, hinc⟩
  exact List.mem_flatMap.2 ⟨inc, hlib, hp⟩

/-- Binding for includes extends what the context knows by all their properties. -/
theorem Context.get?_bindIncludes_eq_overlay (ctx : Context) (incs : List Include) :
    (ctx.bindIncludes incs).get? = Environment.overlay ctx.get? (propertiesOf incs) :=
  Lexical.get?_bindAll ctx.bindings (propertiesOf incs)

/-- A context without scoped bindings that has all the values of an environment, and perhaps more of
those that the properties of its library give. -/
structure Context.Exceeds (ctx : Context) (library : Dict Node) (env : Environment) : Prop where
  holds : ctx.Holds library
  unscoped : ctx.options.scopedBindings = false
  within : env.Within ctx.get?
  agrees : Agrees ctx.get? (propertiesIn library)

/-- All that a run binds is among the properties of the library. -/
theorem Run.propertiesOf_visits_subset {library : Dict Node} {subject : Subject}
    {ctx after : Context} {visits : List Visit} {answer : Except NodeError String}
    (hold : ctx.Holds library) (h : Run subject ctx visits answer after)
    (hsubject : ∀ inc ∈ subject.includes, inc.properties.values ⊆ propertiesIn library) :
    propertiesOf (includesOf visits) ⊆ propertiesIn library := by
  intro p hp
  obtain ⟨inc, hinc, hp⟩ := List.mem_flatMap.1 hp
  exact h.forall_includes properties_subset_propertiesIn hold hsubject inc hinc hp

namespace Context.Exceeds

variable {library : Dict Node} {ctx : Context} {env : Environment}

/-- Inside of an include there are the values of the extended environment. -/
theorem inside (h : ctx.Exceeds library env) (hconsistent : Consistent (propertiesIn library))
    {inc : Include} (hbinds : inc.properties.values ⊆ propertiesIn library) :
    (inc.inside ctx).Exceeds library (env.overlay inc.properties.values) where
  holds := h.holds.of_sameSetting (inc.sameSetting_inside ctx)
  unscoped := (inc.sameSetting_inside ctx).options ▸ h.unscoped
  within := by
    rw [inc.get?_inside ctx]
    exact h.within.overlay _
  agrees := by
    rw [inc.get?_inside ctx]
    exact h.agrees.overlay hconsistent hbinds

/-- Behind a run there are perhaps more values, and none has been overwritten. -/
theorem after (h : ctx.Exceeds library env) (hconsistent : Consistent (propertiesIn library))
    {subject : Subject} {last : Context} {visits : List Visit} {answer : Except NodeError String}
    (hrun : Run subject ctx visits answer last)
    (hsubject : ∀ inc ∈ subject.includes, inc.properties.values ⊆ propertiesIn library) :
    last.Exceeds library env := by
  have hsub := hrun.propertiesOf_visits_subset h.holds hsubject
  have hsetting := hrun.keeps.toSameSetting
  have hlast : last.get? = Environment.overlay ctx.get? (propertiesOf (includesOf visits)) := by
    rw [hrun.after_eq_of_unscoped h.unscoped, get?_bindIncludes_eq_overlay]
  refine ⟨h.holds.of_sameSetting hsetting, hsetting.options ▸ h.unscoped, ?_, ?_⟩
  · rw [hlast]
    exact h.within.trans (h.agrees.within_overlay hsub)
  · rw [hlast]
    exact h.agrees.overlay hconsistent hsub

/-- The include of an environment points at the same name. -/
theorem target_eq (h : ctx.Exceeds library env) {inc : Include} {name : String}
    (hname : Lexical.target env inc = .ok name) : inc.target ctx.bindings.values = .ok name := by
  rw [Lexical.target_eq]
  exact Lexical.target_of_within h.within hname

end Context.Exceeds

/-- **An unscoped run comes to the text of the evaluator**, where bindings are consistent and all
values of the evaluator's environment are there. -/
theorem Run.ok_of_evaluate {library : Dict Node} {subject : Subject} {ctx after : Context}
    {visits : List Visit} {answer : Except NodeError String} {env : Environment} {text : String}
    (hconsistent : Consistent (propertiesIn library)) (h : Run subject ctx visits answer after)
    (hexceeds : ctx.Exceeds library env)
    (hsubject : ∀ inc ∈ subject.includes, inc.properties.values ⊆ propertiesIn library)
    (hok : Lexical.evaluateSubject library ctx.active.reverse env subject = .ok text) :
    answer = .ok text := by
  -- on the run; where the evaluator gives a text, the run can take no other rule
  induction h generalizing env text with
  | @missing name ctx hreg =>
    obtain ⟨body, hbody, -⟩ := Lexical.exists_of_evaluate_eq_ok hok
    rw [hexceeds.holds name, hbody] at hreg
    cases hreg
  | @cyclic name ctx body _ _ hactive =>
    obtain ⟨_, -, hnew, -⟩ := Lexical.exists_of_evaluate_eq_ok hok
    exact absurd (List.mem_reverse.2 hactive) hnew
  | @entered name ctx body visits answer last hreg _ _ ih =>
    obtain ⟨body', hlib, -, hbody⟩ := Lexical.exists_of_evaluate_eq_ok hok
    rw [hexceeds.holds name, hlib] at hreg
    cases hreg
    rw [← List.reverse_cons] at hbody
    have hentered : (ctx.enter name).Exceeds library env :=
      ⟨hexceeds.holds, hexceeds.unscoped, hexceeds.within, hexceeds.agrees⟩
    exact ih hentered (properties_subset_propertiesIn body (Dict.mem_values_of_get? hlib)) hbody
  | @text ts ctx =>
    have hjoined : String.join <$> ts.mapM (Lexical.piece env) = .ok text := hok
    obtain ⟨pieces, hpieces, rfl⟩ := map_eq_ok.1 hjoined
    rw [Lexical.renderTokens_eq]
    exact map_eq_ok.2 ⟨pieces, Lexical.mapM_piece_of_within hexceeds.within hpieces, rfl⟩
  | property => exact hok
  | @aimless inc ctx e htarget =>
    -- what the evaluator reads the reference from is there in the context too
    obtain ⟨name, hname, -⟩ := bind_eq_ok.1 hok
    have hinside := hexceeds.inside hconsistent (hsubject _ (List.mem_singleton_self _))
    cases (hinside.target_eq hname).symm.trans htarget
  | @included inc ctx name visits answer last htarget _ ih =>
    obtain ⟨name', hname, hexpand⟩ := bind_eq_ok.1 hok
    have hinside := hexceeds.inside hconsistent (hsubject _ (List.mem_singleton_self _))
    cases (hinside.target_eq hname).symm.trans htarget
    rw [← (inc.sameSetting_inside ctx).active] at hexpand
    exact ih hinside (fun _ hinc => nomatch hinc) hexpand
  | @fragment tag id children _ _ _ _ _ ih =>
    rw [Subject.includes, Node.includes_fragment] at hsubject
    exact ih hexceeds hsubject hok
  | nil => exact hok
  | stopped _ ih =>
    obtain ⟨first, hfirst, -⟩ := bind_eq_ok.1 hok
    cases ih hexceeds (fun inc hinc => hsubject inc (List.mem_append_left _ hinc)) hfirst
  | @next node nodes ctx visits first mid more answer after hrun _ ih ihMore =>
    obtain ⟨first', hfirst, hrest⟩ := bind_eq_ok.1 hok
    obtain ⟨rest, hmore, heq⟩ := bind_eq_ok.1 hrest
    have hnode := fun inc hinc => hsubject inc (List.mem_append_left _ hinc)
    cases ih hexceeds hnode hfirst
    -- the evaluator goes on in the same environment, the run with what the first node has left
    have hmid := hexceeds.after hconsistent hrun hnode
    rw [← hrun.keeps.active] at hmore
    rw [ihMore hmid (fun inc hinc => hsubject inc (List.mem_append_right _ hinc)) hmore]
    exact heq

/-! ## Statements -/

/-- The context with bindings that stay. -/
def Context.withoutScopes (ctx : Context) : Context :=
  { ctx with options := { ctx.options with scopedBindings := false } }

/-- **With consistent bindings scopes can be dropped.** If all includes in the fragments of a context
that bind a variable give it one and the same value, and the variable has this value or none to begin
with, then a statement that is resolved to a text with scoped bindings is resolved to the same text
when bindings stay; cycles are detected in both. What variables have afterwards includes what they
had before. -/
theorem resolveStatement_unscoped_of_scoped {ctx : Context} {library : Dict Node}
    (hold : ctx.Holds library) (hscoped : ctx.options.scopedBindings = true)
    (hdetect : ctx.options.detectCycles = true) (hidle : ctx.active = [])
    (hconsistent : Consistent (propertiesIn library))
    (hagrees : Agrees ctx.get? (propertiesIn library)) {id text : String} {after : Context}
    (h : ctx.resolveStatement id = some (.ok text, after)) :
    ∃ after', ctx.withoutScopes.resolveStatement id = some (.ok text, after') ∧
      Environment.Within ctx.get? after'.get? := by
  have hexceeds : ctx.withoutScopes.Exceeds library ctx.get? :=
    ⟨hold, rfl, fun _ _ hvalue => hvalue, hagrees⟩
  obtain ⟨answer, after', heq, hrun⟩ :=
    Context.exists_run hexceeds.holds hdetect (qualify ctx.space id)
  -- with scoped bindings a statement comes to what the evaluator gives
  have hevaluate : Lexical.evaluateStatement library ctx.space id ctx.get? = .ok text := by
    rw [Lexical.resolveStatement_eq hold hscoped hdetect hidle id] at h
    exact (Prod.mk.inj (Option.some.inj h)).1
  have hsubject : ∀ inc ∈ (Subject.name (qualify ctx.space id)).includes,
      inc.properties.values ⊆ propertiesIn library := fun _ hinc => nomatch hinc
  have hok : answer = .ok text := by
    refine hrun.ok_of_evaluate hconsistent hexceeds hsubject ?_
    have hactive : ctx.withoutScopes.active = [] := hidle
    rw [hactive]
    exact hevaluate
  rw [hok] at heq
  exact ⟨after', heq, (hexceeds.after hconsistent hrun hsubject).within⟩

/-- Fragments of which two bind a variable alike and a third one reads it without binding it. -/
def consistentSample : List (String × Node) := [
  ("m.base", .text [.literal "t=", .variable "t"]),
  ("m.mid", .fragment "sql" "mid"
    [.include ⟨"m", some (.variable "source"), Dict.empty.insert "t" ⟨"t", "1"⟩⟩,
      .include ⟨"m", some (.literal "base"), .empty⟩]),
  ("m.top", .fragment "select" "top"
    [.include ⟨"m", some (.literal "mid"),
        (Dict.empty.insert "source" ⟨"source", "m.base"⟩).insert "t" ⟨"t", "1"⟩⟩,
      .text [.variable "t"]])]

/-- A context with these fragments and scoped bindings, in which the variable has the same value. -/
def consistentSampleContext : Context :=
  Context.registerNodes ⟨"m", ⟨Dict.empty.insert "t" "1", []⟩, .empty, ⟨true, true⟩, [], []⟩
    consistentSample

/-- Two includes that bind one variable alike come to the same text either way. -/
theorem resolveStatement_unscoped_of_scoped_consistentSample :
    consistentSampleContext.Holds (Dict.ofList consistentSample) ∧
    consistentSampleContext.options.scopedBindings = true ∧
    consistentSampleContext.options.detectCycles = true ∧
    consistentSampleContext.active = [] ∧
    Consistent (propertiesIn (Dict.ofList consistentSample)) ∧
    Agrees consistentSampleContext.get? (propertiesIn (Dict.ofList consistentSample)) ∧
    (consistentSampleContext.resolveStatement "top").map Prod.fst = some (.ok "t=1t=11") ∧
    (consistentSampleContext.withoutScopes.resolveStatement "top").map Prod.fst
      = some (.ok "t=1t=11") := by
  have hold : consistentSampleContext.Holds (Dict.ofList consistentSample) :=
    Context.holds_registerNodes rfl consistentSample
  have hconsistent : Consistent (propertiesIn (Dict.ofList consistentSample)) := by
    decide +kernel
  have hagrees : Agrees consistentSampleContext.get?
      (propertiesIn (Dict.ofList consistentSample)) := by decide +kernel
  have htop : (consistentSampleContext.resolveStatement "top").map Prod.fst
      = some (.ok "t=1t=11") := by decide +kernel
  refine ⟨hold, rfl, rfl, rfl, hconsistent, hagrees, htop, ?_⟩
  obtain ⟨⟨answer, after⟩, hrun, hanswer⟩ := Option.map_eq_some_iff.1 htop
  have hanswer : answer = .ok "t=1t=11" := hanswer
  rw [hanswer] at hrun
  obtain ⟨after', hafter', -⟩ :=
    resolveStatement_unscoped_of_scoped hold rfl rfl rfl hconsistent hagrees hrun
  rw [hafter']
  rfl

end SqlFragments
