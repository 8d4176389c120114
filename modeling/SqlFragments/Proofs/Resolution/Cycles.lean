import Mathlib.Logic.Relation
import SqlFragments.Proofs.Resolution.Lexical
import SqlFragments.Proofs.Resolution.Visits

/-! # Cycles are found exactly

Where all references are literal, which fragment includes which can be read off a library, and a
resolution is a walk along this graph. It gives a text if and only if everything it can reach is
registered and no cycle can be reached.

* `Leads`, `Reaches`, `OnCycle`: the include graph of a library;
* `reaches_of_ok`: a resolution that gives a text has come to all that can be reached, and at
  each place to nothing that is already being resolved;
* `cause_of_error`: an error tells of a missing fragment or of a cycle that can be reached;
* `resolveStatement_isOk_iff`: so cycles are found exactly. -/

namespace SqlFragments

open Relation (ReflTransGen TransGen)

/-! ## The include graph -/

/-- The includes in a node, at any depth. -/
def Node.includes (node : Node) : List Include :=
  node.parts.filterMap fun
    | .include inc => some inc
    | _ => none

/-- The variables in the texts of a node, at any depth. -/
def Node.textVariables (node : Node) : List String :=
  node.parts.flatMap fun
    | .text ts => ts.filterMap fun
      | .variable name => some name
      | _ => none
    | _ => []

/-- The fragment that an include points at whatever values variables have. -/
def Include.destination? (inc : Include) : Option String :=
  match inc.reference with
  | some (.literal id) => some (qualify inc.space id)
  | _ => none

/-- The fragment of one name includes that of another. -/
def Leads (library : Dict Node) (name next : String) : Prop :=
  ∃ body, library.get? name = some body ∧ ∃ inc ∈ body.includes, inc.destination? = some next

/-- From one name another can be reached along includes. -/
abbrev Reaches (library : Dict Node) : String → String → Prop := ReflTransGen (Leads library)

/-- A name can be reached from itself along at least one include. -/
def OnCycle (library : Dict Node) (name : String) : Prop := TransGen (Leads library) name name

/-- Every include in a library has a literal reference. -/
def LiteralReferences (library : Dict Node) : Prop :=
  ∀ body ∈ library.values, ∀ inc ∈ body.includes, inc.destination?.isSome

/-- Every variable in a text of a library has a value. -/
def Context.BindsTexts (ctx : Context) (library : Dict Node) : Prop :=
  ∀ body ∈ library.values, ∀ name ∈ body.textVariables, (ctx.get? name).isSome

instance (library : Dict Node) : Decidable (LiteralReferences library) :=
  inferInstanceAs (Decidable (∀ body ∈ library.values, ∀ inc ∈ body.includes,
    inc.destination?.isSome))

instance (ctx : Context) (library : Dict Node) : Decidable (ctx.BindsTexts library) :=
  inferInstanceAs (Decidable (∀ body ∈ library.values, ∀ name ∈ body.textVariables,
    (ctx.get? name).isSome))

/-- The includes in a node are those among its parts. -/
theorem Node.mem_includes {node : Node} {inc : Include} :
    inc ∈ node.includes ↔ .include inc ∈ node.parts := by
  simp only [includes, List.mem_filterMap]
  constructor
  · rintro ⟨part, hpart, hinc⟩
    split at hinc
    · rwa [← Option.some.inj hinc]
    · cases hinc
  · exact fun h => ⟨.include inc, h, rfl⟩

/-- The variables of a node's texts are those among the tokens of its parts. -/
theorem Node.mem_textVariables {node : Node} {ts : List Placeholder.Token} {name : String}
    (h : .text ts ∈ node.parts) (hname : .variable name ∈ ts) : name ∈ node.textVariables :=
  List.mem_flatMap.2 ⟨.text ts, h, List.mem_filterMap.2 ⟨.variable name, hname, rfl⟩⟩

/-- What a look-up gives is a value of the dictionary. -/
theorem Dict.mem_values_of_get? {α : Type _} {d : Dict α} {key : String} {value : α}
    (h : d.get? key = some value) : value ∈ d.values :=
  List.mem_map_of_mem (f := Prod.snd) (Dict.get?_eq_some_iff.1 h)

/-- A literal reference is followed whatever values variables have. -/
theorem Include.target_eq_destination {inc : Include} {name : String}
    (h : inc.destination? = some name) (values : Dict String) : inc.target values = .ok name := by
  rw [destination?] at h
  rw [target]
  split at h
  · rename_i id href
    rw [href, ← Option.some.inj h]
  · cases h

/-- With a literal reference, the answer of an include is that of its fragment. -/
theorem Include.exists_of_destination {expand : String → Context → Resolution} {inc : Include}
    {name : String} (hdest : inc.destination? = some name) {ctx after : Context}
    {answer : Except NodeError String} (h : inc.resolveWith expand ctx = some (answer, after)) :
    ∃ last, expand name (inc.inside ctx) = some (answer, last) := by
  have htarget := inc.target_eq_destination hdest
  rcases resolveWith_cases h with ⟨e, habsurd, -⟩ | ⟨target, last, hfollowed, hlast, -⟩
  · cases (htarget _).symm.trans habsurd
  · cases (htarget _).symm.trans hfollowed
    exact ⟨last, hlast⟩

/-- Tokens come to a text where all their variables have values. -/
theorem renderTokens_of_bound {values : Dict String} {ts : List Placeholder.Token}
    (h : ∀ name, .variable name ∈ ts → (values.get? name).isSome) :
    ∃ text, renderTokens values ts = .ok text := by
  induction ts with
  | nil => exact ⟨"", rfl⟩
  | cons token ts ih =>
    obtain ⟨text, htext⟩ := ih fun name hname => h name (List.mem_cons_of_mem _ hname)
    cases token with
    | literal piece => exact ⟨_, by rw [renderTokens, htext]; rfl⟩
    | «variable» name =>
      obtain ⟨value, hvalue⟩ := Option.isSome_iff_exists.1 (h name List.mem_cons_self)
      exact ⟨_, by rw [renderTokens, hvalue, htext]; rfl⟩
    | parameter expr => exact ⟨_, by rw [renderTokens, htext]; rfl⟩
    | endOfText => exact ⟨text, by rw [renderTokens, htext]⟩

/-! ## Walks along the graph -/

section

variable {library : Dict Node} {ctx c : Context}

/-- What is registered in a context is the node that the library has for the name. -/
theorem Context.Holds.exists_body (hold : ctx.Holds library) {name : String}
    {definition : Definition} (h : ctx.registry.get? name = some definition) :
    ∃ body, library.get? name = some body ∧ definition = .node body := by
  rw [hold name] at h
  obtain ⟨body, hbody, rfl⟩ := Option.map_eq_some_iff.1 h
  exact ⟨body, hbody, rfl⟩

/-- The variables of texts still have values inside an include. -/
theorem Context.BindsTexts.inside (h : ctx.BindsTexts library) (hkeeps : ctx.Keeps c)
    (inc : Include) : (inc.inside c).BindsTexts library :=
  fun body hbody name hname => inc.bound_inside (hkeeps.bound name (h body hbody name hname))

/-- **A text tells of all that can be reached.** Where a resolution gives a text, whatever can be
reached is registered, is not being resolved already, and lies on no cycle. -/
theorem reaches_of_ok {depth : Nat} {name goal text : String} {ctx after : Context}
    (hold : ctx.Holds library) (hdetect : ctx.options.detectCycles = true)
    (h : resolveFragmentWithin depth name ctx = some (.ok text, after))
    (hreach : Reaches library name goal) :
    (library.get? goal).isSome ∧ goal ∉ ctx.active ∧ ¬ OnCycle library goal := by
  induction depth generalizing name goal text ctx after with
  | zero => cases h
  | succ depth ih =>
    -- the name is not registered, or it is being resolved, or its body has come to a text
    rcases resolveFragmentWithin_succ_cases h with
      ⟨-, habsurd, -⟩ | ⟨definition, hreg, ⟨-, -, habsurd, -⟩ | ⟨last, hnew, hbody, -⟩⟩
    · cases habsurd
    · cases habsurd
    · obtain ⟨body, hlib, rfl⟩ := hold.exists_body hreg
      -- every include of the body has given a text, with the name itself being resolved
      have hnext : ∀ next, Leads library name next → ∀ goal, Reaches library next goal →
          (library.get? goal).isSome ∧ goal ∉ name :: ctx.active ∧ ¬ OnCycle library goal := by
        rintro next ⟨body', hbody', inc, hinc, hdest⟩ goal hgoal
        cases hlib.symm.trans hbody'
        obtain ⟨c, hvisit, piece, lastc, hpiece⟩ :=
          body.visits_of_ok hbody (.include inc) (Node.mem_includes.1 hinc)
        obtain ⟨lasti, hinner⟩ := Include.exists_of_destination hdest hpiece
        have hsetting := Node.sameSetting_inside (resolveFragmentWithin_keeps depth) hvisit
        have hentered : (ctx.enter name).Holds library := hold
        have hgoal := ih (hentered.of_sameSetting hsetting) (hsetting.detectCycles hdetect)
          hinner hgoal
        rwa [hsetting.active] at hgoal
      rcases hreach.cases_head with rfl | ⟨next, hlead, hrest⟩
      · refine ⟨by rw [hlib]; rfl, hnew hdetect, fun hcycle => ?_⟩
        -- on the way back to the name it would be found among those being resolved
        obtain ⟨next, hlead, hback⟩ := TransGen.head'_iff.1 hcycle
        exact (hnext next hlead name hback).2.1 List.mem_cons_self
      · obtain ⟨hsome, hnot, hcycle⟩ := hnext next hlead goal hrest
        exact ⟨hsome, fun hmem => hnot (List.mem_cons_of_mem _ hmem), hcycle⟩

/-- **An error tells of a missing fragment or of a cycle.** Where references are literal, all
variables in texts have values and the names being resolved lead to the one that is looked up, an
error is about a name that can be reached and is not registered, or it is a cycle and one can be
reached. -/
theorem cause_of_error {depth : Nat} {name : String} {e : NodeError} {ctx after : Context}
    (hold : ctx.Holds library) (hliteral : LiteralReferences library)
    (hbound : ctx.BindsTexts library)
    (hchain : ∀ outer ∈ ctx.active, TransGen (Leads library) outer name)
    (h : resolveFragmentWithin depth name ctx = some (.error e, after)) :
    (∃ missing, Reaches library name missing ∧ library.get? missing = none ∧
      e = .fragmentNotFound missing) ∨
    (∃ chain, e = .cyclicReference chain) ∧
      ∃ member, Reaches library name member ∧ OnCycle library member := by
  induction depth generalizing name ctx after with
  | zero => cases h
  | succ depth ih =>
    rcases resolveFragmentWithin_succ_cases h with
      ⟨hreg, heq, -⟩ | ⟨definition, hreg, ⟨-, hactive, heq, -⟩ | ⟨last, -, hbody, -⟩⟩
    -- the name itself is missing
    · rw [hold name, Option.map_eq_none_iff] at hreg
      exact .inl ⟨name, .refl, hreg, Except.error.inj heq⟩
    · exact .inr ⟨⟨_, Except.error.inj heq⟩, name, .refl, hchain name hactive⟩
    · obtain ⟨body, hlib, rfl⟩ := hold.exists_body hreg
      have hvalue := Dict.mem_values_of_get? hlib
      -- one of the nodes in the body has failed, and what it is tells why
      obtain ⟨⟨node, c⟩, hvisit, hfails⟩ := body.visits_of_error hbody
      obtain ⟨hpart, hkeeps⟩ := body.mem_visits (resolveFragmentWithin_keeps depth) hvisit
      cases node with
      | property p => cases hfails
      | fragment tag id children => cases hfails
      | text ts =>
        -- its variables have had values from the start
        obtain ⟨text, htext⟩ := renderTokens_of_bound fun other hother =>
          hkeeps.bound other (hbound body hvalue other (Node.mem_textVariables hpart hother))
        cases htext.symm.trans hfails
      | «include» inc =>
        have hinc := Node.mem_includes.2 hpart
        obtain ⟨next, hdest⟩ := Option.isSome_iff_exists.1 (hliteral body hvalue inc hinc)
        have hlead : Leads library name next := ⟨body, hlib, inc, hinc, hdest⟩
        -- the names being resolved lead to the include's target through the name itself
        obtain ⟨lastc, hlastc⟩ := hfails
        obtain ⟨lasti, hinner⟩ := Include.exists_of_destination hdest hlastc
        have hsetting := Node.sameSetting_inside (resolveFragmentWithin_keeps depth) hvisit
        have hinside : ∀ outer ∈ (inc.inside c).active, TransGen (Leads library) outer next := by
          intro outer houter
          rw [hsetting.active] at houter
          rcases List.mem_cons.1 houter with rfl | houter
          · exact .single hlead
          · exact (hchain outer houter).tail hlead
        have hentered : (ctx.enter name).Holds library := hold
        have hboundc : (ctx.enter name).BindsTexts library := hbound
        rcases ih (hentered.of_sameSetting hsetting) (hboundc.inside hkeeps inc) hinside hinner
          with ⟨missing, hreach, hnone, heq⟩ | ⟨hcyclic, member, hreach, hcycle⟩
        · exact .inl ⟨missing, hreach.head hlead, hnone, heq⟩
        · exact .inr ⟨hcyclic, member, hreach.head hlead, hcycle⟩

end

/-! ## Statements -/

/-- **Cycles are found exactly.** In a context in which nothing is being resolved and cycles are
detected, with literal references and values for all variables in texts, a statement comes to a
text if and only if every name that can be reached from its own is registered and lies on no
cycle. If all are registered and a cycle can be reached then the cycle is reported, and any error
is a cycle or the name of a fragment that can be reached and is not registered. -/
theorem resolveStatement_isOk_iff {ctx : Context} {library : Dict Node}
    (hold : ctx.Holds library) (hliteral : LiteralReferences library)
    (hbound : ctx.BindsTexts library) (hdetect : ctx.options.detectCycles = true)
    (hidle : ctx.active = []) (id : String) :
    ∃ answer after, ctx.resolveStatement id = some (answer, after) ∧
      ((∃ text, answer = .ok text) ↔
        ∀ name, Reaches library (qualify ctx.space id) name →
          (library.get? name).isSome ∧ ¬ OnCycle library name) ∧
      ((∀ name, Reaches library (qualify ctx.space id) name → (library.get? name).isSome) →
        (∃ name, Reaches library (qualify ctx.space id) name ∧ OnCycle library name) →
          ∃ chain, answer = .error (.cyclicReference chain)) ∧
      ∀ e, answer = .error e → (∃ chain, e = .cyclicReference chain) ∨
        ∃ name, Reaches library (qualify ctx.space id) name ∧ library.get? name = none ∧
          e = .fragmentNotFound name := by
  obtain ⟨answer, after, hanswer, -⟩ :=
    Context.resolveFragment_settles hdetect (qualify ctx.space id)
  have hchain : ∀ outer ∈ ctx.active, TransGen (Leads library) outer (qualify ctx.space id) := by
    rw [hidle]
    exact fun outer houter => nomatch houter
  refine ⟨answer, after, hanswer, ?_⟩
  cases answer with
  | ok text =>
    have hreached : ∀ name, Reaches library (qualify ctx.space id) name →
        (library.get? name).isSome ∧ ¬ OnCycle library name := fun name hname =>
      have h := reaches_of_ok hold hdetect hanswer hname
      ⟨h.1, h.2.2⟩
    refine ⟨⟨fun _ => hreached, fun _ => ⟨text, rfl⟩⟩, fun _ => ?_, fun e he => nomatch he⟩
    rintro ⟨name, hname, hcycle⟩
    exact absurd hcycle (hreached name hname).2
  | error e =>
    have hcause := cause_of_error hold hliteral hbound hchain hanswer
    refine ⟨⟨fun h => (nomatch h.choose_spec), fun hall => ?_⟩, fun hall _ => ?_, ?_⟩
    · rcases hcause with ⟨missing, hreach, hnone, -⟩ | ⟨-, member, hreach, hcycle⟩
      · have := (hall missing hreach).1
        simp [hnone] at this
      · exact absurd hcycle (hall member hreach).2
    · rcases hcause with ⟨missing, hreach, hnone, -⟩ | ⟨⟨chain, rfl⟩, -⟩
      · have := hall missing hreach
        simp [hnone] at this
      · exact ⟨chain, rfl⟩
    · rintro e' ⟨⟩
      rcases hcause with hmissing | ⟨hcyclic, -⟩
      · exact .inr hmissing
      · exact .inl hcyclic

/-- Fragments one of which is included on two ways and twice on one of them, two that include
each other, and one with an include of a fragment that is missing. -/
def includeSample : List (String × Node) := [
  ("m.base", .text [.literal "t=", .variable "t"]),
  ("m.left", .fragment "sql" "left"
    [.include ⟨"m", some (.literal "base"), .empty⟩,
      .include ⟨"m", some (.literal "base"), Dict.empty.insert "t" ⟨"t", "1"⟩⟩]),
  ("m.top", .fragment "select" "top"
    [.include ⟨"m", some (.literal "left"), .empty⟩,
      .fragment "sql" "" [.include ⟨"n", some (.literal "m.base"), .empty⟩]]),
  ("m.loop", .fragment "select" "loop"
    [.include ⟨"m", some (.literal "top"), .empty⟩,
      .include ⟨"m", some (.literal "turn"), .empty⟩]),
  ("m.turn", .fragment "sql" "turn" [.include ⟨"m", some (.literal "loop"), .empty⟩]),
  ("m.gap", .fragment "select" "gap" [.include ⟨"m", some (.literal "none"), .empty⟩])]

/-- A context with these fragments in which `t` has a value. -/
def includeSampleContext : Context :=
  Context.registerNodes ⟨"m", ⟨Dict.empty.insert "t" "0", []⟩, .empty, ⟨false, true⟩, [], []⟩
    includeSample

/-- A fragment that is included on several ways lies on no cycle. -/
theorem resolveStatement_isOk_iff_includeSample :
    includeSampleContext.Holds (Dict.ofList includeSample) ∧
    LiteralReferences (Dict.ofList includeSample) ∧
    includeSampleContext.BindsTexts (Dict.ofList includeSample) ∧
    includeSampleContext.options.detectCycles = true ∧ includeSampleContext.active = [] ∧
    (includeSampleContext.resolveStatement "top").map Prod.fst = some (.ok "t=0t=1t=1") ∧
    ∀ name, Reaches (Dict.ofList includeSample) "m.top" name →
      ((Dict.ofList includeSample).get? name).isSome ∧
        ¬ OnCycle (Dict.ofList includeSample) name := by
  have hold : includeSampleContext.Holds (Dict.ofList includeSample) :=
    Context.holds_registerNodes rfl includeSample
  have hliteral : LiteralReferences (Dict.ofList includeSample) := by decide +kernel
  have hbound : includeSampleContext.BindsTexts (Dict.ofList includeSample) := by decide +kernel
  have htop : (includeSampleContext.resolveStatement "top").map Prod.fst
      = some (.ok "t=0t=1t=1") := by decide +kernel
  refine ⟨hold, hliteral, hbound, rfl, rfl, htop, ?_⟩
  obtain ⟨answer, after, hanswer, hiff, -⟩ :=
    resolveStatement_isOk_iff hold hliteral hbound rfl rfl "top"
  rw [hanswer] at htop
  exact hiff.1 ⟨_, Option.some.inj htop⟩

end SqlFragments
