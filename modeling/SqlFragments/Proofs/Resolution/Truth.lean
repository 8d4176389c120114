import SqlFragments.Proofs.Resolution.Following
import SqlFragments.Proofs.Resolution.Running

/-! # Errors tell the truth

An error is raised deep in a run, in the variables of that moment, and by the time it is answered all
frames that the run has opened are closed. What it says is so all the same: before the run and
behind it, and of a fragment that is registered.

* `Node.Reads`: the variables that a node may read;
* `Run.get?_eq_none`: a variable that is reported to have no value has none behind the run;
* `Visit.Raises.cases_of_mem_parts`: what is raised at a visit is in the fragment that is visited;
* `NodeError.TrueOf`: what each error says;
* `resolveStatement_error_trueOf`: what a statement fails with is true. -/

namespace SqlFragments

/-! ## The variable without a value -/

/-- A variable without a value afterwards had none before, where no variable loses its value. -/
theorem Context.get?_eq_none_of_bound {ctx after : Context} {name : String}
    (hbound : (ctx.get? name).isSome → (after.get? name).isSome)
    (hnone : after.get? name = none) : ctx.get? name = none := by
  rw [← Option.not_isSome_iff_eq_none] at hnone ⊢
  exact fun hsome => hnone (hbound hsome)

/-- A variable without a value at the end of an include has none behind it. -/
theorem Context.get?_behind_eq_none {inc : Include} {ctx last : Context} {name : String}
    (hkeeps : (inc.inside ctx).Keeps last) (hnone : last.get? name = none) :
    (ctx.behind last).get? name = none := by
  cases hscoped : ctx.options.scopedBindings with
  | false => rwa [behind_of_not_scoped hscoped]
  | true =>
    -- the values from before the include are put back, and with one of them the variable would
    -- have had a value at its end, too
    rw [get?, Bindings.get?, values_behind_of_scoped hscoped hkeeps]
    exact get?_eq_none_of_bound (fun hsome => hkeeps.bound name (inc.bound_inside hsome)) hnone

/-- **A variable that is reported has no value behind the run**, whatever frames have been closed
since the error was raised. -/
theorem Run.get?_eq_none {subject : Subject} {ctx after : Context} {visits : List Visit}
    {name : String} (h : Run subject ctx visits (.error (.undefinedVariable name)) after) :
    after.get? name = none := by
  generalize hanswer : Except.error (NodeError.undefinedVariable name) = answer at h
  induction h with
  | missing | cyclic | property | nil => cases hanswer
  | entered _ _ _ ih => exact ih hanswer
  | text =>
    obtain ⟨_, -, hnone, heq⟩ := undefinedVariable_of_renderTokens hanswer.symm
    cases heq
    exact hnone
  | @aimless inc ctx e htarget =>
    obtain rfl := Except.error.inj hanswer
    rcases Include.cases_of_target_eq_error htarget with ⟨_, -, hnone, heq⟩ | ⟨-, heq⟩
    · cases heq
      exact Context.get?_behind_eq_none (.refl (inc.inside ctx)) hnone
    · cases heq
  | included _ hname ih => exact Context.get?_behind_eq_none hname.keeps (ih hanswer)
  | fragment _ ih | stopped _ ih => exact ih hanswer
  | @next _ _ _ _ _ _ _ answer _ _ _ _ ihMore =>
    cases answer with
    | ok text => cases hanswer
    | error e =>
      cases hanswer
      exact ihMore rfl

/-! ## Where an error comes from -/

/-- A variable that a node may read: in a text of it, or as the reference of an include. -/
def Node.Reads (node : Node) (name : String) : Prop :=
  name ∈ node.textVariables ∨ ∃ inc ∈ node.includes, inc.reference = some (.variable name)

/-- What is raised at a visit is in the fragment that is visited. -/
theorem Visit.Raises.cases_of_mem_parts {v : Visit} {e : NodeError} {body : Node} (h : v.Raises e)
    (hpart : v.1 ∈ body.parts) : (∃ name, e = .undefinedVariable name ∧ body.Reads name) ∨
      e = .missingReference ∧ ∃ inc ∈ body.includes, inc.reference = none := by
  obtain ⟨node, ctx⟩ := v
  cases node with
  | text ts =>
    obtain ⟨name, hname, -, he⟩ := undefinedVariable_of_renderTokens h
    exact .inl ⟨name, he, .inl (Node.mem_textVariables hpart hname)⟩
  | «include» inc =>
    have hinc := Node.mem_includes.2 hpart
    rcases Include.cases_of_target_eq_error h with ⟨name, hreference, -, he⟩ | ⟨hreference, he⟩
    · exact .inl ⟨name, he, .inr ⟨inc, hinc, hreference⟩⟩
    · exact .inr ⟨he, inc, hinc, hreference⟩
  | property p => cases h
  | fragment tag id children => cases h

/-! ## What is true of an error -/

/-- What an error says of a resolution, given the registered fragments and the contexts before and
after it. The errors of building are not among those of a resolution, and of a cycle nothing is
said here. -/
def NodeError.TrueOf (library : Dict Node) (before after : Context) : NodeError → Prop
  | .undefinedVariable name => before.get? name = none ∧ after.get? name = none ∧
    ∃ body ∈ library.values, body.Reads name
  | .fragmentNotFound name => before.registry.get? name = none
  | .missingReference => ∃ body ∈ library.values, ∃ inc ∈ body.includes, inc.reference = none
  | .cyclicReference _ => True
  | .invalidReference _ | .duplicateProperty _ | .token _ => False

/-- **Errors tell the truth.** With cycle detection, whatever nodes are registered, whatever values
variables have, and with scoped bindings or without, a statement comes to an answer. If it fails with
a variable then this had no value before, it has none now, and a registered fragment has it in a text
or as a reference; if with a missing fragment then none is registered under that name; if with a
missing reference then a registered fragment has an include without one. It never fails with an
error of building nodes or reading placeholders. -/
theorem resolveStatement_error_trueOf {ctx : Context} {library : Dict Node}
    (hold : ctx.Holds library) (hdetect : ctx.options.detectCycles = true) (id : String) :
    ∃ answer after, ctx.resolveStatement id = some (answer, after) ∧
      ∀ e, answer = .error e → e.TrueOf library ctx after := by
  obtain ⟨answer, after, heq, hrun⟩ := Context.exists_run hold hdetect (qualify ctx.space id)
  refine ⟨answer, after, heq, ?_⟩
  rintro e rfl
  rcases origin_of_error hold heq with ⟨missing, hnone, rfl⟩ | ⟨chain, rfl⟩ | ⟨v, hvisit, hraises⟩
  · show ctx.registry.get? missing = none
    rw [hold missing, hnone, Option.map_none]
  · trivial
  · -- the run comes to nothing but parts of registered fragments
    have hvisited : ∃ body ∈ library.values, v.1 ∈ body.parts :=
      hrun.forall_visited (P := fun part => ∃ body ∈ library.values, part ∈ body.parts)
        (fun body hbody part hpart => ⟨body, hbody, hpart⟩) hold (fun _ hpart => nomatch hpart) v
        hvisit
    obtain ⟨body, hbody, hpart⟩ := hvisited
    rcases hraises.cases_of_mem_parts hpart with ⟨name, rfl, hreads⟩ | ⟨rfl, hinc⟩
    · have hnone := hrun.get?_eq_none
      have hbefore := Context.get?_eq_none_of_bound (hrun.keeps.bound name) hnone
      exact ⟨hbefore, hnone, body, hbody, hreads⟩
    · exact ⟨body, hbody, hinc⟩

/-- A variable that is the reference of an include has no value inside of it. -/
theorem resolveStatement_error_trueOf_mid :
    Lexical.sampleContext.Holds (Dict.ofList Lexical.sampleNodes) ∧
    Lexical.sampleContext.options.detectCycles = true ∧
    ∃ after, Lexical.sampleContext.resolveStatement "mid"
        = some (.error (.undefinedVariable "source"), after) ∧
      after.get? "source" = none ∧
      ∃ body ∈ (Dict.ofList Lexical.sampleNodes).values, body.Reads "source" := by
  have hold : Lexical.sampleContext.Holds (Dict.ofList Lexical.sampleNodes) :=
    Context.holds_registerNodes rfl Lexical.sampleNodes
  have hmid : (Lexical.sampleContext.resolveStatement "mid").map Prod.fst
      = some (.error (.undefinedVariable "source")) := by decide +kernel
  obtain ⟨answer, after, hanswer, htrue⟩ := resolveStatement_error_trueOf hold rfl "mid"
  rw [hanswer, Option.map_some, Option.some.injEq] at hmid
  subst hmid
  obtain ⟨-, hafter, hreads⟩ := htrue _ rfl
  exact ⟨hold, rfl, after, hanswer, hafter, hreads⟩

end SqlFragments
