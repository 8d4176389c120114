import SqlFragments.Proofs.Resolution.Cycles

/-! # Where errors come from

Whatever references are read from, an error of a run is a missing fragment, a cycle, or it is raised
where the run comes to a text or to an include.

* `Visit.Raises`: what a visited text or include fails with by itself;
* `Visit.Raises.cases`: this is a variable without a value or a missing reference;
* `origin_of_error`: an error of a run is raised at one of its visits, unless it tells of a missing
  fragment or of a cycle. -/

namespace SqlFragments

open SqlFragments.Placeholder

/-- A text in which a variable has no value, or an include whose reference cannot be read. -/
def Visit.Raises (e : NodeError) : Visit → Prop
  | (.text ts, ctx) => renderTokens ctx.bindings.values ts = .error e
  | (.include inc, ctx) => inc.target (inc.inside ctx).bindings.values = .error e
  | _ => False

/-- Tokens fail only for a variable among them that has no value. -/
theorem undefinedVariable_of_renderTokens {values : Dict String} {ts : List Token} {e : NodeError}
    (h : renderTokens values ts = .error e) : ∃ name, .variable name ∈ ts ∧
      values.get? name = none ∧ e = .undefinedVariable name := by
  induction ts with
  | nil => cases h
  | cons token ts ih =>
    -- an error of the other tokens is the error of all
    have hrest : ∀ text : String, (renderTokens values ts).map (text ++ ·) = .error e →
        ∃ name, .variable name ∈ token :: ts ∧ values.get? name = none ∧
          e = .undefinedVariable name := by
      intro text hmap
      cases htokens : renderTokens values ts with
      | ok more =>
        rw [htokens] at hmap
        cases hmap
      | error e' =>
        rw [htokens] at hmap
        cases hmap
        obtain ⟨name, hmem, hname⟩ := ih htokens
        exact ⟨name, List.mem_cons_of_mem token hmem, hname⟩
    cases token with
    | literal text => exact hrest text h
    | parameter expr => exact hrest _ h
    | endOfText =>
      obtain ⟨name, hmem, hname⟩ := ih h
      exact ⟨name, List.mem_cons_of_mem _ hmem, hname⟩
    | «variable» name =>
      rw [renderTokens] at h
      split at h
      · rename_i hnone
        exact ⟨name, List.mem_cons_self, hnone, (Except.error.inj h).symm⟩
      · exact hrest _ h

/-- An include has no target only if the variable of its reference has no value or there is no
reference. -/
theorem Include.cases_of_target_eq_error {inc : Include} {values : Dict String} {e : NodeError}
    (h : inc.target values = .error e) :
    (∃ name, inc.reference = some (.variable name) ∧ values.get? name = none ∧
      e = .undefinedVariable name) ∨ inc.reference = none ∧ e = .missingReference := by
  rw [target] at h
  split at h
  · cases h
  · rename_i name hreference
    split at h
    · rename_i hnone
      exact .inl ⟨name, hreference, hnone, (Except.error.inj h).symm⟩
    · cases h
  · rename_i hreference
    exact .inr ⟨hreference, (Except.error.inj h).symm⟩

/-- A visit raises nothing but a variable without a value or a missing reference. -/
theorem Visit.Raises.cases {v : Visit} {e : NodeError} (h : v.Raises e) :
    (∃ name, e = .undefinedVariable name) ∨ e = .missingReference := by
  obtain ⟨node, ctx⟩ := v
  cases node with
  | text ts =>
    obtain ⟨name, -, -, he⟩ := undefinedVariable_of_renderTokens h
    exact .inl ⟨name, he⟩
  | «include» inc =>
    rcases Include.cases_of_target_eq_error h with ⟨name, -, -, he⟩ | ⟨-, he⟩
    · exact .inl ⟨name, he⟩
    · exact .inr he
  | property p => cases h
  | fragment tag id children => cases h

/-- The visits of a fragment that is not stopped are those of its body. -/
theorem visitsWithin_of_get? {ctx : Context} {name : String} {body : Node} (depth : Nat)
    (hreg : ctx.registry.get? name = some (.node body))
    (hnew : ctx.options.detectCycles = true → name ∉ ctx.active) :
    visitsWithin (depth + 1) name ctx
      = Visit.followAll (visitsWithin depth)
          (body.visits (resolveFragmentWithin depth) (ctx.enter name)) := by
  rw [visitsWithin, hreg]
  refine if_neg fun hstopped => ?_
  rw [Bool.and_eq_true, List.contains_iff_mem] at hstopped
  exact hnew hstopped.1 hstopped.2

/-- **An error has an origin.** If a run fails then a fragment is missing, or it has met a cycle, or
the error is raised at one of its visits. -/
theorem origin_of_error {library : Dict Node} {depth : Nat} {name : String} {e : NodeError}
    {ctx after : Context} (hold : ctx.Holds library)
    (h : resolveFragmentWithin depth name ctx = some (.error e, after)) :
    (∃ missing, library.get? missing = none ∧ e = .fragmentNotFound missing) ∨
    (∃ chain, e = .cyclicReference chain) ∨ ∃ v ∈ visitsWithin depth name ctx, v.Raises e := by
  induction depth generalizing name ctx after with
  | zero => cases h
  | succ depth ih =>
    rcases resolveFragmentWithin_succ_cases h with
      ⟨hreg, heq, -⟩ | ⟨definition, hreg, ⟨-, -, heq, -⟩ | ⟨last, hnew, hbody, -⟩⟩
    · rw [hold name, Option.map_eq_none_iff] at hreg
      exact .inl ⟨name, hreg, Except.error.inj heq⟩
    · exact .inr (.inl ⟨_, Except.error.inj heq⟩)
    · obtain ⟨body, -, rfl⟩ := hold.exists_body hreg
      obtain ⟨⟨node, c⟩, hvisit, hfails⟩ := body.visits_of_error hbody
      have hvisits := visitsWithin_of_get? depth hreg hnew
      -- the node at which the body fails raises the error, or it includes a fragment that fails
      cases node with
      | property p => cases hfails
      | fragment tag id children => cases hfails
      | text ts =>
        refine .inr (.inr ⟨(.text ts, c), ?_, hfails⟩)
        rw [hvisits, Visit.mem_followAll]
        exact ⟨_, hvisit, .inl rfl⟩
      | «include» inc =>
        obtain ⟨lastc, hinc⟩ := hfails
        rcases Include.resolveWith_cases hinc with
          ⟨e', htarget, heq, -⟩ | ⟨next, lasti, htarget, hinner, -⟩
        · -- the include's own reference cannot be read
          cases heq
          refine .inr (.inr ⟨(.include inc, c), ?_, htarget⟩)
          rw [hvisits, Visit.mem_followAll]
          exact ⟨_, hvisit, .inl rfl⟩
        · -- the error is that of the fragment that it points at
          have hsetting := Node.sameSetting_inside (resolveFragmentWithin_keeps depth) hvisit
          have hentered : (ctx.enter name).Holds library := hold
          rcases ih (hentered.of_sameSetting hsetting) hinner with
            hmissing | hcyclic | ⟨v, hv, hraises⟩
          · exact .inl hmissing
          · exact .inr (.inl hcyclic)
          · refine .inr (.inr ⟨v, ?_, hraises⟩)
            rw [hvisits, Visit.mem_followAll]
            exact ⟨_, hvisit, .inr ⟨_, Visit.lookUp?_of_target htarget, hv⟩⟩

/-- A fragment that a run does not find is missing in the library. -/
theorem get?_eq_none_of_fragmentNotFound {library : Dict Node} {depth : Nat}
    {name missing : String} {ctx after : Context} (hold : ctx.Holds library)
    (h : resolveFragmentWithin depth name ctx = some (.error (.fragmentNotFound missing), after)) :
    library.get? missing = none := by
  rcases origin_of_error hold h with ⟨other, hnone, heq⟩ | ⟨chain, heq⟩ | ⟨v, -, hraises⟩
  · rwa [NodeError.fragmentNotFound.inj heq]
  · cases heq
  · rcases hraises.cases with ⟨_, heq⟩ | heq <;> cases heq

end SqlFragments
