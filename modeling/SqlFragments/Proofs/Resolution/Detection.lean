import SqlFragments.Proofs.Resolution.Following

/-! # Resolution without cycle detection

Without cycle detection a run goes on where it would have been stopped, and perhaps for ever. This
is all that it does otherwise: `resolveStatement_withoutDetection` says that a run which meets no
cycle is the same without detection, and ends as soon. -/

namespace SqlFragments

/-- The context with cycle detection switched off. -/
def Context.withoutDetection (ctx : Context) : Context :=
  { ctx with options := { ctx.options with detectCycles := false } }

/-- Without detection nothing is refused that was let through with it. -/
theorem Context.laxer_withoutDetection (ctx : Context) : ctx.Laxer ctx.withoutDetection where
  scopedBindings := rfl
  detectCycles h := nomatch h
  active h := nomatch h

/-- Every fragment has itself for a body without anything inlined. -/
theorem Likeness.covers_self (ℓ : Likeness) (library : Dict Node) : ℓ.Covers library library where
  get?_of_some {_ body} hlib := ⟨body, hlib, .refl library body⟩
  get?_of_none hlib _ := hlib

/-- **Cycle detection changes only the runs that it stops.** Whatever nodes are registered, whatever
their references are read from, and with scoped bindings or without, a statement comes to an answer
with cycle detection. If this is no cycle then without cycle detection the statement comes to the
same answer and leaves variables the same values. It does so within every depth that is greater than
the number of fragments, so its run ends. -/
theorem resolveStatement_withoutDetection {ctx : Context} {library : Dict Node}
    (hold : ctx.Holds library) (hdetect : ctx.options.detectCycles = true) (id : String) :
    ∃ answer after, ctx.resolveStatement id = some (answer, after) ∧
      ((∀ chain, answer ≠ .error (.cyclicReference chain)) →
        (∃ after', ctx.withoutDetection.resolveStatement id = some (answer, after') ∧
          after'.bindings.values = after.bindings.values) ∧
        ∀ depth, ctx.registry.size < depth → ∃ after',
          resolveFragmentWithin depth (qualify ctx.space id) ctx.withoutDetection
            = some (answer, after') ∧ after'.bindings.values = after.bindings.values) := by
  have holdLax : ctx.withoutDetection.Holds library := hold
  obtain ⟨answer, after, hanswer, hfollows⟩ :=
    Likeness.exists_answer_of_laxer (Likeness.untilCycle.covers_self library)
      Likeness.not_shared_cyclicReference hold holdLax ctx.laxer_withoutDetection rfl hdetect
      (qualify ctx.space id)
  refine ⟨answer, after, hanswer, fun hcyclic => ?_⟩
  have hdepth := hfollows (Likeness.untilCycle_shares hcyclic)
  -- the bound that a resolution gets without detection is far above the number of fragments
  have hbound : ctx.registry.size < ctx.withoutDetection.depthBound := by
    have hlarge : ctx.withoutDetection.depthBound = ctx.registry.size + 2 ^ 64 := rfl
    omega
  exact ⟨hdepth _ hbound, hdepth⟩

/-- A statement that rebinds a variable comes to the same text without detection. -/
theorem resolveStatement_withoutDetection_rebinding :
    Lexical.sampleContext.Holds (Dict.ofList Lexical.sampleNodes) ∧
    Lexical.sampleContext.options.detectCycles = true ∧
    Lexical.sampleContext.withoutDetection.options.detectCycles = false ∧
    (Lexical.sampleContext.resolveStatement "top").map Prod.fst = some (.ok "t=210") ∧
    (Lexical.sampleContext.withoutDetection.resolveStatement "top").map Prod.fst
      = some (.ok "t=210") := by
  have hold : Lexical.sampleContext.Holds (Dict.ofList Lexical.sampleNodes) :=
    Context.holds_registerNodes rfl Lexical.sampleNodes
  have htop : (Lexical.sampleContext.resolveStatement "top").map Prod.fst
      = some (.ok "t=210") := by decide +kernel
  refine ⟨hold, rfl, rfl, htop, ?_⟩
  obtain ⟨answer, after, hanswer, hsame⟩ := resolveStatement_withoutDetection hold rfl "top"
  rw [hanswer, Option.map_some, Option.some.injEq] at htop
  subst htop
  obtain ⟨⟨after', hafter', -⟩, -⟩ := hsame fun chain h => nomatch h
  rw [hafter']
  rfl

end SqlFragments
