import SqlFragments.Proofs.Resolution.Following

/-! # Includes without properties are inlined

An include that binds nothing stands for its target: where its reference is literal, the target can
as well be written in its place.

* `Node.Spot`: a place in a node, which can be filled with any node;
* `Node.mem_parts_iff_exists_fill`: the parts of a node stand at such places;
* `resolveStatement_inline`: the fragments of a context with one include replaced by its target
  resolve as before, unless a cycle is met. -/

namespace SqlFragments

open SqlFragments.Placeholder

/-! ## Places in a node -/

/-- A place in a node: the node itself, or a place in a child of a fragment. -/
inductive Node.Spot where
  | here
  | inside (tag id : String) (before : List Node) (spot : Spot) (after : List Node)

namespace Node

/-- The node that has this node at the place. -/
def Spot.fill : Spot → Node → Node
  | .here, node => node
  | .inside tag id before spot after, node => .fragment tag id (before ++ spot.fill node :: after)

/-- The parts of nodes one after the other come one after the other. -/
theorem allParts_append (nodes others : List Node) :
    allParts (nodes ++ others) = allParts nodes ++ allParts others := by
  induction nodes with
  | nil => rfl
  | cons node nodes ih => rw [List.cons_append, allParts, allParts, ih, List.append_assoc]

/-- A node is one of its parts. -/
theorem mem_parts_self (node : Node) : node ∈ node.parts := by
  cases node <;> simp [parts]

/-- What stands at a place is a part of the whole node. -/
theorem Spot.mem_parts_fill (spot : Spot) (node : Node) : node ∈ (spot.fill node).parts := by
  induction spot with
  | here => exact mem_parts_self node
  | inside tag id before spot after ih =>
    rw [fill, parts, allParts_append, allParts]
    exact List.mem_cons_of_mem _
      (List.mem_append_right _ (List.mem_append_left _ ih))

mutual

/-- A part of a node stands at some place in it. -/
theorem exists_fill_of_mem_parts {part : Node} :
    ∀ node : Node, part ∈ node.parts → ∃ spot : Spot, spot.fill part = node
  | .text _, h => ⟨.here, List.mem_singleton.1 h⟩
  | .property _, h => ⟨.here, List.mem_singleton.1 h⟩
  | .include _, h => ⟨.here, List.mem_singleton.1 h⟩
  | .fragment tag id children, h => by
    rcases List.mem_cons.1 h with rfl | h
    · exact ⟨.here, rfl⟩
    · obtain ⟨before, spot, after, rfl⟩ := exists_fill_of_mem_allParts children h
      exact ⟨.inside tag id before spot after, rfl⟩

/-- A part of several nodes stands at some place in one of them. -/
theorem exists_fill_of_mem_allParts {part : Node} :
    ∀ nodes : List Node, part ∈ allParts nodes →
      ∃ (before : List Node) (spot : Spot) (after : List Node),
        before ++ spot.fill part :: after = nodes
  | [], h => nomatch h
  | node :: nodes, h => by
    rcases List.mem_append.1 h with h | h
    · obtain ⟨spot, rfl⟩ := exists_fill_of_mem_parts node h
      exact ⟨[], spot, nodes, rfl⟩
    · obtain ⟨before, spot, after, rfl⟩ := exists_fill_of_mem_allParts nodes h
      exact ⟨node :: before, spot, after, rfl⟩

end

/-- **The parts of a node are what stands at its places.** -/
theorem mem_parts_iff_exists_fill {part node : Node} :
    part ∈ node.parts ↔ ∃ spot : Spot, spot.fill part = node := by
  refine ⟨exists_fill_of_mem_parts node, ?_⟩
  rintro ⟨spot, rfl⟩
  exact spot.mem_parts_fill part

/-- What is inlined at a place is inlined in the whole node. -/
theorem Inlines.fill {library : Dict Node} {node node' : Node} (h : node.Inlines library node')
    (spot : Spot) : (spot.fill node).Inlines library (spot.fill node') := by
  induction spot with
  | here => exact h
  | inside tag id before spot after ih =>
    refine .fragment tag id (List.rel_append (Inlines.refl_all library before) ?_)
    exact .cons ih (Inlines.refl_all library after)

end Node

/-! ## A library with an include inlined -/

/-- A fragment in which an include has been replaced by its target covers the fragment that it
takes the place of. -/
theorem Likeness.covers_insert {ℓ : Likeness} {library : Dict Node} {name : String}
    {body body' : Node} (hlib : library.get? name = some body)
    (hinlines : body.Inlines library body') : ℓ.Covers library (library.insert name body') where
  get?_of_some {other found} hfound := by
    rw [Dict.get?_insert]
    split
    -- the fragment that was changed, or another one
    · rename_i heq
      subst heq
      cases hlib.symm.trans hfound
      exact ⟨body', rfl, hinlines⟩
    · exact ⟨found, hfound, .refl library found⟩
  get?_of_none {other} hnone _ := by
    rw [Dict.get?_insert, if_neg]
    · exact hnone
    · rintro rfl
      cases hlib.symm.trans hnone

/-- **An include without properties means its target.** In a context in which cycles are detected,
take an include without properties at any place in any fragment, whose reference is literal and
points at a registered node, and write this node in the place of the include. With scoped bindings
or without, a statement that comes to an answer, be it a text or an error, but to no cycle, comes to
the same answer then and leaves variables the same values. -/
theorem resolveStatement_inline {ctx : Context} {library : Dict Node} {name target : String}
    {spot : Node.Spot} {inc : Include} {body : Node} (hold : ctx.Holds library)
    (hdetect : ctx.options.detectCycles = true)
    (hinc : library.get? name = some (spot.fill (.include inc)))
    (hproperties : inc.properties = .empty) (hdest : inc.destination? = some target)
    (hbody : library.get? target = some body) (id : String) :
    ∃ answer after, ctx.resolveStatement id = some (answer, after) ∧
      ((∀ chain, answer ≠ .error (.cyclicReference chain)) →
        ∃ after', (ctx.register name (.node (spot.fill body))).resolveStatement id
            = some (answer, after') ∧
          after'.bindings.values = after.bindings.values) := by
  have hinlines : (spot.fill (.include inc)).Inlines library (spot.fill body) :=
    (Node.Inlines.target hproperties hdest hbody).fill spot
  have hlax : ctx.Laxer (ctx.register name (.node (spot.fill body))) :=
    ⟨rfl, fun h => h, fun _ _ h => h⟩
  obtain ⟨answer, after, hanswer, hfollows⟩ :=
    Likeness.exists_answer_of_laxer (Likeness.covers_insert hinc hinlines)
      Likeness.not_shared_cyclicReference hold (hold.register name (spot.fill body)) hlax rfl
      hdetect (qualify ctx.space id)
  refine ⟨answer, after, hanswer, fun hcyclic => ?_⟩
  -- a replaced fragment does not count twice, so the depth is enough for the new run, too
  have hdepth : ctx.registry.size
      < (ctx.register name (.node (spot.fill body))).depthBound := by
    rw [Context.depthBound, Context.register, if_pos hdetect]
    exact Nat.lt_succ_of_le (Dict.size_le_size_insert _ _ _)
  exact hfollows (Likeness.untilCycle_shares hcyclic) _ hdepth

/-- The place of the first include in `top`. -/
def includeSampleSpot : Node.Spot :=
  .inside "select" "top" [] .here
    [.fragment "sql" "" [.include ⟨"n", some (.literal "m.base"), .empty⟩]]

/-- The fragment `left`, to which it points. -/
def includeSampleTarget : Node :=
  .fragment "sql" "left"
    [.include ⟨"m", some (.literal "base"), .empty⟩,
      .include ⟨"m", some (.literal "base"), Dict.empty.insert "t" ⟨"t", "1"⟩⟩]

/-- A fragment with includes of its own is inlined in a statement that includes it. -/
theorem resolveStatement_inline_includeSample :
    includeSampleContext.Holds (Dict.ofList includeSample) ∧
    includeSampleContext.options.detectCycles = true ∧
    (Dict.ofList includeSample).get? "m.top"
      = some (includeSampleSpot.fill (.include ⟨"m", some (.literal "left"), .empty⟩)) ∧
    (Dict.ofList includeSample).get? "m.left" = some includeSampleTarget ∧
    (includeSampleContext.resolveStatement "top").map Prod.fst = some (.ok "t=0t=1t=1") ∧
    ((includeSampleContext.register "m.top"
        (.node (includeSampleSpot.fill includeSampleTarget))).resolveStatement "top").map Prod.fst
      = some (.ok "t=0t=1t=1") := by
  have hold : includeSampleContext.Holds (Dict.ofList includeSample) :=
    Context.holds_registerNodes rfl includeSample
  have hinc : (Dict.ofList includeSample).get? "m.top"
      = some (includeSampleSpot.fill (.include ⟨"m", some (.literal "left"), .empty⟩)) := by cbv
  have hbody : (Dict.ofList includeSample).get? "m.left" = some includeSampleTarget := by cbv
  have htop : (includeSampleContext.resolveStatement "top").map Prod.fst
      = some (.ok "t=0t=1t=1") := by decide +kernel
  refine ⟨hold, rfl, hinc, hbody, htop, ?_⟩
  have hdest : Include.destination? ⟨"m", some (.literal "left"), .empty⟩ = some "m.left" := by
    decide +kernel
  obtain ⟨answer, after, hanswer, hinline⟩ :=
    resolveStatement_inline hold rfl hinc rfl hdest hbody "top"
  rw [hanswer, Option.map_some, Option.some.injEq] at htop
  subst htop
  obtain ⟨after', hafter', -⟩ := hinline (by rintro chain ⟨⟩)
  rw [hafter']
  rfl

end SqlFragments
