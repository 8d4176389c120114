import SqlFragments.Proofs.Resolution.Keeping

/-! # The course of a resolution

Which nodes a resolution comes to, one after the other, and in what context it finds each of them.

* `Node.parts`: a node and all that is nested in it;
* `Node.visits`: the parts of a node that its resolution comes to, up to the first error;
  `visitsWithin` and `Node.visitsWithin` go on into the fragments that are entered;
* `Node.mem_visits`: a visited node is a part, and its context is kept up to there;
* `Node.resolveWith_congr`: nothing is looked up anywhere else;
* `Node.visits_of_ok`, `Node.visits_of_error`: if the answer is a text then every part has been
  visited and gave one, and an error is that of a visited text or include. -/

namespace SqlFragments

/-! ## Parts and visits -/

mutual

/-- A node and all that is nested in it, in document order. -/
def Node.parts : Node → List Node
  | .text ts => [.text ts]
  | .property p => [.property p]
  | .include inc => [.include inc]
  | .fragment tag id children => .fragment tag id children :: Node.allParts children

/-- The parts of nodes one after the other. -/
def Node.allParts : List Node → List Node
  | [] => []
  | node :: nodes => node.parts ++ Node.allParts nodes

end

/-- A node that a resolution comes to, and the context in which it finds it. -/
abbrev Visit := Node × Context

section

variable (expand : String → Context → Resolution)

mutual

/-- The parts of a node that its resolution comes to, `expand` being what expands fragments. -/
def Node.visits : Node → Context → List Visit
  | .text ts, ctx => [(.text ts, ctx)]
  | .property p, ctx => [(.property p, ctx)]
  | .include inc, ctx => [(.include inc, ctx)]
  | .fragment tag id children, ctx =>
    (.fragment tag id children, ctx) :: Node.allVisits children ctx

/-- The visits to nodes one after the other. The first error ends them. -/
def Node.allVisits : List Node → Context → List Visit
  | [], _ => []
  | node :: nodes, ctx =>
    node.visits ctx ++
      match node.resolveWith expand ctx with
      | some (.ok _, mid) => Node.allVisits nodes mid
      | _ => []

end

end

/-- What a visited node looks up, and the context in which it does: only an include that has a
target looks something up. -/
def Visit.lookUp? : Visit → Option (String × Context)
  | (.include inc, ctx) =>
    match inc.target (inc.inside ctx).bindings.values with
    | .error _ => none
    | .ok name => some (name, inc.inside ctx)
  | _ => none

/-- Visits and, behind each of them, those that follow from what it looks up. -/
def Visit.followAll (follow : String → Context → List Visit) (visits : List Visit) : List Visit :=
  visits.flatMap fun v => v :: (v.lookUp?.elim [] fun found => follow found.1 found.2)

/-- All visits in the resolution of the fragment of a name. -/
def visitsWithin : Nat → String → Context → List Visit
  | 0, _, _ => []
  | depth + 1, name, ctx =>
    match ctx.registry.get? name with
    | some (.node body) =>
      if ctx.options.detectCycles && ctx.active.contains name then []
      else
        Visit.followAll (visitsWithin depth)
          (body.visits (resolveFragmentWithin depth) (ctx.enter name))
    | _ => []

/-- All visits in the resolution of a node. -/
def Node.visitsWithin (depth : Nat) (node : Node) (ctx : Context) : List Visit :=
  Visit.followAll (SqlFragments.visitsWithin depth)
    (node.visits (resolveFragmentWithin depth) ctx)

/-- A visited include that points at a name looks it up, from inside of itself. -/
theorem Visit.lookUp?_of_target {inc : Include} {ctx : Context} {name : String}
    (h : inc.target (inc.inside ctx).bindings.values = .ok name) :
    lookUp? (.include inc, ctx) = some (name, inc.inside ctx) := by
  rw [lookUp?, h]

/-- Only an include looks something up. -/
theorem Visit.exists_include_of_lookUp? {v : Visit} {found : String × Context}
    (h : v.lookUp? = some found) : ∃ inc ctx, v = (.include inc, ctx) ∧
      inc.target (inc.inside ctx).bindings.values = .ok found.1 ∧ found.2 = inc.inside ctx := by
  obtain ⟨node, ctx⟩ := v
  cases node with
  | «include» inc =>
    rw [lookUp?] at h
    split at h
    · cases h
    · rename_i name htarget
      rw [← Option.some.inj h]
      exact ⟨inc, ctx, rfl, htarget, rfl⟩
  | text ts => cases h
  | property p => cases h
  | fragment tag id children => cases h

/-- What is come to are the visits themselves and what follows from what they look up. -/
theorem Visit.mem_followAll {follow : String → Context → List Visit} {visits : List Visit}
    {v : Visit} : v ∈ followAll follow visits ↔
      ∃ u ∈ visits, v = u ∨ ∃ found, u.lookUp? = some found ∧ v ∈ follow found.1 found.2 := by
  rw [followAll, List.mem_flatMap]
  refine exists_congr fun u => and_congr_right fun _ => ?_
  rw [List.mem_cons]
  cases u.lookUp? with
  | none => simp
  | some found => simp

/-! ## The visits of a node -/

section

variable {expand : String → Context → Resolution}

mutual

/-- A visited node is a part of the node that is resolved, and its context is kept up to there. -/
theorem Node.mem_visits (hexpand : KeepsContexts expand) :
    ∀ (node : Node) {ctx : Context} {v : Visit}, v ∈ node.visits expand ctx →
      v.1 ∈ node.parts ∧ ctx.Keeps v.2
  | .text _, ctx, _, h => List.mem_singleton.1 h ▸ ⟨List.mem_singleton_self _, .refl ctx⟩
  | .property _, ctx, _, h => List.mem_singleton.1 h ▸ ⟨List.mem_singleton_self _, .refl ctx⟩
  | .include _, ctx, _, h => List.mem_singleton.1 h ▸ ⟨List.mem_singleton_self _, .refl ctx⟩
  | .fragment _ _ children, ctx, v, h => by
    rcases List.mem_cons.1 h with rfl | h
    · exact ⟨List.mem_cons_self, .refl ctx⟩
    · obtain ⟨hpart, hkeeps⟩ := Node.mem_allVisits hexpand children h
      exact ⟨List.mem_cons_of_mem _ hpart, hkeeps⟩

/-- So it is with nodes one after the other. -/
theorem Node.mem_allVisits (hexpand : KeepsContexts expand) :
    ∀ (nodes : List Node) {ctx : Context} {v : Visit}, v ∈ Node.allVisits expand nodes ctx →
      v.1 ∈ Node.allParts nodes ∧ ctx.Keeps v.2
  | [], _, _, h => nomatch h
  | node :: nodes, ctx, v, h => by
    -- visited in the first node, or in those that are resolved behind it
    rcases List.mem_append.1 h with h | h
    · obtain ⟨hpart, hkeeps⟩ := Node.mem_visits hexpand node h
      exact ⟨List.mem_append_left _ hpart, hkeeps⟩
    · split at h
      · rename_i first mid hfirst
        obtain ⟨hpart, hkeeps⟩ := Node.mem_allVisits hexpand nodes h
        exact ⟨List.mem_append_right _ hpart,
          (node.resolveWith_keeps hexpand hfirst).trans hkeeps⟩
      · cases h

end

/-- A visited include looks its target up in the setting of the node that is resolved. -/
theorem Node.sameSetting_inside (hexpand : KeepsContexts expand) {node : Node} {ctx c : Context}
    {inc : Include} (hvisit : (.include inc, c) ∈ node.visits expand ctx) :
    ctx.SameSetting (inc.inside c) :=
  (node.mem_visits hexpand hvisit).2.toSameSetting.trans (inc.sameSetting_inside c)

/-- Whatever a visit looks up, it does so in the setting of the node that is resolved. -/
theorem Node.sameSetting_lookUp (hexpand : KeepsContexts expand) {node : Node} {ctx : Context}
    {v : Visit} {found : String × Context} (hvisit : v ∈ node.visits expand ctx)
    (hfound : v.lookUp? = some found) : ctx.SameSetting found.2 := by
  obtain ⟨inc, c, rfl, -, heq⟩ := v.exists_include_of_lookUp? hfound
  rw [heq]
  exact Node.sameSetting_inside hexpand hvisit

mutual

/-- All that a resolution looks up is looked up at a visit: two ways of expanding fragments that
agree there give the same resolution. -/
theorem Node.resolveWith_congr {expand' : String → Context → Resolution} :
    ∀ (node : Node) {ctx : Context},
      (∀ v ∈ node.visits expand ctx, ∀ found, v.lookUp? = some found →
        expand' found.1 found.2 = expand found.1 found.2) →
      node.resolveWith expand' ctx = node.resolveWith expand ctx
  | .text _, _, _ => rfl
  | .property _, _, _ => rfl
  | .include inc, ctx, h => by
    rw [Node.resolveWith, Node.resolveWith]
    cases htarget : inc.target (inc.inside ctx).bindings.values with
    | error e =>
      rw [Include.resolveWith_of_target_eq_error htarget,
        Include.resolveWith_of_target_eq_error htarget]
    | ok name =>
      rw [Include.resolveWith_of_target_eq_ok htarget, Include.resolveWith_of_target_eq_ok htarget,
        h _ (List.mem_singleton_self _) _ (Visit.lookUp?_of_target htarget)]
  | .fragment _ _ children, _, h =>
    Node.resolveAllWith_congr children fun v hv => h v (List.mem_cons_of_mem _ hv)

/-- So do they give nodes one after the other the same resolution. -/
theorem Node.resolveAllWith_congr {expand' : String → Context → Resolution} :
    ∀ (nodes : List Node) {ctx : Context},
      (∀ v ∈ Node.allVisits expand nodes ctx, ∀ found, v.lookUp? = some found →
        expand' found.1 found.2 = expand found.1 found.2) →
      Node.resolveAllWith expand' nodes ctx = Node.resolveAllWith expand nodes ctx
  | [], _, _ => rfl
  | node :: nodes, ctx, h => by
    rw [Node.resolveAllWith, Node.resolveAllWith,
      node.resolveWith_congr fun v hv => h v (List.mem_append_left _ hv)]
    -- the other nodes are visited only behind a text
    match hfirst : node.resolveWith expand ctx with
    | none => rfl
    | some (.error e, mid) => rfl
    | some (.ok first, mid) =>
      have hmore := Node.resolveAllWith_congr nodes fun v hv => h v (by
        rw [Node.allVisits, hfirst]
        exact List.mem_append_right _ hv)
      simp only [hmore]

end

mutual

/-- If a node gives a text then each of its parts has been visited and gave one. -/
theorem Node.visits_of_ok : ∀ (node : Node) {ctx after : Context} {sql : String},
    node.resolveWith expand ctx = some (.ok sql, after) → ∀ part ∈ node.parts,
      ∃ c, (part, c) ∈ node.visits expand ctx ∧
        ∃ piece last, part.resolveWith expand c = some (.ok piece, last)
  | .text _, ctx, after, sql, h, part, hpart => by
    obtain rfl := List.mem_singleton.1 hpart
    exact ⟨ctx, List.mem_singleton_self _, sql, after, h⟩
  | .property _, ctx, after, sql, h, part, hpart => by
    obtain rfl := List.mem_singleton.1 hpart
    exact ⟨ctx, List.mem_singleton_self _, sql, after, h⟩
  | .include _, ctx, after, sql, h, part, hpart => by
    obtain rfl := List.mem_singleton.1 hpart
    exact ⟨ctx, List.mem_singleton_self _, sql, after, h⟩
  | .fragment _ _ children, ctx, after, sql, h, part, hpart => by
    rcases List.mem_cons.1 hpart with rfl | hpart
    · exact ⟨ctx, List.mem_cons_self, sql, after, h⟩
    · obtain ⟨c, hvisit, hpiece⟩ := Node.allVisits_of_ok children h part hpart
      exact ⟨c, List.mem_cons_of_mem _ hvisit, hpiece⟩

/-- So it is with each part of nodes one after the other. -/
theorem Node.allVisits_of_ok : ∀ (nodes : List Node) {ctx after : Context} {sql : String},
    Node.resolveAllWith expand nodes ctx = some (.ok sql, after) →
    ∀ part ∈ Node.allParts nodes, ∃ c, (part, c) ∈ Node.allVisits expand nodes ctx ∧
      ∃ piece last, part.resolveWith expand c = some (.ok piece, last)
  | [], _, _, _, _, _, hpart => nomatch hpart
  | node :: nodes, ctx, after, sql, h, part, hpart => by
    rcases Node.resolveAllWith_cons_cases h with
      ⟨e, -, habsurd⟩ | ⟨first, mid, hfirst, ⟨e, -, habsurd⟩ | ⟨more, hmore, -⟩⟩
    · cases habsurd
    · cases habsurd
    · rw [Node.allVisits, hfirst]
      rcases List.mem_append.1 hpart with hpart | hpart
      · obtain ⟨c, hvisit, hpiece⟩ := Node.visits_of_ok node hfirst part hpart
        exact ⟨c, List.mem_append_left _ hvisit, hpiece⟩
      · obtain ⟨c, hvisit, hpiece⟩ := Node.allVisits_of_ok nodes hmore part hpart
        exact ⟨c, List.mem_append_right _ hvisit, hpiece⟩

end

/-- A visited node fails: a text in which a variable has no value, or an include. -/
def Visit.Fails (expand : String → Context → Resolution) (e : NodeError) : Visit → Prop
  | (.text ts, ctx) => renderTokens ctx.bindings.values ts = .error e
  | (.include inc, ctx) => ∃ last, inc.resolveWith expand ctx = some (.error e, last)
  | _ => False

mutual

/-- An error is that of a visited text or include. -/
theorem Node.visits_of_error : ∀ (node : Node) {ctx after : Context} {e : NodeError},
    node.resolveWith expand ctx = some (.error e, after) →
      ∃ v ∈ node.visits expand ctx, v.Fails expand e
  | .text ts, ctx, _, _, h =>
    ⟨(.text ts, ctx), List.mem_singleton_self _, (Prod.mk.inj (Option.some.inj h)).1⟩
  | .property _, _, _, _, h => nomatch (Prod.mk.inj (Option.some.inj h)).1
  | .include inc, ctx, after, _, h => ⟨(.include inc, ctx), List.mem_singleton_self _, after, h⟩
  | .fragment _ _ children, _, _, _, h => by
    obtain ⟨v, hvisit, hfails⟩ := Node.allVisits_of_error children h
    exact ⟨v, List.mem_cons_of_mem _ hvisit, hfails⟩

/-- So is the error of nodes one after the other. -/
theorem Node.allVisits_of_error : ∀ (nodes : List Node) {ctx after : Context} {e : NodeError},
    Node.resolveAllWith expand nodes ctx = some (.error e, after) →
      ∃ v ∈ Node.allVisits expand nodes ctx, v.Fails expand e
  | [], _, _, _, h => nomatch (Prod.mk.inj (Option.some.inj h)).1
  | node :: nodes, ctx, after, e, h => by
    rcases Node.resolveAllWith_cons_cases h with
      ⟨e', hfirst, heq⟩ | ⟨first, mid, hfirst, ⟨e', hmore, heq⟩ | ⟨more, -, habsurd⟩⟩
    · cases heq
      obtain ⟨v, hvisit, hfails⟩ := Node.visits_of_error node hfirst
      exact ⟨v, List.mem_append_left _ hvisit, hfails⟩
    · cases heq
      obtain ⟨v, hvisit, hfails⟩ := Node.allVisits_of_error nodes hmore
      refine ⟨v, ?_, hfails⟩
      rw [Node.allVisits, hfirst]
      exact List.mem_append_right _ hvisit
    · cases habsurd

end

end

end SqlFragments
