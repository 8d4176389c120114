import SqlFragments.Proofs.Node.Properties
import SqlFragments.Proofs.Resolution.Running

/-! # The order of an include's bindings

An include makes its bindings one after the other, here in the order of their names. Another order
leads to other notes in the open frames, but to the same variables, now and once frames are closed.
To say so, resolution is told in which order to list the properties of an include, each time that one
is executed (`Listing`).

* `Listing.resolveNode`: resolution with a listing; `Listing.resolveNode_byName`: with the listing by
  name it is the resolution of a node;
* `Context.Congruence`: relations between contexts that every step of a resolution carries on;
* `Listing.meets_resolveNode`: so does every resolution, if the bindings of each include do;
* `SnapshotContext.bindAll_of_perm`: the copies that frames stand for do not depend on the order of
  bindings;
* `Include.listing_unobservable`: so nothing that can be observed does. -/

namespace SqlFragments

/-! ## Resolution with a listing -/

/-- The order in which an include lists its properties, for each turn: includes take turns as they
are executed. -/
abbrev Listing := Nat → Include → List Property

/-- What a resolution with a listing comes to, with the turn that is next. -/
abbrev ListedResolution := Option (Except NodeError String × Context × Nat)

namespace Listing

/-- The properties in the order of their names, at each turn. -/
def byName : Listing := fun _ inc => inc.properties.values

section

variable (listing : Listing) (expand : String → Context → Nat → ListedResolution)

/-- Makes the bindings of an include in the order of its turn, and expands its target. -/
def resolveBound (inc : Include) (ctx : Context) (turn : Nat) : ListedResolution :=
  let ctx := ctx.bindAll (listing turn inc)
  match inc.target ctx.bindings.values with
  | .error e => some (.error e, ctx, turn + 1)
  | .ok name => expand name ctx (turn + 1)

/-- Resolves an include, in a frame if bindings are scoped. -/
def resolveInclude (inc : Include) (ctx : Context) (turn : Nat) : ListedResolution :=
  if ctx.options.scopedBindings then
    (resolveBound listing expand inc ctx.pushFrame turn).map fun r => (r.1, r.2.1.popFrame, r.2.2)
  else resolveBound listing expand inc ctx turn

mutual

/-- Resolves a node, with `expand` for the fragments that it includes. -/
def resolveNodeWith : Node → Context → Nat → ListedResolution
  | .text ts, ctx, turn => some (renderTokens ctx.bindings.values ts, ctx, turn)
  | .property _, ctx, turn => some (.ok "", ctx, turn)
  | .include inc, ctx, turn => resolveInclude listing expand inc ctx turn
  | .fragment _ _ children, ctx, turn => resolveAllWith children ctx turn

/-- Resolves nodes one after the other, up to the first error. -/
def resolveAllWith : List Node → Context → Nat → ListedResolution
  | [], ctx, turn => some (.ok "", ctx, turn)
  | node :: nodes, ctx, turn =>
    match resolveNodeWith node ctx turn with
    | some (.ok first, ctx, turn) =>
      match resolveAllWith nodes ctx turn with
      | some (.ok more, ctx, turn) => some (.ok (first ++ more), ctx, turn)
      | failed => failed
    | failed => failed

end

end

/-- Resolves the fragment of a name in a library, with a bound on the depth. -/
def resolveFragmentWithin (listing : Listing) (library : Dict Node) :
    Nat → String → Context → Nat → ListedResolution
  | 0, _, _, _ => none
  | depth + 1, name, ctx, turn =>
    match library.get? name with
    | none => some (.error (.fragmentNotFound name), ctx, turn)
    | some body =>
      if ctx.options.detectCycles && ctx.active.contains name then
        some (.error (.cyclicReference (ctx.active.reverse ++ [name])), ctx, turn)
      else
        (resolveNodeWith listing (resolveFragmentWithin listing library depth) body
          (ctx.enter name) turn).map fun r => (r.1, r.2.1.leave, r.2.2)

/-- Resolves a node, the includes of a library and of the node taking turns from the first on. -/
def resolveNode (listing : Listing) (library : Dict Node) (node : Node) (ctx : Context) :
    ListedResolution :=
  resolveNodeWith listing (resolveFragmentWithin listing library ctx.depthBound) node ctx 0

end Listing

/-! ## Relations that a resolution carries on -/

/-- A relation between contexts that a resolution cannot tell apart: they have the same values of
variables and the same setting, and frames and fragments lead to contexts in the same relation. -/
structure Context.Congruence (R : Context → Context → Prop) : Prop where
  values : ∀ {c c'}, R c c' → c'.bindings.values = c.bindings.values
  setting : ∀ {c c'}, R c c' → c.SameSetting c'
  pushFrame : ∀ {c c'}, R c c' → R c.pushFrame c'.pushFrame
  popFrame : ∀ {c c'}, R c c' → R c.popFrame c'.popFrame
  enter : ∀ {c c'} name, R c c' → R (c.enter name) (c'.enter name)
  leave : ∀ {c c'}, R c c' → R c.leave c'.leave

/-- Two resolutions, the second one with a listing, come to the same answer and to contexts in a
relation, or neither comes to an answer. -/
inductive Resolution.Meets (R : Context → Context → Prop) : Resolution → ListedResolution → Prop where
  | endless : Meets R none none
  | answered {c c' : Context} (answer : Except NodeError String) (turn : Nat) (h : R c c') :
    Meets R (some (answer, c)) (some (answer, c', turn))

namespace Listing

variable {R : Context → Context → Prop}

/-- The bindings of an include lead to contexts in the same relation, at each turn. -/
def Carries (listing : Listing) (R : Context → Context → Prop) (inc : Include) : Prop :=
  ∀ turn c c', R c c' → R (c.bindAll inc.properties.values) (c'.bindAll (listing turn inc))

/-- What is done to both contexts behind a resolution may be anything that the relation carries on.
-/
theorem meets_map {r : Resolution} {r' : ListedResolution} {f : Context → Context}
    (hf : ∀ {c c'}, R c c' → R (f c) (f c')) (h : r.Meets R r') :
    Resolution.Meets R (r.map fun r => (r.1, f r.2)) (r'.map fun r => (r.1, f r.2.1, r.2.2)) := by
  cases h with
  | endless => exact .endless
  | answered answer turn h => exact .answered answer turn (hf h)

/-- The two ways to expand fragments meet wherever the setting is the given one. -/
def Expands (R : Context → Context → Prop) (setting : Context)
    (expand : String → Context → Resolution)
    (listed : String → Context → Nat → ListedResolution) : Prop :=
  ∀ name c c' turn, setting.SameSetting c → R c c' →
    (expand name c).Meets R (listed name c' turn)

section

variable {listing : Listing} {expand : String → Context → Resolution}
  {listed : String → Context → Nat → ListedResolution} {setting : Context}

/-- Bindings in different orders and the same target meet. -/
theorem meets_resolveBound (hR : Context.Congruence R) (hexpand : Expands R setting expand listed)
    {inc : Include} (hinc : listing.Carries R inc) {c c' : Context} (turn : Nat)
    (hsetting : setting.SameSetting c) (h : R c c') :
    (inc.resolveBound expand c).Meets R (listing.resolveBound listed inc c' turn) := by
  -- the bindings may be made in different orders, and the target is looked up behind all of them
  have hbound := hinc turn c c' h
  rw [Include.resolveBound, resolveBound]
  simp only [hR.values hbound]
  cases inc.target (c.bindAll inc.properties.values).bindings.values with
  | error e => exact .answered _ _ hbound
  | ok name => exact hexpand name _ _ _ (hsetting.trans (c.sameSetting_bindAll _)) hbound

/-- So does an include as a whole, in a frame or without one. -/
theorem meets_resolveInclude (hR : Context.Congruence R) (hexpand : Expands R setting expand listed)
    {inc : Include} (hinc : listing.Carries R inc) {c c' : Context} (turn : Nat)
    (hsetting : setting.SameSetting c) (h : R c c') :
    (inc.resolveWith expand c).Meets R (listing.resolveInclude listed inc c' turn) := by
  rw [Include.resolveWith, resolveInclude, (hR.setting h).options]
  by_cases hscoped : c.options.scopedBindings = true
  · rw [if_pos hscoped, if_pos hscoped]
    have hpush : c.SameSetting c.pushFrame := ⟨rfl, rfl, rfl, rfl⟩
    apply meets_map hR.popFrame
    exact meets_resolveBound hR hexpand hinc turn (hsetting.trans hpush) (hR.pushFrame h)
  · rw [if_neg hscoped, if_neg hscoped]
    exact meets_resolveBound hR hexpand hinc turn hsetting h

mutual

/-- **So does every node**: the two resolutions differ only where an include lists its properties.
-/
theorem meets_resolveNodeWith (hR : Context.Congruence R) (hkeeps : KeepsContexts expand)
    (hexpand : Expands R setting expand listed) :
    ∀ (node : Node), (∀ inc ∈ node.includes, listing.Carries R inc) → ∀ {c c' : Context} (turn : Nat),
      setting.SameSetting c → R c c' →
        (node.resolveWith expand c).Meets R (listing.resolveNodeWith listed node c' turn)
  | .text ts, _, c, c', turn, _, h => by
    rw [Node.resolveWith, resolveNodeWith, hR.values h]
    exact .answered _ turn h
  | .property _, _, _, _, turn, _, h => .answered _ turn h
  | .include inc, hincs, _, _, turn, hsetting, h =>
    meets_resolveInclude hR hexpand (hincs inc (List.mem_singleton_self inc)) turn hsetting h
  | .fragment tag id children, hincs, _, _, turn, hsetting, h =>
    meets_resolveAllWith hR hkeeps hexpand children
      (Node.includes_fragment tag id children ▸ hincs) turn hsetting h

/-- And so do nodes one after the other. -/
theorem meets_resolveAllWith (hR : Context.Congruence R) (hkeeps : KeepsContexts expand)
    (hexpand : Expands R setting expand listed) :
    ∀ (nodes : List Node), (∀ inc ∈ nodes.flatMap Node.includes, listing.Carries R inc) →
      ∀ {c c' : Context} (turn : Nat), setting.SameSetting c → R c c' →
        (Node.resolveAllWith expand nodes c).Meets R (listing.resolveAllWith listed nodes c' turn)
  | [], _, _, _, turn, _, h => .answered _ turn h
  | node :: nodes, hincs, c, c', turn, hsetting, h => by
    have hfirst := meets_resolveNodeWith hR hkeeps hexpand node
      (fun inc hinc => hincs inc (List.mem_append_left _ hinc)) turn hsetting h
    rw [Node.resolveAllWith, resolveAllWith]
    generalize hr : node.resolveWith expand c = r at hfirst ⊢
    generalize listing.resolveNodeWith listed node c' turn = r' at hfirst ⊢
    cases hfirst with
    | endless => exact .endless
    | @answered mid mid' answer turn hmid =>
      cases answer with
      | error e => exact .answered _ turn hmid
      | ok first =>
        -- the other nodes are resolved in contexts that are in the relation again
        have hmore := meets_resolveAllWith hR hkeeps hexpand nodes
          (fun inc hinc => hincs inc (List.mem_append_right _ hinc)) turn
          (hsetting.trans (node.resolveWith_keeps hkeeps hr).toSameSetting) hmid
        simp only
        generalize Node.resolveAllWith expand nodes mid = s at hmore ⊢
        generalize listing.resolveAllWith listed nodes mid' turn = s' at hmore ⊢
        cases hmore with
        | endless => exact .endless
        | @answered after after' answer turn hafter =>
          cases answer with
          | error e => exact .answered _ turn hafter
          | ok more => exact .answered _ turn hafter

end

end

/-- **Every resolution carries a congruence on**, if the bindings of all includes in a library do. -/
theorem meets_resolveFragmentWithin {listing : Listing} (hR : Context.Congruence R)
    {library : Dict Node} (hlibrary : ∀ body ∈ library.values, ∀ inc ∈ body.includes,
      listing.Carries R inc) (depth : Nat) {setting : Context} (hold : setting.Holds library) :
    Expands R setting (SqlFragments.resolveFragmentWithin depth)
      (listing.resolveFragmentWithin library depth) := by
  induction depth generalizing setting with
  | zero => exact fun _ _ _ _ _ _ => .endless
  | succ depth ih =>
    intro name c c' turn hsetting h
    rw [SqlFragments.resolveFragmentWithin, resolveFragmentWithin,
      hold.of_sameSetting hsetting name, (hR.setting h).options, (hR.setting h).active]
    cases hlib : library.get? name with
    | none => exact .answered _ turn h
    | some body =>
      simp only [Option.map_some]
      split
      · exact .answered _ turn h
      · -- the body's includes are those of a registered fragment
        have holdc := hold.of_sameSetting hsetting
        have hentered : (c.enter name).Holds library := holdc
        apply meets_map hR.leave
        exact meets_resolveNodeWith hR (resolveFragmentWithin_keeps depth) (ih hentered) body
          (hlibrary body (Dict.mem_values_of_get? hlib)) turn (.refl _) (hR.enter name h)

/-- From one context, a node is resolved to the same answer with a listing and without. -/
theorem meets_resolveNode {listing : Listing} (hR : Context.Congruence R) {library : Dict Node}
    (hlibrary : ∀ body ∈ library.values, ∀ inc ∈ body.includes, listing.Carries R inc)
    (node : Node) (hnode : ∀ inc ∈ node.includes, listing.Carries R inc) {ctx : Context}
    (hold : ctx.Holds library) (h : R ctx ctx) :
    (ctx.resolveNode node).Meets R (listing.resolveNode library node ctx) :=
  meets_resolveNodeWith hR (resolveFragmentWithin_keeps _)
    (meets_resolveFragmentWithin hR hlibrary ctx.depthBound hold) node hnode 0 (.refl ctx) h

end Listing

/-- Equal contexts are carried on. -/
theorem Context.congruence_eq : Context.Congruence Eq where
  values h := by rw [h]
  setting h := h ▸ .refl _
  pushFrame h := by rw [h]
  popFrame h := by rw [h]
  enter name h := by rw [h]
  leave h := by rw [h]

/-- **The listing by name is that of the program.** -/
theorem Listing.resolveNode_byName {ctx : Context} {library : Dict Node} (hold : ctx.Holds library)
    (node : Node) :
    (byName.resolveNode library node ctx).map (fun r => (r.1, r.2.1)) = ctx.resolveNode node := by
  have hcarries : ∀ inc, byName.Carries Eq inc := fun inc turn c c' h => by rw [h, byName]
  have hmeets := meets_resolveNode Context.congruence_eq (fun _ _ inc _ => hcarries inc) node
    (fun inc _ => hcarries inc) hold rfl
  generalize ctx.resolveNode node = r at hmeets ⊢
  generalize byName.resolveNode library node ctx = r' at hmeets ⊢
  cases hmeets with
  | endless => rfl
  | answered answer turn h => rw [h]; rfl

/-! ## Contexts with the same copies -/

/-- Two contexts whose frames stand for the same copies: they may differ in what the frames note. -/
def Context.Indistinct (c c' : Context) : Prop := c'.snapshot = c.snapshot

namespace Context

/-- No step of a resolution tells apart two contexts that stand for the same copies. -/
theorem indistinct_congruence : Congruence Indistinct where
  values h := congrArg SnapshotContext.values h
  setting h := ⟨congrArg SnapshotContext.space h, congrArg SnapshotContext.registry h,
    congrArg SnapshotContext.options h, congrArg SnapshotContext.active h⟩
  pushFrame h := by rw [Indistinct, snapshot_pushFrame, snapshot_pushFrame, h]
  popFrame h := by rw [Indistinct, snapshot_popFrame, snapshot_popFrame, h]
  enter name h := by rw [Indistinct, snapshot_enter, snapshot_enter, h]
  leave h := by rw [Indistinct, snapshot_leave, snapshot_leave, h]

/-- Closing frames keeps contexts indistinct, however many are closed. -/
theorem Indistinct.popFrame_iterate {c c' : Context} (h : c.Indistinct c') (count : Nat) :
    (popFrame^[count] c).Indistinct (popFrame^[count] c') := by
  induction count with
  | zero => exact h
  | succ count ih =>
    rw [Function.iterate_succ_apply', Function.iterate_succ_apply']
    exact indistinct_congruence.popFrame ih

end Context

namespace SnapshotContext

/-- Two variables can be set in either order. -/
theorem set_comm (ctx : SnapshotContext) {name other : String} (hne : name ≠ other)
    (value more : String) :
    (ctx.set name value).set other more = (ctx.set other more).set name value := by
  rw [set, set, set, set, Dict.insert_comm _ hne]

/-- **Bindings can be made in any order**, where of each name there is one. -/
theorem bindAll_of_perm {properties others : List Property} (h : properties.Perm others)
    (hunique : ∀ p ∈ properties, ∀ q ∈ properties, p.name = q.name → p = q)
    (ctx : SnapshotContext) : ctx.bindAll properties = ctx.bindAll others := by
  apply h.foldl_eq'
  intro p hp q hq ctx
  by_cases hname : p.name = q.name
  · rw [hunique p hp q hq hname]
  · exact ctx.set_comm hname p.value q.value

end SnapshotContext

/-! ## The order is not observed -/

namespace Listing

variable {listing : Listing} {inc : Include}

/-- Bindings that are listed as ever lead to contexts with the same copies. -/
theorem carries_of_eq (h : ∀ turn, listing turn inc = inc.properties.values) :
    listing.Carries Context.Indistinct inc := by
  intro turn c c' hindistinct
  rw [h turn, Context.Indistinct, Context.snapshot_bindAll, Context.snapshot_bindAll, hindistinct]

/-- So it is in whatever order bindings are listed that have names of their own. -/
theorem carries_of_perm (hkeyed : inc.Keyed)
    (h : ∀ turn, (listing turn inc).Perm inc.properties.values) :
    listing.Carries Context.Indistinct inc := by
  intro turn c c' hindistinct
  -- what the frames note is in the order of the bindings, but the copies see the whole of them
  rw [Context.Indistinct, Context.snapshot_bindAll, Context.snapshot_bindAll, hindistinct]
  refine SnapshotContext.bindAll_of_perm (h turn) (fun p hp q hq hname => ?_) _
  exact hkeyed.eq_of_name_eq ((h turn).subset hp) ((h turn).subset hq) hname

/-- A listing of the includes that are executed. Each time one is, it lists all of its properties, in
whatever order. Only an include with bindings under other names than their own, as none that has been
built has, lists them as ever. -/
structure Fair (listing : Listing) (library : Dict Node) : Prop where
  perm : ∀ turn inc, (listing turn inc).Perm inc.properties.values
  fixed : ∀ body ∈ library.values, ∀ inc ∈ body.includes, ¬ inc.Keyed →
    ∀ turn, listing turn inc = inc.properties.values

/-- So it is with every include in a library, if the listing is fair. -/
theorem Fair.carries {library : Dict Node} (h : listing.Fair library) {body : Node}
    (hbody : body ∈ library.values) (hinc : inc ∈ body.includes) :
    listing.Carries Context.Indistinct inc := by
  by_cases hkeyed : inc.Keyed
  · exact carries_of_perm hkeyed fun turn => h.perm turn inc
  · exact carries_of_eq (h.fixed body hbody inc hinc hkeyed)

/-- Where the bindings of a node's includes do not depend on their order, its answer does not, and the
contexts that it leaves cannot be told apart. -/
theorem exists_resolveNode {library : Dict Node} (hfair : listing.Fair library) {node : Node}
    (hnode : ∀ inc ∈ node.includes, listing.Carries Context.Indistinct inc) {ctx after : Context}
    (hold : ctx.Holds library) {answer : Except NodeError String}
    (h : ctx.resolveNode node = some (answer, after)) :
    ∃ after' turn, listing.resolveNode library node ctx = some (answer, after', turn) ∧
      after.Indistinct after' := by
  have hmeets := meets_resolveNode Context.indistinct_congruence
    (fun _ hbody _ hinc => hfair.carries hbody hinc) node hnode hold rfl
  rw [h] at hmeets
  generalize listing.resolveNode library node ctx = r' at hmeets ⊢
  cases hmeets with
  | answered answer turn hafter => exact ⟨_, turn, rfl, hafter⟩

end Listing

/-- **The order of an include's bindings is not observed.** However an include has been built, each of
its bindings is there under its own name. With cycle detection, whatever nodes are registered, with
scoped bindings or without, and whatever frames are open, the include comes to an answer; and in
whatever order it and the includes that it leads to list their properties each time, the answer is
the same, and so are the values of variables, then and after any number of frames has been closed.
Properties with names of their own build the same include in any order, and whether they are taken up
at once or in several batches. -/
theorem Include.listing_unobservable {inc : Include} (hbuilt : inc.Built) :
    inc.Keyed ∧
    (∀ (ctx : Context) (library : Dict Node), ctx.Holds library →
      ctx.options.detectCycles = true →
      ∃ answer after, ctx.resolveNode (.include inc) = some (answer, after) ∧
        ∀ listing : Listing, listing.Fair library →
          ∃ after' turn, listing.resolveNode library (.include inc) ctx = some (answer, after', turn) ∧
            ∀ count, (Context.popFrame^[count] after').bindings.values
              = (Context.popFrame^[count] after).bindings.values) ∧
    ∀ (nodes : List Node) (batches : List (List Node)), batches.flatten.Perm nodes →
      ((propertiesAmong nodes).map (·.name)).Nodup →
      (∀ p ∈ propertiesAmong nodes, inc.properties.get? p.name = none) →
        inc.addBatches batches = inc.addChildren nodes ∧ (inc.addChildren nodes).1 = .ok () := by
  refine ⟨hbuilt.keyed, ?_, ?_⟩
  · intro ctx library hold hdetect
    obtain ⟨answer, after, heq, -⟩ := ctx.resolveDefinition_settles hdetect (.node (.include inc))
    have hanswer : ctx.resolveNode (.include inc) = some (answer, after) := heq
    refine ⟨answer, after, hanswer, fun listing hfair => ?_⟩
    have hinc : ∀ other ∈ (Node.include inc).includes,
        listing.Carries Context.Indistinct other := by
      intro other hother
      obtain rfl := List.mem_singleton.1 hother
      exact Listing.carries_of_perm hbuilt.keyed fun turn => hfair.perm turn other
    obtain ⟨after', turn, hlisted, hafter⟩ := Listing.exists_resolveNode hfair hinc hold hanswer
    refine ⟨after', turn, hlisted, fun count => ?_⟩
    exact Context.indistinct_congruence.values (hafter.popFrame_iterate count)
  · intro nodes batches hperm hnodup hnew
    rw [addBatches_eq, addChildren_of_perm hperm hnodup hnew, addChildren_of_nodup hnodup hnew]
    exact ⟨rfl, rfl⟩

/-- The properties in the order of their names and backwards by turns, backwards first. -/
def Listing.alternating : Listing := fun turn inc =>
  if turn % 2 = 0 then inc.properties.values.reverse else inc.properties.values

/-- An include of `mid` as it is built, with a property in each of two batches. -/
def Include.sample : Include :=
  ((((Include.empty "m").scan [⟨"refid", "mid"⟩]).2.addChildren [.property ⟨"t", "1"⟩]).2.addChildren
    [.property ⟨"source", "m.base"⟩]).2

/-- A context without scoped bindings in which a frame is open. -/
def Listing.sampleContext : Context := { Lexical.sampleContext with options := ⟨false, true⟩ }

/-- With the sample's bindings made backwards at every other turn the open frame notes something
else, and nothing of it is seen. -/
theorem Include.listing_unobservable_alternating :
    Include.sample.Built ∧ Listing.alternating.Fair (Dict.ofList Lexical.sampleNodes) ∧
    ∃ after after' turn,
      Listing.sampleContext.resolveNode (.include Include.sample) = some (.ok "t=22", after) ∧
      Listing.alternating.resolveNode (Dict.ofList Lexical.sampleNodes) (.include Include.sample)
        Listing.sampleContext = some (.ok "t=22", after', turn) ∧
      after'.bindings.frames ≠ after.bindings.frames ∧
      after'.popFrame.bindings.values = after.popFrame.bindings.values ∧
      Include.sample.addBatches [[.property ⟨"v", "3"⟩], [.property ⟨"u", "2"⟩]]
        = Include.sample.addChildren [.property ⟨"u", "2"⟩, .property ⟨"v", "3"⟩] := by
  have hbuilt : Include.sample.Built := .addChildren _ (.addChildren _ (.scan _ (.empty "m")))
  have hfair : Listing.alternating.Fair (Dict.ofList Lexical.sampleNodes) := by
    constructor
    · intro turn inc
      unfold Listing.alternating
      split
      · exact List.reverse_perm _
      · exact .refl _
    · have hkeyed : ∀ body ∈ (Dict.ofList Lexical.sampleNodes).values,
          ∀ inc ∈ body.includes, inc.Keyed := by decide +kernel
      exact fun body hbody inc hinc h => absurd (hkeyed body hbody inc hinc) h
  have hold : Listing.sampleContext.Holds (Dict.ofList Lexical.sampleNodes) :=
    Context.holds_registerNodes rfl Lexical.sampleNodes
  obtain ⟨-, hlisted, hbatches⟩ := Include.listing_unobservable hbuilt
  obtain ⟨answer, after, hanswer, hall⟩ := hlisted Listing.sampleContext _ hold rfl
  obtain ⟨after', turn, hanswer', hvalues⟩ := hall Listing.alternating hfair
  have hsql : (Listing.sampleContext.resolveNode (.include Include.sample)).map Prod.fst
      = some (.ok "t=22") := by decide +kernel
  -- the frame has noted the two variables in another order
  have hframes : (Listing.sampleContext.resolveNode (.include Include.sample)).map
      (·.2.bindings.frames) = some [[("t", some "0"), ("source", none)]] := by decide +kernel
  have hframes' : (Listing.alternating.resolveNode (Dict.ofList Lexical.sampleNodes)
      (.include Include.sample) Listing.sampleContext).map (·.2.1.bindings.frames)
        = some [[("source", none), ("t", some "0")]] := by decide +kernel
  rw [hanswer, Option.map_some, Option.some.injEq] at hsql hframes
  rw [hanswer', Option.map_some, Option.some.injEq] at hframes'
  obtain rfl : answer = _ := hsql
  refine ⟨hbuilt, hfair, after, after', turn, hanswer, hanswer', ?_, hvalues 1, ?_⟩
  · rw [hframes, hframes']
    decide
  · have hperm : [[Node.property ⟨"v", "3"⟩], [.property ⟨"u", "2"⟩]].flatten.Perm
        [.property ⟨"u", "2"⟩, .property ⟨"v", "3"⟩] := .swap _ _ []
    exact (hbatches _ _ hperm (by decide) (by decide +kernel)).1

end SqlFragments
