import Mathlib.Data.List.Forall2
import SqlFragments.Proofs.Resolution.Cycles

/-! # Runs that follow each other

Two resolutions, of nodes that need not be the same and in contexts that need not be, are compared
step by step: as long as the one comes to an answer that is to be shared, the other comes to it,
too, and the values of variables stay alike.

* `Likeness`: how the values of variables are alike, and which errors are to be shared;
* `Likeness.Follows`: what it is for one run to follow another;
* `Node.Inlines`: a node in which includes without properties stand for what they point at;
* `Likeness.CoveredBy`: a registry with all the fragments of a library, perhaps so inlined;
* `Context.Laxer`: a context that stops no run which the other does not stop;
* `Likeness.follows_resolveFragmentWithin`: in a laxer context, with fragments in which includes
  may be inlined, the run of every fragment is followed. -/

namespace SqlFragments

open SqlFragments.Placeholder

/-! ## Likeness -/

/-- What a run has in common with one that follows it. -/
structure Likeness where
  /-- How the values of variables in the one are like those in the other. -/
  Alike : Dict String → Dict String → Prop
  /-- The errors with which the other has to fail, too. -/
  Shared : NodeError → Prop
  alike_insert : ∀ {v v' : Dict String} (name value : String), Alike v v' →
    Alike (v.insert name value) (v'.insert name value)
  get?_of_some : ∀ {v v' : Dict String} {name value : String}, Alike v v' →
    v.get? name = some value → v'.get? name = some value
  get?_of_none : ∀ {v v' : Dict String} {name : String}, Alike v v' →
    Shared (.undefinedVariable name) → v.get? name = none → v'.get? name = none

namespace Likeness

/-- Texts are always shared, and some of the errors. -/
def Shares (ℓ : Likeness) {α : Type _} (answer : Except NodeError α) : Prop :=
  ∀ e, answer = .error e → ℓ.Shared e

variable {ℓ : Likeness} {v v' : Dict String}

/-- If the answer with its text changed is shared then the answer itself is. -/
theorem Shares.of_map {α β : Type _} {answer : Except NodeError α} {f : α → β}
    (h : ℓ.Shares (answer.map f)) : ℓ.Shares answer := by
  rintro e rfl
  exact h e rfl

/-- From values that are alike tokens come to the same text, or to the same error if it is shared.
-/
theorem renderTokens_eq (halike : ℓ.Alike v v') {tokens : List Token}
    (h : ℓ.Shares (renderTokens v tokens)) : renderTokens v' tokens = renderTokens v tokens := by
  induction tokens with
  | nil => rfl
  | cons token tokens ih =>
    cases token with
    | literal text =>
      rw [renderTokens] at h ⊢
      rw [ih h.of_map, renderTokens]
    | «variable» name =>
      rw [renderTokens] at h ⊢
      rw [renderTokens]
      -- only a variable looks at the values; all other tokens leave it to those that follow
      cases hget : v.get? name with
      | none =>
        rw [hget] at h
        rw [ℓ.get?_of_none halike (h _ rfl) hget]
      | some value =>
        simp only [hget] at h
        simp only [ℓ.get?_of_some halike hget, ih h.of_map]
    | parameter expr =>
      rw [renderTokens] at h ⊢
      rw [ih h.of_map, renderTokens]
    | endOfText => exact ih h

/-- From values that are alike an include points at the same fragment. -/
theorem target_eq (halike : ℓ.Alike v v') {inc : Include} (h : ℓ.Shares (inc.target v)) :
    inc.target v' = inc.target v := by
  rw [Include.target] at h ⊢
  rw [Include.target]
  rcases hreference : inc.reference with _ | id | name
  · rfl
  · rfl
  · simp only
    cases hget : v.get? name with
    | none => rw [ℓ.get?_of_none halike (h _ (by simp [hreference, hget])) hget]
    | some value => rw [ℓ.get?_of_some halike hget]

end Likeness

/-! ## The values of variables around an include -/

/-- The values that variables have after properties have been bound. -/
def Dict.bindAll (values : Dict String) (properties : List Property) : Dict String :=
  properties.foldl (fun values p => values.insert p.name p.value) values

/-- Binding properties in a context binds them in its values. -/
theorem Context.values_bindAll (ctx : Context) (properties : List Property) :
    (ctx.bindAll properties).bindings.values = ctx.bindings.values.bindAll properties := by
  induction properties generalizing ctx with
  | nil => rfl
  | cons p properties ih => exact ih (ctx.set p.name p.value)

/-- Inside an include its properties are bound, in a frame of their own or not. -/
theorem Include.values_inside (inc : Include) (ctx : Context) :
    (inc.inside ctx).bindings.values = ctx.bindings.values.bindAll inc.properties.values := by
  rw [inside, Context.values_bindAll]
  split <;> rfl

/-- Values stay alike when the same properties are bound in both. -/
theorem Likeness.alike_bindAll {ℓ : Likeness} {v v' : Dict String} (h : ℓ.Alike v v')
    (properties : List Property) : ℓ.Alike (v.bindAll properties) (v'.bindAll properties) := by
  induction properties generalizing v v' with
  | nil => exact h
  | cons p properties ih => exact ih (ℓ.alike_insert p.name p.value h)

/-- Behind an include with scoped bindings variables have the values again that they had before
it. -/
theorem Context.values_behind_of_scoped {inc : Include} {ctx last : Context}
    (hscoped : ctx.options.scopedBindings = true) (h : (inc.inside ctx).Keeps last) :
    (ctx.behind last).bindings.values = ctx.bindings.values := by
  have hsaved : (ctx.behind last).snapshot = last.snapshot.popFrame := by
    rw [behind, if_pos hscoped, snapshot_popFrame]
  have hcopies : last.snapshot.saved = ctx.snapshot.values :: ctx.snapshot.saved := by
    rw [h.saved, Include.inside, if_pos hscoped]
    exact (ctx.pushFrame.keeps_bindAll _).saved
  rw [SnapshotContext.popFrame, hcopies] at hsaved
  exact congrArg SnapshotContext.values hsaved

/-- Without scoped bindings an include has no frame that would be closed. -/
theorem Context.behind_of_not_scoped {ctx last : Context}
    (hscoped : ctx.options.scopedBindings = false) : ctx.behind last = last := by
  rw [behind, if_neg (by simp [hscoped])]

section

variable {expand : String → Context → Resolution}

mutual

/-- With scoped bindings a node leaves the values of variables as they were. -/
theorem Node.values_of_scoped (hkeeps : KeepsContexts expand) :
    ∀ (node : Node) {ctx after : Context} {answer : Except NodeError String},
      ctx.options.scopedBindings = true → node.resolveWith expand ctx = some (answer, after) →
        after.bindings.values = ctx.bindings.values
  | .text _, _, _, _, _, h => by rw [(Prod.mk.inj (Option.some.inj h)).2]
  | .property _, _, _, _, _, h => by rw [(Prod.mk.inj (Option.some.inj h)).2]
  | .include inc, _, _, _, hscoped, h => by
    rcases Include.resolveWith_cases h with ⟨e, -, -, rfl⟩ | ⟨name, last, -, hlast, rfl⟩
    · exact Context.values_behind_of_scoped hscoped (.refl _)
    · exact Context.values_behind_of_scoped hscoped (hkeeps hlast)
  | .fragment _ _ children, _, _, _, hscoped, h =>
    Node.values_of_scoped_all hkeeps children hscoped h

/-- So do nodes one after the other. -/
theorem Node.values_of_scoped_all (hkeeps : KeepsContexts expand) :
    ∀ (nodes : List Node) {ctx after : Context} {answer : Except NodeError String},
      ctx.options.scopedBindings = true →
      Node.resolveAllWith expand nodes ctx = some (answer, after) →
        after.bindings.values = ctx.bindings.values
  | [], _, _, _, _, h => by rw [(Prod.mk.inj (Option.some.inj h)).2]
  | node :: nodes, ctx, _, _, hscoped, h => by
    have hrest : ∀ {mid after : Context} {first : String} {answer : Except NodeError String},
        node.resolveWith expand ctx = some (.ok first, mid) →
        Node.resolveAllWith expand nodes mid = some (answer, after) →
          after.bindings.values = ctx.bindings.values := by
      intro mid after first answer hfirst hmore
      have hmid : mid.options.scopedBindings = true := by
        rw [(node.resolveWith_keeps hkeeps hfirst).options, hscoped]
      rw [Node.values_of_scoped_all hkeeps nodes hmid hmore,
        Node.values_of_scoped hkeeps node hscoped hfirst]
    -- the first node fails, or the others follow it
    rcases Node.resolveAllWith_cons_cases h with
      ⟨e, hfirst, -⟩ | ⟨first, mid, hfirst, ⟨e, hmore, -⟩ | ⟨more, hmore, -⟩⟩
    · exact Node.values_of_scoped hkeeps node hscoped hfirst
    · exact hrest hfirst hmore
    · exact hrest hfirst hmore

end

end

/-! ## Includes that are inlined -/

/-- The second node is the first one with some includes replaced by what they point at, each of
them an include without properties and with a literal reference. -/
inductive Node.Inlines (library : Dict Node) : Node → Node → Prop where
  | text (tokens : List Token) : Inlines library (.text tokens) (.text tokens)
  | property (p : Property) : Inlines library (.property p) (.property p)
  | «include» (inc : Include) : Inlines library (.include inc) (.include inc)
  | target {inc : Include} {name : String} {body : Node} (hproperties : inc.properties = .empty)
    (hdest : inc.destination? = some name) (hbody : library.get? name = some body) :
    Inlines library (.include inc) body
  | fragment (tag id : String) {children children' : List Node}
    (h : List.Forall₂ (Inlines library) children children') :
    Inlines library (.fragment tag id children) (.fragment tag id children')

mutual

/-- Nothing need be replaced. -/
theorem Node.Inlines.refl (library : Dict Node) : ∀ node : Node, node.Inlines library node
  | .text tokens => .text tokens
  | .property p => .property p
  | .include inc => .include inc
  | .fragment tag id children => .fragment tag id (Node.Inlines.refl_all library children)

/-- Nor in any of several nodes. -/
theorem Node.Inlines.refl_all (library : Dict Node) :
    ∀ nodes : List Node, List.Forall₂ (Node.Inlines library) nodes nodes
  | [] => .nil
  | node :: nodes => .cons (Node.Inlines.refl library node) (Node.Inlines.refl_all library nodes)

end

/-! ## Following -/

/-- In contexts of two settings, with values that are alike, the second run comes to every answer
of the first that is to be shared, and leaves values that are alike. -/
def Likeness.Follows (ℓ : Likeness) (setting setting' : Context)
    (run run' : Context → Resolution) : Prop :=
  ∀ ⦃c c' after : Context⦄ ⦃answer : Except NodeError String⦄,
    setting.SameSetting c → setting'.SameSetting c' →
    ℓ.Alike c.bindings.values c'.bindings.values →
    run c = some (answer, after) → ℓ.Shares answer →
      ∃ after', run' c' = some (answer, after') ∧
        ℓ.Alike after.bindings.values after'.bindings.values

namespace Likeness

section

variable {ℓ : Likeness} {setting setting' : Context}
  {expand expand' : String → Context → Resolution}

/-- Values that are alike at the end of an include are alike behind it. -/
theorem alike_behind {inc : Include} {c c' last last' : Context}
    (hscoped : c'.options.scopedBindings = c.options.scopedBindings)
    (halike : ℓ.Alike c.bindings.values c'.bindings.values)
    (hkeeps : (inc.inside c).Keeps last) (hkeeps' : (inc.inside c').Keeps last')
    (hlast : ℓ.Alike last.bindings.values last'.bindings.values) :
    ℓ.Alike (c.behind last).bindings.values (c'.behind last').bindings.values := by
  cases h : c.options.scopedBindings with
  | false =>
    rwa [Context.behind_of_not_scoped h, Context.behind_of_not_scoped (hscoped.trans h)]
  | true =>
    rwa [Context.values_behind_of_scoped h hkeeps,
      Context.values_behind_of_scoped (hscoped.trans h) hkeeps']

/-- An include, where the fragments that it may point at are followed. -/
theorem follows_include
    (hscoped : setting'.options.scopedBindings = setting.options.scopedBindings)
    (hkeeps : KeepsContexts expand) (hkeeps' : KeepsContexts expand')
    (hexpand : ∀ name, ℓ.Follows setting setting' (expand name) (expand' name)) (inc : Include) :
    ℓ.Follows setting setting' (inc.resolveWith expand) (inc.resolveWith expand') := by
  intro c c' after answer hc hc' halike hrun hshares
  have hoptions : c'.options.scopedBindings = c.options.scopedBindings := by
    rw [hc'.options, hc.options, hscoped]
  have hinside : ℓ.Alike (inc.inside c).bindings.values (inc.inside c').bindings.values := by
    rw [inc.values_inside, inc.values_inside]
    exact alike_bindAll halike _
  rcases Include.resolveWith_cases hrun with
    ⟨e, htarget, rfl, rfl⟩ | ⟨name, last, htarget, hlast, rfl⟩
  · -- the reference cannot be read here, and for the same reason not there
    have htarget' : inc.target (inc.inside c').bindings.values = .error e := by
      rw [target_eq hinside, htarget]
      rw [htarget]
      exact fun e' he => hshares e' (by rw [Except.error.inj he])
    refine ⟨_, Include.resolveWith_of_target_eq_error htarget', ?_⟩
    exact alike_behind hoptions halike (.refl _) (.refl _) hinside
  · -- both point at the same fragment, and its runs begin with values that are alike
    have htarget' : inc.target (inc.inside c').bindings.values = .ok name := by
      rw [target_eq hinside, htarget]
      rw [htarget]
      exact fun e he => nomatch he
    obtain ⟨last', hlast', halike'⟩ := hexpand name (hc.trans (inc.sameSetting_inside c))
      (hc'.trans (inc.sameSetting_inside c')) hinside hlast hshares
    refine ⟨c'.behind last', ?_, ?_⟩
    · rw [Include.resolveWith_of_target_eq_ok htarget', hlast']
      rfl
    · exact alike_behind hoptions halike (hkeeps hlast) (hkeeps' hlast') halike'

/-- An include without properties, where its target is followed in its place. The include's frame
is closed again, and with scoped bindings the target leaves no values behind, either. -/
theorem follows_target {inc : Include} {name : String} {body : Node}
    (hscoped : setting'.options.scopedBindings = setting.options.scopedBindings)
    (hkeeps : KeepsContexts expand) (hkeeps' : KeepsContexts expand')
    (hproperties : inc.properties = .empty) (hdest : inc.destination? = some name)
    (hbody : ℓ.Follows setting setting' (expand name) (body.resolveWith expand')) :
    ℓ.Follows setting setting' (inc.resolveWith expand) (body.resolveWith expand') := by
  intro c c' after answer hc hc' halike hrun hshares
  have hinside : (inc.inside c).bindings.values = c.bindings.values := by
    rw [inc.values_inside, hproperties]
    rfl
  rcases Include.resolveWith_cases hrun with ⟨e, htarget, -⟩ | ⟨target, last, htarget, hlast, rfl⟩
  · -- a literal reference can always be read
    cases (inc.target_eq_destination hdest _).symm.trans htarget
  · cases (inc.target_eq_destination hdest _).symm.trans htarget
    obtain ⟨after', hafter', halike'⟩ := hbody (hc.trans (inc.sameSetting_inside c)) hc'
      (by rwa [hinside]) hlast hshares
    refine ⟨after', hafter', ?_⟩
    cases h : c.options.scopedBindings with
    | false => rwa [Context.behind_of_not_scoped h]
    | true =>
      -- the frame of the include takes back what is set behind it, and the inlined target sets
      -- variables only inside of its own includes
      have h' : c'.options.scopedBindings = true := by
        rw [hc'.options, hscoped, ← hc.options, h]
      rwa [Context.values_behind_of_scoped h (hkeeps hlast),
        body.values_of_scoped hkeeps' h' hafter']

mutual

/-- **A node is followed by the node in which includes are inlined**, where the fragments that it
includes are followed, both by themselves and by their bodies. -/
theorem follows_node
    (hscoped : setting'.options.scopedBindings = setting.options.scopedBindings)
    (hkeeps : KeepsContexts expand) (hkeeps' : KeepsContexts expand') {library : Dict Node}
    (hexpand : ∀ name, ℓ.Follows setting setting' (expand name) (expand' name))
    (hbody : ∀ name body, library.get? name = some body →
      ℓ.Follows setting setting' (expand name) (body.resolveWith expand')) :
    ∀ (node : Node) {node' : Node}, node.Inlines library node' →
      ℓ.Follows setting setting' (node.resolveWith expand) (node'.resolveWith expand')
  | .text tokens, _, .text _ => by
    intro c c' after answer _ _ halike hrun hshares
    obtain ⟨rfl, rfl⟩ := Prod.mk.inj (Option.some.inj hrun)
    exact ⟨c', by rw [Node.resolveWith, renderTokens_eq halike hshares], halike⟩
  | .property p, _, .property _ => by
    intro c c' after answer _ _ halike hrun _
    obtain ⟨rfl, rfl⟩ := Prod.mk.inj (Option.some.inj hrun)
    exact ⟨c', rfl, halike⟩
  | .include inc, _, .include _ => follows_include hscoped hkeeps hkeeps' hexpand inc
  | .include inc, body, .target hproperties hdest hlib =>
    follows_target hscoped hkeeps hkeeps' hproperties hdest (hbody _ body hlib)
  | .fragment _ _ children, _, .fragment _ _ h =>
    follows_all hscoped hkeeps hkeeps' hexpand hbody children h

/-- Nodes one after the other are followed, each in the contexts that the ones before it leave. -/
theorem follows_all
    (hscoped : setting'.options.scopedBindings = setting.options.scopedBindings)
    (hkeeps : KeepsContexts expand) (hkeeps' : KeepsContexts expand') {library : Dict Node}
    (hexpand : ∀ name, ℓ.Follows setting setting' (expand name) (expand' name))
    (hbody : ∀ name body, library.get? name = some body →
      ℓ.Follows setting setting' (expand name) (body.resolveWith expand')) :
    ∀ (nodes : List Node) {nodes' : List Node}, List.Forall₂ (Node.Inlines library) nodes nodes' →
      ℓ.Follows setting setting' (Node.resolveAllWith expand nodes)
        (Node.resolveAllWith expand' nodes')
  | [], _, .nil => by
    intro c c' after answer _ _ halike hrun _
    obtain ⟨rfl, rfl⟩ := Prod.mk.inj (Option.some.inj hrun)
    exact ⟨c', rfl, halike⟩
  | node :: nodes, node' :: _, .cons hnode hnodes => by
    intro c c' after answer hc hc' halike hrun hshares
    have hfollows := follows_node hscoped hkeeps hkeeps' hexpand hbody node hnode
    have hrest := follows_all hscoped hkeeps hkeeps' hexpand hbody nodes hnodes
    rcases Node.resolveAllWith_cons_cases hrun with
      ⟨e, hfirst, rfl⟩ | ⟨first, mid, hfirst, hmore⟩
    · obtain ⟨after', hfirst', halike'⟩ := hfollows hc hc' halike hfirst hshares
      exact ⟨after', by rw [Node.resolveAllWith, hfirst'], halike'⟩
    · -- behind a text the other nodes go on, in contexts of the same settings
      obtain ⟨mid', hfirst', hmid⟩ := hfollows hc hc' halike hfirst fun e he => nomatch he
      have hc := hc.trans (node.resolveWith_keeps hkeeps hfirst).toSameSetting
      have hc' := hc'.trans (node'.resolveWith_keeps hkeeps' hfirst').toSameSetting
      rcases hmore with ⟨e, hmore, rfl⟩ | ⟨more, hmore, rfl⟩
      · obtain ⟨after', hmore', halike'⟩ := hrest hc hc' hmid hmore hshares
        exact ⟨after', by rw [Node.resolveAllWith, hfirst']; simp only [hmore'], halike'⟩
      · obtain ⟨after', hmore', halike'⟩ := hrest hc hc' hmid hmore fun e he => nomatch he
        exact ⟨after', by rw [Node.resolveAllWith, hfirst']; simp only [hmore'], halike'⟩

end

end

end Likeness

/-! ## Runs in a laxer context -/

/-- Of two contexts, the second stops no run for a cycle that the first does not stop, and treats
bindings alike. -/
structure Context.Laxer (ctx lax : Context) : Prop where
  scopedBindings : lax.options.scopedBindings = ctx.options.scopedBindings
  detectCycles : lax.options.detectCycles = true → ctx.options.detectCycles = true
  active : lax.options.detectCycles = true → ∀ name ∈ lax.active, name ∈ ctx.active

namespace Context.Laxer

variable {ctx lax c c' : Context}

/-- Contexts that differ from these only in their variables are as lax. -/
theorem of_sameSetting (h : ctx.Laxer lax) (hc : ctx.SameSetting c) (hc' : lax.SameSetting c') :
    c.Laxer c' := by
  constructor
  · rw [hc.options, hc'.options, h.scopedBindings]
  · rw [hc.options, hc'.options]
    exact h.detectCycles
  · rw [hc.active, hc'.options, hc'.active]
    exact h.active

/-- Entering a fragment in the stricter context alone leaves the other one laxer. -/
theorem enter_left (h : ctx.Laxer lax) (name : String) : (ctx.enter name).Laxer lax where
  scopedBindings := h.scopedBindings
  detectCycles := h.detectCycles
  active hdetect other hother := List.mem_cons_of_mem name (h.active hdetect other hother)

/-- Entering a fragment in both contexts leaves the second one laxer. -/
theorem enter (h : ctx.Laxer lax) (name : String) : (ctx.enter name).Laxer (lax.enter name) where
  scopedBindings := h.scopedBindings
  detectCycles := h.detectCycles
  active hdetect other hother := by
    rcases List.mem_cons.1 hother with rfl | hother
    · exact List.mem_cons_self
    · exact (h.enter_left name).active hdetect other hother

/-- A fragment that can be entered in the stricter context can be entered in the laxer one. -/
theorem not_stopped (h : ctx.Laxer lax) {name : String}
    (hnew : ctx.options.detectCycles = true → name ∉ ctx.active) :
    (lax.options.detectCycles && lax.active.contains name) = false := by
  cases hdetect : lax.options.detectCycles with
  | false => rfl
  | true =>
    rw [Bool.true_and, List.contains_eq_mem, decide_eq_false_iff_not]
    exact fun hmem => hnew (h.detectCycles hdetect) (h.active hdetect name hmem)

end Context.Laxer

/-- Of two libraries, the second has all the fragments of the first, perhaps with includes inlined.
If it has any others then a missing fragment is no error that is to be shared. -/
structure Likeness.Covers (ℓ : Likeness) (library library' : Dict Node) : Prop where
  get?_of_some : ∀ {name body}, library.get? name = some body →
    ∃ body', library'.get? name = some body' ∧ body.Inlines library body'
  get?_of_none : ∀ {name}, library.get? name = none → ℓ.Shared (.fragmentNotFound name) →
    library'.get? name = none

/-- The same of a library and a registry, in which there may be fragments of the application
besides. -/
structure Likeness.CoveredBy (ℓ : Likeness) (library : Dict Node) (registry : Dict Definition) :
    Prop where
  get?_of_some : ∀ {name body}, library.get? name = some body →
    ∃ body', registry.get? name = some (.node body') ∧ body.Inlines library body'
  get?_of_none : ∀ {name}, library.get? name = none → ℓ.Shared (.fragmentNotFound name) →
    registry.get? name = none

/-- A registry that holds a covering library covers, too. -/
theorem Likeness.Covers.coveredBy {ℓ : Likeness} {library library' : Dict Node} {ctx : Context}
    (h : ℓ.Covers library library') (hold : ctx.Holds library') :
    ℓ.CoveredBy library ctx.registry where
  get?_of_some {name body} hlib := by
    obtain ⟨body', hlib', hinlines⟩ := h.get?_of_some hlib
    exact ⟨body', by rw [hold name, hlib', Option.map_some], hinlines⟩
  get?_of_none {name} hlib hshared := by
    rw [hold name, h.get?_of_none hlib hshared, Option.map_none]

/-- Contexts of one setting have one setting inside a fragment. -/
theorem Context.SameSetting.enter {setting c : Context} (h : setting.SameSetting c)
    (name : String) : (setting.enter name).SameSetting (c.enter name) :=
  ⟨h.space, h.registry, h.options, congrArg (name :: ·) h.active⟩

section

variable {library : Dict Node} {ctx after : Context} {name : String} {depth : Nat}
  {answer : Except NodeError String}

/-- A fragment that is not registered is not found. -/
theorem resolveFragmentWithin_of_get?_eq_none (hreg : ctx.registry.get? name = none) :
    resolveFragmentWithin (depth + 1) name ctx = some (.error (.fragmentNotFound name), ctx) := by
  rw [resolveFragmentWithin, hreg]

/-- A fragment that is not stopped is entered, resolved and left. -/
theorem resolveFragmentWithin_of_get?_eq_some {body : Node}
    (hreg : ctx.registry.get? name = some (.node body))
    (hnew : (ctx.options.detectCycles && ctx.active.contains name) = false)
    (h : body.resolveWith (resolveFragmentWithin depth) (ctx.enter name) = some (answer, after)) :
    resolveFragmentWithin (depth + 1) name ctx = some (answer, after.leave) := by
  simp only [resolveFragmentWithin, hreg, hnew, Bool.false_eq_true, if_false,
    Definition.resolveWith, h, Option.map_some]

/-- The run of a fragment that is there: it meets a cycle, or the body is resolved. -/
theorem resolveFragmentWithin_cases_of_get? {body : Node} (hold : ctx.Holds library)
    (hlib : library.get? name = some body)
    (h : resolveFragmentWithin (depth + 1) name ctx = some (answer, after)) :
    (∃ chain, answer = .error (.cyclicReference chain)) ∨
    ∃ last, (ctx.options.detectCycles = true → name ∉ ctx.active) ∧
      body.resolveWith (resolveFragmentWithin depth) (ctx.enter name) = some (answer, last) ∧
      after = last.leave := by
  have hreg : ctx.registry.get? name = some (.node body) := by
    rw [hold name, hlib]
    rfl
  rcases resolveFragmentWithin_succ_cases h with
    ⟨hnone, -⟩ | ⟨definition, hsome, ⟨-, -, hcyclic, -⟩ | ⟨last, hnew, hlast, hafter⟩⟩
  · cases hnone.symm.trans hreg
  · exact .inl ⟨_, hcyclic⟩
  · cases hsome.symm.trans hreg
    exact .inr ⟨last, hnew, hlast, hafter⟩

end

namespace Likeness

variable {ℓ : Likeness} {library library' : Dict Node}

/-- **Every fragment is followed.** In a laxer context, with fragments in which includes may be
inlined, the run of a fragment is followed by the run of the fragment of the same name, and by the
run of its body alone. An inlined body is entered one level higher than in the run that is
followed, so the depths differ. -/
theorem follows_resolveFragmentWithin
    (hcyclic : ∀ chain, ¬ ℓ.Shared (.cyclicReference chain)) {a b : Nat} (hab : a ≤ b)
    {setting setting' : Context} (hold : setting.Holds library)
    (hcovered : ℓ.CoveredBy library setting'.registry) (hlax : setting.Laxer setting') :
    (∀ name, ℓ.Follows setting setting' (resolveFragmentWithin a name)
      (resolveFragmentWithin b name)) ∧
    ∀ name body, library.get? name = some body →
      ℓ.Follows setting setting' (resolveFragmentWithin a name)
        (body.resolveWith (resolveFragmentWithin b)) := by
  -- on the depth of the run that is followed; the bodies alone are followed in the same step, since
  -- an inlined body needs them where the other run enters a fragment
  induction a generalizing b setting setting' with
  | zero => exact ⟨fun _ _ _ _ _ _ _ _ h => (nomatch h), fun _ _ _ _ _ _ _ _ _ _ h => (nomatch h)⟩
  | succ a ih =>
    -- an entered body is followed, in whatever laxer context and at whatever depth
    have hentered : ∀ {lax : Context} {name : String} {body body' : Node} {depth : Nat},
        a ≤ depth → ℓ.CoveredBy library lax.registry → (setting.enter name).Laxer lax →
        body.Inlines library body' →
        ℓ.Follows (setting.enter name) lax (body.resolveWith (resolveFragmentWithin a))
          (body'.resolveWith (resolveFragmentWithin depth)) := by
      intro lax name body body' depth hle hlaxCovered hlaxer hinlines
      have holdEntered : (setting.enter name).Holds library := hold
      have hinner := ih hle holdEntered hlaxCovered hlaxer
      exact follows_node hlaxer.scopedBindings (resolveFragmentWithin_keeps a)
        (resolveFragmentWithin_keeps depth) hinner.1 hinner.2 body hinlines
    refine ⟨fun name c c' after answer hc hc' halike hrun hshares => ?_,
      fun name body hlib c c' after answer hc hc' halike hrun hshares => ?_⟩
    · obtain ⟨b, rfl⟩ := Nat.exists_eq_succ_of_ne_zero (Nat.ne_zero_of_lt hab)
      cases hlib : library.get? name with
      -- the fragment is missing on both sides
      | none =>
        have hreg : c.registry.get? name = none := by
          rw [hold.of_sameSetting hc name, hlib, Option.map_none]
        rw [resolveFragmentWithin_of_get?_eq_none hreg] at hrun
        obtain ⟨rfl, rfl⟩ := Prod.mk.inj (Option.some.inj hrun)
        have hreg' := hcovered.get?_of_none hlib (hshares _ rfl)
        rw [← hc'.registry] at hreg'
        exact ⟨c', resolveFragmentWithin_of_get?_eq_none hreg', halike⟩
      | some body =>
        obtain ⟨body', hreg', hinlines⟩ := hcovered.get?_of_some hlib
        rw [← hc'.registry] at hreg'
        rcases resolveFragmentWithin_cases_of_get? (hold.of_sameSetting hc) hlib hrun with
          ⟨chain, rfl⟩ | ⟨last, hnew, hlast, rfl⟩
        · exact absurd (hshares _ rfl) (hcyclic chain)
        · have hcoveredEntered : ℓ.CoveredBy library (setting'.enter name).registry := hcovered
          obtain ⟨last', hlast', halike'⟩ := hentered (Nat.le_of_succ_le_succ hab) hcoveredEntered
            (hlax.enter name) hinlines (hc.enter name) (hc'.enter name) halike hlast hshares
          have hnew' := (hlax.of_sameSetting hc hc').not_stopped hnew
          exact ⟨last'.leave, resolveFragmentWithin_of_get?_eq_some hreg' hnew' hlast', halike'⟩
    -- the body alone: the other run does not enter the fragment
    · rcases resolveFragmentWithin_cases_of_get? (hold.of_sameSetting hc) hlib hrun with
        ⟨chain, rfl⟩ | ⟨last, -, hlast, rfl⟩
      · exact absurd (hshares _ rfl) (hcyclic chain)
      · obtain ⟨after', hafter', halike'⟩ := hentered (Nat.le_of_succ_le hab) hcovered
          (hlax.enter_left name) (.refl library body) (hc.enter name) hc' halike hlast hshares
        exact ⟨after', hafter', halike'⟩

/-- With cycle detection the run of a fragment comes to an answer. If this is to be shared, it is
the answer in a laxer context at every depth that is enough for the fragments of the first one. -/
theorem exists_answer_of_laxer (hcovers : ℓ.Covers library library')
    (hcyclic : ∀ chain, ¬ ℓ.Shared (.cyclicReference chain)) {ctx lax : Context}
    (hold : ctx.Holds library) (hold' : lax.Holds library') (hlax : ctx.Laxer lax)
    (halike : ℓ.Alike ctx.bindings.values lax.bindings.values)
    (hdetect : ctx.options.detectCycles = true) (name : String) :
    ∃ answer after, ctx.resolveFragment name = some (answer, after) ∧
      (ℓ.Shares answer → ∀ depth, ctx.registry.size < depth →
        ∃ after', resolveFragmentWithin depth name lax = some (answer, after') ∧
          ℓ.Alike after.bindings.values after'.bindings.values) := by
  obtain ⟨answer, after, hanswer, -⟩ := ctx.resolveFragment_settles hdetect name
  refine ⟨answer, after, hanswer, fun hshares depth hdepth => ?_⟩
  have hbound : ctx.depthBound ≤ depth := by
    rw [Context.depthBound, if_pos hdetect]
    exact hdepth
  exact (follows_resolveFragmentWithin hcyclic hbound hold (hcovers.coveredBy hold') hlax).1 name
    (.refl ctx) (.refl lax) halike hanswer hshares

/-- Values are the same, and every answer but a cycle is shared. -/
def untilCycle : Likeness where
  Alike v v' := v' = v
  Shared e := ∀ chain, e ≠ .cyclicReference chain
  alike_insert name value h := by rw [h]
  get?_of_some h hget := by rw [h, hget]
  get?_of_none h _ hget := by rw [h, hget]

/-- Whatever is no cycle is shared. -/
theorem untilCycle_shares {answer : Except NodeError String}
    (h : ∀ chain, answer ≠ .error (.cyclicReference chain)) : untilCycle.Shares answer := by
  rintro e rfl chain rfl
  exact h chain rfl

/-- A cycle is not. -/
theorem not_shared_cyclicReference (chain : List String) :
    ¬ untilCycle.Shared (.cyclicReference chain) := fun h => h chain rfl

end Likeness

end SqlFragments
