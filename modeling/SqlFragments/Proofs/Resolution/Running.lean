import SqlFragments.Proofs.Resolution.Causes

/-! # Runs as a relation

A resolution is a recursion with a bound on its depth. Here is the same as a relation without one: a
run (`Run`) tells what is resolved, in which context, what it visits, what it answers and what
context it leaves. There is one rule for each thing that can happen, so what is to be shown of all
runs is shown by an induction on these rules, and two runs are compared by an induction on the one
and a case distinction on the other.

* `run_of_resolveFragmentWithin`, `Node.run_of_resolveWith`: every resolution that comes to an answer
  is a run, with the visits of `visitsWithin`;
* `Run.keeps`: a run keeps its context;
* `Run.forall_visited`, `Run.forall_includes`: the nodes that a run comes to are those of what it
  resolves and of what is registered. -/

namespace SqlFragments

/-- What a run resolves: the fragment of a name, a node, or nodes one after the other. -/
inductive Subject where
  | name (name : String)
  | node (node : Node)
  | nodes (nodes : List Node)

/-- The resolution of a subject in a context, with what it visits, its answer and the context
afterwards. All fragments are nodes. -/
inductive Run : Subject → Context → List Visit → Except NodeError String → Context → Prop where
  /-- A name that is not registered. -/
  | missing {name ctx} (hreg : ctx.registry.get? name = none) :
    Run (.name name) ctx [] (.error (.fragmentNotFound name)) ctx
  /-- A name that is being resolved already. -/
  | cyclic {name ctx body} (hreg : ctx.registry.get? name = some (.node body))
    (hdetect : ctx.options.detectCycles = true) (hactive : name ∈ ctx.active) :
    Run (.name name) ctx [] (.error (.cyclicReference (ctx.active.reverse ++ [name]))) ctx
  /-- Any other name: its body is resolved. -/
  | entered {name ctx body visits answer last} (hreg : ctx.registry.get? name = some (.node body))
    (hnew : ctx.options.detectCycles = true → name ∉ ctx.active)
    (hbody : Run (.node body) (ctx.enter name) visits answer last) :
    Run (.name name) ctx visits answer last.leave
  | text {ts ctx} :
    Run (.node (.text ts)) ctx [(.text ts, ctx)] (renderTokens ctx.bindings.values ts) ctx
  | property {p ctx} : Run (.node (.property p)) ctx [(.property p, ctx)] (.ok "") ctx
  /-- An include whose reference cannot be read. -/
  | aimless {inc ctx e} (htarget : inc.target (Include.inside inc ctx).bindings.values = .error e) :
    Run (.node (.include inc)) ctx [(.include inc, ctx)] (.error e) (ctx.behind (inc.inside ctx))
  /-- An include that points at a name. -/
  | included {inc ctx name visits answer last}
    (htarget : inc.target (Include.inside inc ctx).bindings.values = .ok name)
    (hname : Run (.name name) (inc.inside ctx) visits answer last) :
    Run (.node (.include inc)) ctx ((.include inc, ctx) :: visits) answer (ctx.behind last)
  | fragment {tag id children ctx visits answer after}
    (hchildren : Run (.nodes children) ctx visits answer after) :
    Run (.node (.fragment tag id children)) ctx ((.fragment tag id children, ctx) :: visits) answer
      after
  | nil {ctx} : Run (.nodes []) ctx [] (.ok "") ctx
  /-- The first of several nodes fails. -/
  | stopped {node nodes ctx visits e after} (hfirst : Run (.node node) ctx visits (.error e) after) :
    Run (.nodes (node :: nodes)) ctx visits (.error e) after
  /-- The others are resolved behind the first. -/
  | next {node nodes ctx visits first mid more answer after}
    (hfirst : Run (.node node) ctx visits (.ok first) mid)
    (hmore : Run (.nodes nodes) mid more answer after) :
    Run (.nodes (node :: nodes)) ctx (visits ++ more) (answer.map (first ++ ·)) after

/-- The includes in a subject. What a name stands for is not looked into. -/
def Subject.includes : Subject → List Include
  | .name _ => []
  | .node single => single.includes
  | .nodes several => several.flatMap Node.includes

/-- The includes in a fragment are those in its children. -/
theorem Node.includes_fragment (tag id : String) (children : List Node) :
    (Node.fragment tag id children).includes = children.flatMap includes := by
  show (allParts children).filterMap _ = _
  induction children with
  | nil => rfl
  | cons child children ih =>
    rw [allParts, List.filterMap_append, List.flatMap_cons, ih]
    rfl

/-- The nodes in a subject. What a name stands for is not looked into. -/
def Subject.parts : Subject → List Node
  | .name _ => []
  | .node single => single.parts
  | .nodes several => Node.allParts several

/-- An include among the parts of a subject is one of its includes. -/
theorem Subject.mem_includes {subject : Subject} {inc : Include} (h : .include inc ∈ subject.parts) :
    inc ∈ subject.includes := by
  cases subject with
  | name name => cases h
  | node single => exact Node.mem_includes.2 h
  | nodes several =>
    rw [includes, ← Node.includes_fragment "" "" several]
    exact Node.mem_includes.2 (List.mem_cons_of_mem _ h)

/-- What variables have inside of an include. -/
theorem Include.get?_inside (inc : Include) (ctx : Context) :
    (inc.inside ctx).get? = Lexical.Environment.overlay ctx.get? inc.properties.values := by
  rw [inside, Context.bindAll_eq]
  split
  · exact Lexical.get?_bindAll ctx.bindings.pushFrame inc.properties.values
  · exact Lexical.get?_bindAll ctx.bindings inc.properties.values

/-! ## Every resolution is a run -/

/-- Expanding fragments in this way is a run, with the visits that are given for it. -/
def RunsWith (library : Dict Node) (expand : String → Context → Resolution)
    (follow : String → Context → List Visit) : Prop :=
  ∀ {name ctx answer after}, Context.Holds ctx library →
    expand name ctx = some (answer, after) → Run (.name name) ctx (follow name ctx) answer after

section

variable {library : Dict Node} {expand : String → Context → Resolution}
  {follow : String → Context → List Visit}

/-- Visits are followed one after the other. -/
theorem Visit.followAll_append (visits more : List Visit) :
    followAll follow (visits ++ more) = followAll follow visits ++ followAll follow more :=
  List.flatMap_append

/-- An include that is resolved is a run, if expanding fragments is one. -/
theorem Include.run_of_resolveWith (hexpand : RunsWith library expand follow) {inc : Include}
    {ctx after : Context} {answer : Except NodeError String} (hold : ctx.Holds library)
    (h : inc.resolveWith expand ctx = some (answer, after)) :
    Run (.node (.include inc)) ctx (Visit.followAll follow [(.include inc, ctx)]) answer after := by
  -- the reference cannot be read, or it points at a name, which is resolved inside of the include
  rcases resolveWith_cases h with ⟨e, htarget, rfl, rfl⟩ | ⟨name, last, htarget, hlast, rfl⟩
  · have hfollow : Visit.followAll follow [(.include inc, ctx)] = [(.include inc, ctx)] := by
      simp [Visit.followAll, Visit.lookUp?, htarget]
    rw [hfollow]
    exact .aimless htarget
  · have hfollow : Visit.followAll follow [(.include inc, ctx)]
        = (.include inc, ctx) :: follow name (inc.inside ctx) := by
      simp [Visit.followAll, Visit.lookUp?_of_target htarget]
    rw [hfollow]
    exact .included htarget (hexpand (hold.of_sameSetting (inc.sameSetting_inside ctx)) hlast)

mutual

/-- **A node that is resolved is a run**, if expanding fragments is one. -/
theorem Node.run_of_resolveWith (hkeeps : KeepsContexts expand)
    (hexpand : RunsWith library expand follow) :
    ∀ (node : Node) {ctx after : Context} {answer : Except NodeError String}, ctx.Holds library →
      node.resolveWith expand ctx = some (answer, after) →
        Run (.node node) ctx (Visit.followAll follow (node.visits expand ctx)) answer after
  | .text _, _, _, _, _, h => by
    obtain ⟨rfl, rfl⟩ := Prod.mk.inj (Option.some.inj h)
    exact .text
  | .property _, _, _, _, _, h => by
    obtain ⟨rfl, rfl⟩ := Prod.mk.inj (Option.some.inj h)
    exact .property
  | .include _, _, _, _, hold, h => Include.run_of_resolveWith hexpand hold h
  | .fragment _ _ children, _, _, _, hold, h =>
    .fragment (Node.run_of_resolveAllWith hkeeps hexpand children hold h)

/-- So are nodes one after the other. -/
theorem Node.run_of_resolveAllWith (hkeeps : KeepsContexts expand)
    (hexpand : RunsWith library expand follow) :
    ∀ (nodes : List Node) {ctx after : Context} {answer : Except NodeError String},
      ctx.Holds library → Node.resolveAllWith expand nodes ctx = some (answer, after) →
        Run (.nodes nodes) ctx (Visit.followAll follow (Node.allVisits expand nodes ctx)) answer after
  | [], _, _, _, _, h => by
    obtain ⟨rfl, rfl⟩ := Prod.mk.inj (Option.some.inj h)
    exact .nil
  | node :: nodes, ctx, after, answer, hold, h => by
    rcases Node.resolveAllWith_cons_cases h with
      ⟨e, hfirst, rfl⟩ | ⟨first, mid, hfirst, hmore⟩
    · have hrun := Node.run_of_resolveWith hkeeps hexpand node hold hfirst
      rw [Node.allVisits, hfirst, List.append_nil]
      exact .stopped hrun
    · -- the other nodes are resolved in the context that the first one leaves
      have hrun := Node.run_of_resolveWith hkeeps hexpand node hold hfirst
      have hmid := hold.of_sameSetting (node.resolveWith_keeps hkeeps hfirst).toSameSetting
      rw [Node.allVisits, hfirst, Visit.followAll_append]
      rcases hmore with ⟨e, hmore, rfl⟩ | ⟨more, hmore, rfl⟩
      · exact .next hrun (Node.run_of_resolveAllWith hkeeps hexpand nodes hmid hmore)
      · exact .next hrun (Node.run_of_resolveAllWith hkeeps hexpand nodes hmid hmore)

end

end

/-- **Every resolution of a fragment is a run.** -/
theorem run_of_resolveFragmentWithin (library : Dict Node) (depth : Nat) :
    RunsWith library (resolveFragmentWithin depth) (visitsWithin depth) := by
  induction depth with
  | zero =>
    intro name ctx answer after _ h
    cases h
  | succ depth ih =>
    intro name ctx answer after hold h
    rcases resolveFragmentWithin_succ_cases h with
      ⟨hreg, rfl, heq⟩ | ⟨definition, hreg, hcase⟩
    · have hvisits : visitsWithin (depth + 1) name ctx = [] := by rw [visitsWithin, hreg]
      rw [hvisits, heq]
      exact .missing hreg
    · obtain ⟨body, -, rfl⟩ := hold.exists_body hreg
      rcases hcase with ⟨hdetect, hactive, rfl, heq⟩ | ⟨last, hnew, hlast, rfl⟩
      · have hvisits : visitsWithin (depth + 1) name ctx = [] := by
          simp [visitsWithin, hreg, hdetect, hactive]
        rw [hvisits, heq]
        exact .cyclic hreg hdetect hactive
      · rw [visitsWithin_of_get? depth hreg hnew]
        have hentered : (ctx.enter name).Holds library := hold
        exact .entered hreg hnew
          (body.run_of_resolveWith (resolveFragmentWithin_keeps depth) ih hentered hlast)

namespace Run

variable {subject : Subject} {ctx after : Context} {visits : List Visit}
  {answer : Except NodeError String}

/-- A run keeps its context. -/
theorem keeps (h : Run subject ctx visits answer after) : ctx.Keeps after := by
  induction h with
  | missing | cyclic | text | property | nil => exact .refl _
  | entered _ _ _ ih => exact ih.leave
  | aimless _ => exact Context.Keeps.behind (.refl _)
  | included _ _ ih => exact Context.Keeps.behind ih
  | fragment _ ih => exact ih
  | stopped _ ih => exact ih
  | next _ _ ih ihMore => exact ih.trans ihMore

/-- A run of a name that is not registered ends at once. -/
theorem of_missing {name : String} (h : Run (.name name) ctx visits answer after)
    (hreg : ctx.registry.get? name = none) :
    visits = [] ∧ answer = .error (.fragmentNotFound name) ∧ after = ctx := by
  cases h with
  | missing => exact ⟨rfl, rfl, rfl⟩
  | cyclic hreg' => cases hreg.symm.trans hreg'
  | entered hreg' => cases hreg.symm.trans hreg'

/-- So does a run of a name that is being resolved. -/
theorem of_cyclic {name : String} {body : Node} (h : Run (.name name) ctx visits answer after)
    (hreg : ctx.registry.get? name = some (.node body)) (hdetect : ctx.options.detectCycles = true)
    (hactive : name ∈ ctx.active) : visits = [] ∧
      answer = .error (.cyclicReference (ctx.active.reverse ++ [name])) ∧ after = ctx := by
  cases h with
  | missing hreg' => cases hreg.symm.trans hreg'
  | cyclic => exact ⟨rfl, rfl, rfl⟩
  | entered _ hnew => exact absurd hactive (hnew hdetect)

/-- A run of any other name is one of its body. -/
theorem of_entered {name : String} {body : Node} (h : Run (.name name) ctx visits answer after)
    (hreg : ctx.registry.get? name = some (.node body))
    (hnew : ctx.options.detectCycles = true → name ∉ ctx.active) :
    ∃ last, Run (.node body) (ctx.enter name) visits answer last ∧ after = last.leave := by
  cases h with
  | missing hreg' => cases hreg.symm.trans hreg'
  | cyclic _ hdetect hactive => exact absurd hactive (hnew hdetect)
  | entered hreg' _ hbody =>
    cases hreg.symm.trans hreg'
    exact ⟨_, hbody, rfl⟩

/-- A run of an include whose reference cannot be read ends behind its bindings. -/
theorem of_aimless {inc : Include} {e : NodeError}
    (h : Run (.node (.include inc)) ctx visits answer after)
    (htarget : inc.target (inc.inside ctx).bindings.values = .error e) :
    visits = [(.include inc, ctx)] ∧ answer = .error e ∧ after = ctx.behind (inc.inside ctx) := by
  cases h with
  | aimless htarget' =>
    cases htarget.symm.trans htarget'
    exact ⟨rfl, rfl, rfl⟩
  | included htarget' => cases htarget.symm.trans htarget'

/-- A run of any other include is one of the name that it points at. -/
theorem of_included {inc : Include} {name : String}
    (h : Run (.node (.include inc)) ctx visits answer after)
    (htarget : inc.target (inc.inside ctx).bindings.values = .ok name) :
    ∃ inner last, Run (.name name) (inc.inside ctx) inner answer last ∧
      visits = (.include inc, ctx) :: inner ∧ after = ctx.behind last := by
  cases h with
  | aimless htarget' => cases htarget.symm.trans htarget'
  | included htarget' hname =>
    cases htarget.symm.trans htarget'
    exact ⟨_, _, hname, rfl, rfl⟩

end Run

/-! ## What is read off the visits -/

/-- The name that a visited node looks up. -/
def Visit.lookedUp? (v : Visit) : Option String := v.lookUp?.map Prod.fst

/-- The names that are looked up at visits, one after the other. -/
def namesLookedUp (visits : List Visit) : List String := visits.filterMap Visit.lookedUp?

/-- The include that is visited, if it is one. -/
def Visit.include? : Visit → Option Include
  | (.include inc, _) => some inc
  | _ => none

/-- The includes among visited nodes, in the order of the visits. -/
def includesOf (visits : List Visit) : List Include := visits.filterMap Visit.include?

/-- Of visits one after the other the includes come one after the other. -/
theorem includesOf_append (visits more : List Visit) :
    includesOf (visits ++ more) = includesOf visits ++ includesOf more :=
  List.filterMap_append

/-- **A run comes only to nodes of what it resolves and of what is registered**: what is so of all
parts of these is so of all nodes that it visits. -/
theorem Run.forall_visited {library : Dict Node} {P : Node → Prop}
    (hlibrary : ∀ body ∈ library.values, ∀ part ∈ body.parts, P part) {subject : Subject}
    {ctx after : Context} {visits : List Visit} {answer : Except NodeError String}
    (hold : ctx.Holds library) (h : Run subject ctx visits answer after)
    (hsubject : ∀ part ∈ subject.parts, P part) : ∀ v ∈ visits, P v.1 := by
  induction h with
  | missing | cyclic | nil => exact fun _ hv => nomatch hv
  | text | property | aimless =>
    intro v hv
    obtain rfl := List.mem_singleton.1 hv
    exact hsubject _ (List.mem_singleton_self _)
  | entered hreg _ _ ih =>
    -- what is entered is registered, so it is no longer the subject that counts
    obtain ⟨body, hbody, heq⟩ := hold.exists_body hreg
    cases heq
    exact ih hold (hlibrary _ (Dict.mem_values_of_get? hbody))
  -- the include itself belongs to the subject; what its name stands for is registered
  | @included inc ctx name visits answer last _ _ ih =>
    intro v hv
    rcases List.mem_cons.1 hv with rfl | hv
    · exact hsubject _ (List.mem_singleton_self _)
    · have hinside := hold.of_sameSetting (inc.sameSetting_inside ctx)
      exact ih hinside (fun _ hpart => nomatch hpart) v hv
  | fragment _ ih =>
    intro v hv
    rcases List.mem_cons.1 hv with rfl | hv
    · exact hsubject _ List.mem_cons_self
    · exact ih hold (fun part hpart => hsubject part (List.mem_cons_of_mem _ hpart)) v hv
  | stopped _ ih =>
    exact ih hold fun part hpart => hsubject part (List.mem_append_left _ hpart)
  | next hfirst _ ih ihMore =>
    intro v hv
    rcases List.mem_append.1 hv with hv | hv
    · exact ih hold (fun part hpart => hsubject part (List.mem_append_left _ hpart)) v hv
    · have hmid := hold.of_sameSetting hfirst.keeps.toSameSetting
      exact ihMore hmid (fun part hpart => hsubject part (List.mem_append_right _ hpart)) v hv

/-- The includes among visited nodes are those that are visited in some context. -/
theorem mem_includesOf {visits : List Visit} {inc : Include} :
    inc ∈ includesOf visits ↔ ∃ ctx, (.include inc, ctx) ∈ visits := by
  simp only [includesOf, List.mem_filterMap]
  constructor
  · rintro ⟨⟨node, ctx⟩, hvisit, hinc⟩
    cases node with
    | «include» other =>
      obtain rfl := Option.some.inj hinc
      exact ⟨ctx, hvisit⟩
    | text | property | fragment => cases hinc
  · exact fun ⟨ctx, hvisit⟩ => ⟨_, hvisit, rfl⟩

/-- So it is of the includes that a run executes. -/
theorem Run.forall_includes {library : Dict Node} {P : Include → Prop}
    (hlibrary : ∀ body ∈ library.values, ∀ inc ∈ body.includes, P inc) {subject : Subject}
    {ctx after : Context} {visits : List Visit} {answer : Except NodeError String}
    (hold : ctx.Holds library) (h : Run subject ctx visits answer after)
    (hsubject : ∀ inc ∈ subject.includes, P inc) : ∀ inc ∈ includesOf visits, P inc := by
  intro inc hinc
  obtain ⟨c, hvisit⟩ := mem_includesOf.1 hinc
  -- whatever is visited is a part, so the property is stated of parts that are includes
  refine h.forall_visited (P := fun part => ∀ inc, part = .include inc → P inc) ?_ hold ?_ _ hvisit
    inc rfl
  · rintro body hbody _ hpart other rfl
    exact hlibrary body hbody other (Node.mem_includes.2 hpart)
  · rintro _ hpart other rfl
    exact hsubject other (Subject.mem_includes hpart)

/-- The name that is looked up before anything is visited. -/
def Subject.ownName : Subject → List String
  | .name own => [own]
  | .node _ => []
  | .nodes _ => []

/-- Of visits one after the other the names are looked up one after the other. -/
theorem namesLookedUp_append (visits more : List Visit) :
    namesLookedUp (visits ++ more) = namesLookedUp visits ++ namesLookedUp more :=
  List.filterMap_append

/-- An include looks up the name that it points at, before anything inside of it is. -/
theorem namesLookedUp_cons_of_target {inc : Include} {ctx : Context} {name : String}
    (h : inc.target (inc.inside ctx).bindings.values = .ok name) (visits : List Visit) :
    namesLookedUp ((.include inc, ctx) :: visits) = name :: namesLookedUp visits := by
  have hname : Visit.lookedUp? (.include inc, ctx) = some name := by
    rw [Visit.lookedUp?, Visit.lookUp?_of_target h, Option.map_some]
  exact List.filterMap_cons_some hname

/-- An include whose reference cannot be read looks up nothing. -/
theorem namesLookedUp_of_target_eq_error {inc : Include} {ctx : Context} {e : NodeError}
    (h : inc.target (inc.inside ctx).bindings.values = .error e) :
    namesLookedUp [(.include inc, ctx)] = [] := by
  have hnone : Visit.lookedUp? (.include inc, ctx) = none := by
    rw [Visit.lookedUp?, Visit.lookUp?, h, Option.map_none]
  exact List.filterMap_cons_none hnone

/-! ## The runs of a context -/

namespace Context

variable {ctx : Context} {library : Dict Node}

/-- What the resolution of the fragment of a name visits. -/
def visits (ctx : Context) (name : String) : List Visit := visitsWithin ctx.depthBound name ctx

/-- What the resolution of a node visits. -/
def nodeVisits (ctx : Context) (node : Node) : List Visit := node.visitsWithin ctx.depthBound ctx

/-- The names that the resolution of a fragment looks up, its own first. -/
def lookUps (ctx : Context) (name : String) : List String :=
  name :: namesLookedUp (ctx.visits name)

/-- A fragment that is resolved in its context is a run. -/
theorem run_of_resolveFragment (hold : ctx.Holds library) {name : String}
    {answer : Except NodeError String} {after : Context}
    (h : ctx.resolveFragment name = some (answer, after)) :
    Run (.name name) ctx (ctx.visits name) answer after :=
  run_of_resolveFragmentWithin library ctx.depthBound hold h

/-- With cycle detection the resolution of a fragment is a run. -/
theorem exists_run (hold : ctx.Holds library) (hdetect : ctx.options.detectCycles = true)
    (name : String) : ∃ answer after, ctx.resolveFragment name = some (answer, after) ∧
      Run (.name name) ctx (ctx.visits name) answer after := by
  obtain ⟨answer, after, heq, -⟩ := ctx.resolveFragment_settles hdetect name
  exact ⟨answer, after, heq, run_of_resolveFragment hold heq⟩

/-- So is the resolution of a node. -/
theorem exists_run_node (hold : ctx.Holds library) (hdetect : ctx.options.detectCycles = true)
    (node : Node) : ∃ answer after, ctx.resolveNode node = some (answer, after) ∧
      Run (.node node) ctx (ctx.nodeVisits node) answer after := by
  obtain ⟨answer, after, heq, -⟩ := ctx.resolveDefinition_settles hdetect (.node node)
  exact ⟨answer, after, heq, node.run_of_resolveWith (resolveFragmentWithin_keeps _)
    (run_of_resolveFragmentWithin library _) hold heq⟩

end Context

end SqlFragments
