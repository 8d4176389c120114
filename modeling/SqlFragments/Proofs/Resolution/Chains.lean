import SqlFragments.Proofs.Resolution.Ending
import SqlFragments.Proofs.Resolution.Running

/-! # The chain of a cycle

A run that reports a cycle has come down to it: through the fragments that were being resolved, and
in each of them to the include that led to the next one. What lies beside this way, fragments that
were entered and left again, is on no chain. Where an include leads to is up to the variables of the
moment, so the chain is a path of the includes as they were executed.

* `Include.PointsAt`: where an include leads to;
* `Descent`: the way down to a cycle; `Run.descent`: every run that reports one has gone it;
* `Follows`, `Walk`: paths along the includes that a run visits, `Descent.walk`: the chain is one;
* `Run.chain_eq`: it goes on from the names that were being resolved;
* `Descent.closes`: its names are different, but for the last one, which is one of the others;
* `resolveStatement_cyclicReference`: so the cycle that a statement reports is a real one. -/

namespace SqlFragments

/-- Where an include leads to when it is found in a context: to the target of its literal reference,
or to the value that the variable has inside of it. -/
def Include.PointsAt (inc : Include) (ctx : Context) (name : String) : Prop :=
  inc.destination? = some name ∨
    ∃ source, inc.reference = some (.variable source) ∧ (inc.inside ctx).get? source = some name

/-- An include leads to what it is resolved to. -/
theorem Include.pointsAt_iff {inc : Include} {ctx : Context} {name : String} :
    inc.PointsAt ctx name ↔ inc.target (inc.inside ctx).bindings.values = .ok name := by
  cases hreference : inc.reference with
  | none => simp [PointsAt, destination?, target, hreference]
  | some reference =>
    cases reference with
    | literal id => simp [PointsAt, destination?, target, hreference]
    | «variable» source =>
      have hget : (inc.inside ctx).get? source = (inc.inside ctx).bindings.values.get? source := rfl
      cases hvalue : (inc.inside ctx).bindings.values.get? source <;>
        simp [PointsAt, destination?, target, hreference, hget, hvalue]

/-! ## The way down to a cycle -/

/-- The way on which a run has come to a cycle, from its subject down to the name that closes the
chain. Of several nodes one leads there, and those before it only keep the context. -/
inductive Descent (chain : List String) : Subject → Context → List Visit → Prop where
  | closed {name ctx body} (hreg : ctx.registry.get? name = some (.node body))
    (hactive : name ∈ ctx.active) (hchain : chain = ctx.active.reverse ++ [name]) :
    Descent chain (.name name) ctx []
  | entered {name ctx body visits} (hreg : ctx.registry.get? name = some (.node body))
    (hnew : ctx.options.detectCycles = true → name ∉ ctx.active)
    (hbody : Descent chain (.node body) (ctx.enter name) visits) :
    Descent chain (.name name) ctx visits
  | included {inc ctx name visits} (hpoints : inc.PointsAt ctx name)
    (hname : Descent chain (.name name) (inc.inside ctx) visits) :
    Descent chain (.node (.include inc)) ctx ((.include inc, ctx) :: visits)
  | fragment {tag id children ctx visits} (hchildren : Descent chain (.nodes children) ctx visits) :
    Descent chain (.node (.fragment tag id children)) ctx
      ((.fragment tag id children, ctx) :: visits)
  | first {node nodes ctx visits} (hfirst : Descent chain (.node node) ctx visits) :
    Descent chain (.nodes (node :: nodes)) ctx visits
  | later {node nodes ctx mid visits more} (hkeeps : ctx.Keeps mid)
    (hlater : Descent chain (.nodes nodes) mid more) :
    Descent chain (.nodes (node :: nodes)) ctx (visits ++ more)

/-- A run that reports a cycle has come down to it. -/
theorem Run.descent {subject : Subject} {ctx after : Context} {visits : List Visit}
    {chain : List String} (h : Run subject ctx visits (.error (.cyclicReference chain)) after) :
    Descent chain subject ctx visits := by
  generalize hanswer : Except.error (NodeError.cyclicReference chain) = answer at h
  induction h with
  | missing | property | nil => cases hanswer
  | cyclic hreg _ hactive =>
    cases hanswer
    exact .closed hreg hactive rfl
  | entered hreg hnew _ ih => exact .entered hreg hnew (ih hanswer)
  | text =>
    obtain ⟨_, -, -, habsurd⟩ := undefinedVariable_of_renderTokens hanswer.symm
    cases habsurd
  | aimless htarget =>
    cases hanswer
    rcases Include.cases_of_target_eq_error htarget with ⟨_, -, -, habsurd⟩ | ⟨-, habsurd⟩
    · cases habsurd
    · cases habsurd
  | included htarget _ ih => exact .included (Include.pointsAt_iff.2 htarget) (ih hanswer)
  | fragment _ ih => exact .fragment (ih hanswer)
  | stopped _ ih => exact .first (ih hanswer)
  -- the text of the first node does not matter, and the others have come down to the cycle
  | @next _ _ _ _ _ _ _ answer _ hfirst _ _ ihMore =>
    cases answer with
    | ok text => cases hanswer
    | error e => exact .later hfirst.keeps (ihMore hanswer)

/-! ## Paths along includes -/

/-- One of the includes has been visited, with these names being resolved, and has led to a name. -/
def Follows (visits : List Visit) (active : List String) (includes : List Include) (next : String) :
    Prop :=
  ∃ inc ∈ includes, ∃ c, (.include inc, c) ∈ visits ∧ c.active = active ∧ inc.PointsAt c next

/-- A path: each name stands for a fragment with an include that leads to the next one, and this has
been visited with the names up to there being resolved, innermost first. -/
def Walk (registry : Dict Definition) (visits : List Visit) :
    List String → String → List String → Prop
  | _, _, [] => True
  | active, name, next :: rest =>
    (∃ body, registry.get? name = some (.node body) ∧
      Follows visits (name :: active) body.includes next) ∧
    Walk registry visits (name :: active) next rest

/-- The first name that a subject comes to: its own, or one that an include of it leads to. -/
def Subject.ComesTo (visits : List Visit) (active : List String) : Subject → String → Prop
  | .name own, next => next = own
  | .node single, next => Follows visits active single.includes next
  | .nodes several, next => Follows visits active (several.flatMap Node.includes) next

section

variable {registry : Dict Definition} {visits more : List Visit} {active rest : List String}
  {name next : String}

/-- What follows along includes follows along more of them, and among more visits. -/
theorem Follows.mono {includes others : List Include} (h : Follows visits active includes next)
    (hvisits : visits ⊆ more) (hincludes : includes ⊆ others) :
    Follows more active others next := by
  obtain ⟨inc, hinc, c, hvisit, hactive, hpoints⟩ := h
  exact ⟨inc, hincludes hinc, c, hvisits hvisit, hactive, hpoints⟩

/-- What an include leads to is looked up. -/
theorem Follows.lookedUp {includes : List Include} (h : Follows visits active includes next) :
    next ∈ namesLookedUp visits := by
  obtain ⟨inc, -, c, hvisit, -, hpoints⟩ := h
  have hname : Visit.lookedUp? (.include inc, c) = some next := by
    rw [Visit.lookedUp?, Visit.lookUp?_of_target (Include.pointsAt_iff.1 hpoints), Option.map_some]
  exact List.mem_filterMap.2 ⟨_, hvisit, hname⟩

/-- A path stays one among more visits. -/
theorem Walk.mono (h : Walk registry visits active name rest) (hvisits : visits ⊆ more) :
    Walk registry more active name rest := by
  induction rest generalizing active name with
  | nil => trivial
  | cons next rest ih =>
    obtain ⟨⟨body, hreg, hfollows⟩, hrest⟩ := h
    -- the same includes, among more visits
    exact ⟨⟨body, hreg, hfollows.mono hvisits (List.Subset.refl _)⟩, ih hrest⟩

/-- All names on a path but the first one are looked up. -/
theorem Walk.lookedUp (h : Walk registry visits active name rest) :
    ∀ other ∈ rest, other ∈ namesLookedUp visits := by
  induction rest generalizing active name with
  | nil => exact fun _ hother => nomatch hother
  | cons next rest ih =>
    obtain ⟨⟨body, -, hfollows⟩, hrest⟩ := h
    exact List.forall_mem_cons.2 ⟨hfollows.lookedUp, ih hrest⟩

/-- Each two names that follow each other on a path, with those before them. -/
theorem Walk.follows (h : Walk registry visits active name rest) {front back : List String}
    {a b : String} (hsplit : name :: rest = front ++ a :: b :: back) :
    ∃ body, registry.get? a = some (.node body) ∧
      Follows visits (a :: (front.reverse ++ active)) body.includes b := by
  induction rest generalizing active name front with
  | nil =>
    -- one name has no successor
    have hlength := congrArg List.length hsplit
    simp only [List.length_append, List.length_cons, List.length_nil] at hlength
    omega
  | cons next rest ih =>
    obtain ⟨hedge, hrest⟩ := h
    cases front with
    | nil =>
      cases hsplit
      exact hedge
    | cons outer front =>
      obtain ⟨rfl, htail⟩ := List.cons.inj hsplit
      rw [List.reverse_cons, List.append_assoc]
      exact ih hrest htail

end

section

variable {chain : List String} {subject : Subject} {ctx : Context} {visits : List Visit}

/-- **The chain is a path.** It goes on from the names that are being resolved, to the first name that
the subject comes to and from there along the includes that are visited. -/
theorem Descent.walk (h : Descent chain subject ctx visits) :
    ∃ name rest, chain = ctx.active.reverse ++ name :: rest ∧
      subject.ComesTo visits ctx.active name ∧
      Walk ctx.registry visits ctx.active name rest := by
  induction h with
  | @closed name ctx body _ _ hchain => exact ⟨name, [], hchain, rfl, trivial⟩
  | @entered name ctx body visits hreg _ _ ih =>
    -- the name goes in front: its fragment has the include that leads to the first name of the body
    obtain ⟨next, rest, rfl, hfollows, hwalk⟩ := ih
    refine ⟨name, next :: rest, ?_, rfl, ⟨body, hreg, hfollows⟩, hwalk⟩
    simp [Context.enter]
  | @included inc ctx name visits hpoints _ ih =>
    -- the include itself leads to the name, and it has been visited before all others
    obtain ⟨_, rest, rfl, rfl, hwalk⟩ := ih
    have hsetting := inc.sameSetting_inside ctx
    rw [hsetting.active, hsetting.registry] at hwalk
    refine ⟨_, rest, by rw [hsetting.active], ?_, hwalk.mono (List.subset_cons_self _ _)⟩
    exact ⟨inc, List.mem_singleton_self inc, ctx, List.mem_cons_self, rfl, hpoints⟩
  | @fragment tag id children ctx visits _ ih =>
    obtain ⟨name, rest, hchain, hfollows, hwalk⟩ := ih
    have hvisits := List.subset_cons_self (.fragment tag id children, ctx) visits
    refine ⟨name, rest, hchain, hfollows.mono hvisits ?_, hwalk.mono hvisits⟩
    rw [Node.includes_fragment]
    exact List.Subset.refl _
  | first _ ih =>
    obtain ⟨name, rest, hchain, hfollows, hwalk⟩ := ih
    refine ⟨name, rest, hchain, hfollows.mono (List.Subset.refl _) ?_, hwalk⟩
    exact List.subset_append_left _ _
  | @later node nodes ctx mid visits more hkeeps _ ih =>
    obtain ⟨name, rest, hchain, hfollows, hwalk⟩ := ih
    -- the nodes before it have come and gone, and the names being resolved are as they were
    rw [hkeeps.active] at hchain hfollows hwalk
    rw [hkeeps.registry] at hwalk
    have hvisits := List.subset_append_right visits more
    refine ⟨name, rest, hchain, hfollows.mono hvisits ?_, hwalk.mono hvisits⟩
    exact List.subset_append_right _ _

/-- **The chain of a cycle is of one run**: it goes on from the names that were being resolved at the
beginning of the run, and what comes behind them has been looked up by the run itself. -/
theorem Run.chain_eq {after : Context}
    (h : Run subject ctx visits (.error (.cyclicReference chain)) after) :
    ∃ rest, chain = ctx.active.reverse ++ (subject.ownName ++ rest) ∧
      ∀ name ∈ rest, name ∈ namesLookedUp visits := by
  obtain ⟨name, rest, rfl, hcomes, hwalk⟩ := h.descent.walk
  cases subject with
  | name own =>
    obtain rfl : name = own := hcomes
    exact ⟨rest, rfl, hwalk.lookedUp⟩
  | node single =>
    -- the node has no name of its own, so all names behind those being resolved are looked up
    have hfollows : Follows visits ctx.active single.includes name := hcomes
    exact ⟨name :: rest, rfl, List.forall_mem_cons.2 ⟨hfollows.lookedUp, hwalk.lookedUp⟩⟩
  | nodes several =>
    have hfollows : Follows visits ctx.active (several.flatMap Node.includes) name := hcomes
    exact ⟨name :: rest, rfl, List.forall_mem_cons.2 ⟨hfollows.lookedUp, hwalk.lookedUp⟩⟩

/-- **The chain closes.** Its last name is one of those before it, and these are different and
registered. -/
theorem Descent.closes (h : Descent chain subject ctx visits)
    (hdetect : ctx.options.detectCycles = true) (horderly : ctx.Orderly) :
    ∃ names last, chain = names ++ [last] ∧ names.Nodup ∧ last ∈ names ∧
      ∀ name ∈ names, name ∈ ctx.registry.keys := by
  induction h with
  -- the name that closes the chain is being resolved already
  | @closed name ctx body _ hactive hchain =>
    refine ⟨ctx.active.reverse, name, hchain, List.nodup_reverse.2 horderly.nodup,
      List.mem_reverse.2 hactive, fun other hother => ?_⟩
    exact horderly.registered other (List.mem_reverse.1 hother)
  | entered hreg hnew _ ih =>
    -- only names that are not being resolved are entered, so their list stays without repetition
    exact ih hdetect (horderly.enter hreg (hnew hdetect))
  | @included inc ctx _ _ _ _ ih =>
    have hsetting := inc.sameSetting_inside ctx
    have h := ih (hsetting.detectCycles hdetect) (horderly.of_sameSetting hsetting)
    rwa [hsetting.registry] at h
  | fragment _ ih | first _ ih => exact ih hdetect horderly
  | later hkeeps _ ih =>
    have hsetting := hkeeps.toSameSetting
    have h := ih (hsetting.detectCycles hdetect) (horderly.of_sameSetting hsetting)
    rwa [hsetting.registry] at h

end

/-! ## Statements -/

/-- What the names of a reported cycle are: a path from the name of the statement along the includes
that its resolution has visited, on which only the last name comes again. -/
structure Context.Cycle (ctx : Context) (start : String) (names : List String) (last : String) :
    Prop where
  head : names.head? = some start
  registered : ∀ name ∈ names, name ∈ ctx.registry.keys
  nodup : names.Nodup
  once : names.count last = 1
  /-- Each name stands for a fragment with an include that leads to the next name, and this include
  has been visited just when the names up to there were being resolved. -/
  leads : ∀ front a b back, names ++ [last] = front ++ a :: b :: back →
    ∃ body, ctx.registry.get? a = some (.node body) ∧
      Follows (ctx.visits start) (front ++ [a]).reverse body.includes b

/-- **The reported cycle is a real one.** With cycle detection and nothing being resolved, whatever
nodes are registered, whatever values variables have, and with scoped bindings or without: if a
statement fails with a cycle then the chain begins with its own name, the names on it are registered,
the last one is just one of the others, and these are different from each other. The fragment of each
name has an include whose literal reference is the next name, or whose reference is a variable that
had this value when the include was resolved. -/
theorem resolveStatement_cyclicReference {ctx after : Context} {library : Dict Node} {id : String}
    {chain : List String} (hold : ctx.Holds library) (hdetect : ctx.options.detectCycles = true)
    (hidle : ctx.active = [])
    (h : ctx.resolveStatement id = some (.error (.cyclicReference chain), after)) :
    ∃ names last, chain = names ++ [last] ∧ ctx.Cycle (qualify ctx.space id) names last := by
  have hdescent := (Context.run_of_resolveFragment hold h).descent
  obtain ⟨names, last, rfl, hnodup, hlast, hregistered⟩ :=
    hdescent.closes hdetect (Context.orderly_of_idle hidle)
  obtain ⟨name, rest, hchain, hname, hwalk⟩ := hdescent.walk
  obtain rfl : name = qualify ctx.space id := hname
  rw [hidle] at hchain hwalk
  refine ⟨names, last, rfl, ?_, hregistered, hnodup, List.count_eq_one_of_mem hnodup hlast, ?_⟩
  · -- the chain begins with the name of the statement, and it is longer than its last name
    cases names with
    | nil => cases hlast
    | cons first names => rw [(List.cons.inj hchain).1, List.head?_cons]
  · intro front a b back hsplit
    have hfollows := hwalk.follows (hchain.symm.trans hsplit)
    rwa [List.append_nil, ← List.reverse_concat] at hfollows

/-- Fragments with a cycle that does not go through the first of them. Two of its includes point at
values of variables, and before each of these a fragment without includes is entered and left. -/
def cycleSample : List (String × Node) := [
  ("m.leaf", .text [.literal "x"]),
  ("m.top", .fragment "select" "top"
    [.include ⟨"m", some (.literal "leaf"), .empty⟩,
      .fragment "sql" "" [.include ⟨"m", some (.variable "next"),
        (Dict.empty.insert "next" ⟨"next", "m.mid"⟩).insert "back" ⟨"back", "m.turn"⟩⟩]]),
  ("m.mid", .fragment "sql" "mid"
    [.include ⟨"m", some (.literal "leaf"), .empty⟩,
      .include ⟨"m", some (.variable "back"), .empty⟩]),
  ("m.turn", .fragment "sql" "turn" [.include ⟨"m", some (.literal "mid"), .empty⟩])]

/-- A context with these fragments and scoped bindings. -/
def cycleSampleContext : Context :=
  Context.registerNodes ⟨"m", .empty, .empty, ⟨true, true⟩, [], []⟩ cycleSample

/-- Fragments that are left again are not on the chain, and the cycle need not go through its first
name. -/
theorem resolveStatement_cyclicReference_cycleSample :
    cycleSampleContext.Holds (Dict.ofList cycleSample) ∧
    cycleSampleContext.options.detectCycles = true ∧ cycleSampleContext.active = [] ∧
    ∃ after, cycleSampleContext.resolveStatement "top"
        = some (.error (.cyclicReference ["m.top", "m.mid", "m.turn", "m.mid"]), after) ∧
      cycleSampleContext.Cycle "m.top" ["m.top", "m.mid", "m.turn"] "m.mid" := by
  have hold : cycleSampleContext.Holds (Dict.ofList cycleSample) :=
    Context.holds_registerNodes rfl cycleSample
  have htop : (cycleSampleContext.resolveStatement "top").map Prod.fst
      = some (.error (.cyclicReference ["m.top", "m.mid", "m.turn", "m.mid"])) := by decide +kernel
  obtain ⟨⟨answer, after⟩, hanswer, heq⟩ := Option.map_eq_some_iff.1 htop
  obtain rfl : answer = _ := heq
  refine ⟨hold, rfl, rfl, after, hanswer, ?_⟩
  obtain ⟨names, last, hchain, hcycle⟩ := resolveStatement_cyclicReference hold rfl rfl hanswer
  have hsplit : ["m.top", "m.mid", "m.turn"] ++ ["m.mid"] = names ++ [last] := hchain
  obtain ⟨rfl, hlast⟩ := List.append_inj' hsplit rfl
  rwa [← List.singleton_inj.1 hlast] at hcycle

end SqlFragments
