import SqlFragments.Proofs.Command.Agreement
import SqlFragments.Proofs.Resolution.Growth

/-! # More documents and more variables

Documents with statements of other names and variables of other names change nothing about a
statement that is resolved already.

* `ResolveTask.Within`: a task that has all the documents and variables of another;
* `Command.exists_of_resolve_eq_ok`: what a task has gone through once it shows a text;
* `Command.within_setVariables`: documents and variables are all there in the context of the larger
  task;
* `resolve_of_within`: so a statement that is resolved stays resolved. -/

namespace SqlFragments

namespace Command

/-- The second task has all the documents and variables of the first and asks for the same. A bare
id belongs to the namespace of the first document, so that document is to be the same then. -/
structure ResolveTask.Within (task more : ResolveTask) : Prop where
  statement : more.statement = task.statement
  options : more.options = task.options
  raw : more.raw = task.raw
  documents : task.documents ⊆ more.documents
  first : '.' ∉ task.statement.toList → more.documents.head? = task.documents.head?
  vars : ∀ vars, task.readVariables = .ok vars → ∃ vars', more.readVariables = .ok vars' ∧
    (Dict.ofList vars).Within (Dict.ofList vars')

/-! ## A task that shows a text -/

section

variable {task : ResolveTask} {text : String}

/-- A task shows a text just if its statement comes to one. -/
theorem ResolveTask.answer_eq_ok_iff {answer : Except NodeError String} :
    task.answer answer = .ok text ↔ ∃ sql, answer = .ok sql ∧ task.present sql = text := by
  cases answer <;> simp [ResolveTask.answer]

/-- A task that shows a text has documents and variables that can be read, and a statement that is
resolved. -/
theorem exists_of_resolve_eq_ok (h : resolve task = some (.ok text)) :
    ∃ ctx vars sql after, loadContext task.documents task.options = .ok ctx ∧
      task.readVariables = .ok vars ∧
      (setVariables ctx vars).resolveStatement task.statement = some (.ok sql, after) ∧
      task.present sql = text := by
  cases hload : loadContext task.documents task.options with
  | error e =>
    rw [resolve_of_loadContext_eq_error hload] at h
    cases h
  | ok ctx =>
    cases hvars : task.readVariables with
    | error e =>
      rw [resolve_of_readVariables_eq_error hload hvars] at h
      cases h
    | ok vars =>
      rw [resolve_of_readVariables_eq_ok hload hvars] at h
      obtain ⟨⟨answer, after⟩, hanswer, htext⟩ := Option.map_eq_some_iff.1 h
      obtain ⟨sql, rfl, hshown⟩ := ResolveTask.answer_eq_ok_iff.1 htext
      exact ⟨ctx, vars, sql, after, rfl, rfl, hanswer, hshown⟩

end

/-! ## Contexts of more documents and more variables -/

/-- Variables are put on top of the values that are there. -/
theorem values_setVariables (ctx : Context) (vars : List (String × String)) :
    (setVariables ctx vars).bindings.values
      = vars.foldl (fun values v => values.insert v.1 v.2) ctx.bindings.values := by
  induction vars generalizing ctx with
  | nil => rfl
  | cons v vars ih => exact ih (ctx.set v.1 v.2)

section

variable {documents documents' : List String} {options : Options} {ctx ctx' : Context}

/-- More documents that can all be loaded register every statement that fewer of them do. -/
theorem within_loadContext (hsubset : documents ⊆ documents')
    (h : loadContext documents options = .ok ctx) (h' : loadContext documents' options = .ok ctx') :
    ctx.registry.Within ctx'.registry := by
  obtain ⟨m, ms, hload⟩ := exists_mappers_of_loadContext h
  obtain ⟨m', ms', hload'⟩ := exists_mappers_of_loadContext h'
  have hmappers : ∀ other ∈ m :: ms, other ∈ m' :: ms' := by
    intro other hother
    have hread : Except.ok other ∈ documents'.map Mapper.ofDocument := by
      apply List.map_subset _ hsubset
      rw [hload]
      exact List.mem_map_of_mem hother
    rw [hload'] at hread
    obtain ⟨found, hfound, heq⟩ := List.mem_map.1 hread
    cases heq
    exact hfound
  intro name definition hname
  obtain ⟨other, hother, hstatement⟩ := (get?_of_loadContext hload h).1 hname
  exact (get?_of_loadContext hload' h').2 ⟨other, hmappers other hother, hstatement⟩

/-- With more documents and more variables the context has everything that it has with fewer. -/
theorem within_setVariables {vars vars' : List (String × String)} (hsubset : documents ⊆ documents')
    (h : loadContext documents options = .ok ctx) (h' : loadContext documents' options = .ok ctx')
    (hvars : (Dict.ofList vars).Within (Dict.ofList vars')) :
    (setVariables ctx vars).Within (setVariables ctx' vars') := by
  obtain ⟨m, ms, hload⟩ := exists_mappers_of_loadContext h
  obtain ⟨m', ms', hload'⟩ := exists_mappers_of_loadContext h'
  -- before variables are set, both contexts are empty ones but for their statements
  have hempty := eq_empty_of_loadContext hload h
  have hempty' := eq_empty_of_loadContext hload' h'
  have hloaded : ctx.Within ctx' := by
    constructor
    · rw [hempty, hempty']
      rfl
    · rw [hempty, hempty']
      rfl
    · rw [hempty, hempty']
      exact .refl _
    · exact within_loadContext hsubset h h'
  refine hloaded.of_sameSetting (sameSetting_setVariables ctx vars)
    (sameSetting_setVariables ctx' vars') ?_
  rw [values_setVariables, values_setVariables, hempty, hempty']
  exact hvars

/-- Documents with the same one first are loaded into contexts of the same namespace. -/
theorem space_eq_of_first_eq (hfirst : documents'.head? = documents.head?)
    (h : loadContext documents options = .ok ctx) (h' : loadContext documents' options = .ok ctx') :
    ctx'.space = ctx.space := by
  obtain ⟨m, ms, hload⟩ := exists_mappers_of_loadContext h
  obtain ⟨m', ms', hload'⟩ := exists_mappers_of_loadContext h'
  have hhead := congrArg (Option.map Mapper.ofDocument) hfirst
  rw [← List.head?_map, ← List.head?_map, hload, hload'] at hhead
  have hsame : m' = m := Except.ok.inj (Option.some.inj hhead)
  rw [space_of_loadContext hload h, space_of_loadContext hload' h', hsame]

end

end Command

/-- **Success only grows.** In a context with more variables and more fragments, in which those of
the other have the same values and nodes, a statement that is resolved there comes to the same text.
So a task that shows a text shows the same text with more documents and more variables, as long as
the documents can still be checked, that is, as long as no name is declared twice. -/
theorem resolve_of_within :
    (∀ {ctx more after : Context} {library : Dict Node} {id text : String},
      ctx.Holds library → ctx.Within more → qualify more.space id = qualify ctx.space id →
        ctx.resolveStatement id = some (.ok text, after) →
          ∃ after', more.resolveStatement id = some (.ok text, after') ∧ after.Within after') ∧
    ∀ {task more : Command.ResolveTask} {names : List String} {text : String},
      task.Within more → Command.check more.documents = .ok names →
        Command.resolve task = some (.ok text) → Command.resolve more = some (.ok text) := by
  refine ⟨Context.resolveStatement_of_within, fun {task more names text} hwithin hcheck h => ?_⟩
  obtain ⟨ctx, vars, sql, after, hload, hvars, hsql, htext⟩ := Command.exists_of_resolve_eq_ok h
  obtain ⟨vars', hvars', hvarsWithin⟩ := hwithin.vars vars hvars
  obtain ⟨checked, hchecked, -⟩ := Command.loadContext_of_check_eq_ok hcheck
  obtain ⟨ctx', hload'⟩ := Command.exists_loadContext hchecked task.options
  obtain ⟨m, ms, hmappers⟩ := Command.exists_mappers_of_loadContext hload
  have hsetting := Command.sameSetting_setVariables ctx vars
  have hsetting' := Command.sameSetting_setVariables ctx' vars'
  have hold := (Command.holds_of_loadContext hmappers hload).of_sameSetting hsetting
  -- a bare id belongs to the namespace of the first document, a qualified one to none
  have hname : qualify (Command.setVariables ctx' vars').space task.statement
      = qualify (Command.setVariables ctx vars).space task.statement := by
    by_cases hdot : '.' ∈ task.statement.toList
    · rw [qualify_of_mem hdot, qualify_of_mem hdot]
    · rw [hsetting.space, hsetting'.space,
        Command.space_eq_of_first_eq (hwithin.first hdot) hload hload']
  obtain ⟨after', hafter', -⟩ := Context.resolveStatement_of_within hold
    (Command.within_setVariables hwithin.documents hload hload' hvarsWithin) hname hsql
  rw [← hwithin.options] at hload'
  rw [Command.resolve_of_readVariables_eq_ok hload' hvars', hwithin.statement, hafter',
    Option.map_some, Option.some.injEq, Command.ResolveTask.answer_eq_ok_iff]
  refine ⟨sql, rfl, ?_⟩
  rw [← htext, Command.ResolveTask.present, Command.ResolveTask.present, hwithin.raw]

/-- A context with another fragment, one of the application, and another variable. -/
def grownContext : Context :=
  (Lexical.sampleContext.register "m.new" (.host (.done (.ok "")))).set "u" "2"

/-- The grown context has everything that the sample has. -/
theorem within_grownContext : Lexical.sampleContext.Within grownContext :=
  (Context.within_register _ (by decide +kernel)).trans (Context.within_set _ (by decide +kernel))

/-- A task for a statement that includes a fragment with a variable. -/
def smallTask : Command.ResolveTask where
  statement := "top"
  documents := ["<mapper namespace=\"a\"><sql id=\"b\">$\x7bt\x7d</sql>"
    ++ "<select id=\"top\"><include refid=\"b\"/></select></mapper>"]
  vars := some "\x7b\"t\": \"0\"\x7d"
  options := { scopedBindings := true }
  raw := false

/-- The same task with another document and another variable. -/
def grownTask : Command.ResolveTask :=
  { smallTask with
    documents := smallTask.documents
      ++ ["<mapper namespace=\"b\"><sql id=\"top\">x</sql></mapper>"]
    vars := some "\x7b\"t\": \"0\", \"u\": \"2\"\x7d" }

/-- The grown task has the document and the variable of the small one. -/
theorem within_grownTask : smallTask.Within grownTask := by
  refine ⟨rfl, rfl, rfl, List.subset_append_left _ _, fun _ => rfl, fun vars hvars => ?_⟩
  have hsmall : smallTask.readVariables = .ok [("t", "0")] := by decide +kernel
  have hgrown : grownTask.readVariables = .ok [("t", "0"), ("u", "2")] := by decide +kernel
  cases hsmall.symm.trans hvars
  exact ⟨_, hgrown, Dict.within_insert "2" (by decide +kernel)⟩

/-- The sample statement and the small task come to the same with what has been added. -/
theorem resolve_of_within_grownTask :
    Lexical.sampleContext.Holds (Dict.ofList Lexical.sampleNodes) ∧
    Lexical.sampleContext.Within grownContext ∧
    (grownContext.resolveStatement "top").map Prod.fst = some (.ok "t=210") ∧
    smallTask.Within grownTask ∧
    Command.check grownTask.documents = .ok ["a.b", "a.top", "b.top"] ∧
    Command.resolve grownTask = some (.ok "0") := by
  have hold : Lexical.sampleContext.Holds (Dict.ofList Lexical.sampleNodes) :=
    Context.holds_registerNodes rfl Lexical.sampleNodes
  have htop : (Lexical.sampleContext.resolveStatement "top").map Prod.fst
      = some (.ok "t=210") := by decide +kernel
  have hcheck : Command.check grownTask.documents = .ok ["a.b", "a.top", "b.top"] := by
    decide +kernel
  refine ⟨hold, within_grownContext, ?_, within_grownTask, hcheck, ?_⟩
  · obtain ⟨⟨answer, after⟩, hafter, rfl⟩ := Option.map_eq_some_iff.1 htop
    obtain ⟨after', hafter', -⟩ := resolve_of_within.1 hold within_grownContext rfl hafter
    rw [hafter']
    rfl
  · exact resolve_of_within.2 within_grownTask hcheck (by decide +kernel)

end SqlFragments
