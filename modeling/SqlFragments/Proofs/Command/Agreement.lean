import SqlFragments.Proofs.Command.Union
import SqlFragments.Proofs.Resolution.Causes

/-! # Checking and resolving agree

Both commands load the documents first, and what they are loaded into differs only in its options,
which play no part in loading.

* `ResolveTask.answer` and `resolve_of_readVariables_eq_ok`: a task with documents and variables
  that can be read answers what its statement comes to;
* `loadContext_error_congr`: documents that cannot be loaded cannot be loaded with other options;
* `readVariables_isOk_iff`: which variables can be read;
* `check_resolve_agree`: a task fails as checking does, and finds just the statements that checking
  lists. -/

namespace SqlFragments

namespace Command

/-! ## What a task answers -/

/-- What a task answers, given the answer of its statement. -/
def ResolveTask.answer (task : ResolveTask) : Except NodeError String → Except CommandError String
  | .error e => .error (.resolve e)
  | .ok text => .ok (task.present text)

section

variable {task : ResolveTask} {ctx : Context} {e : CommandError} {vars : List (String × String)}

/-- A task whose documents cannot be loaded fails as loading does. -/
theorem resolve_of_loadContext_eq_error
    (hload : loadContext task.documents task.options = .error e) :
    resolve task = some (.error e) := by
  rw [resolve, ResolveTask.prepare, hload]

/-- If they can, a task whose variables cannot be read fails as reading them does. -/
theorem resolve_of_readVariables_eq_error
    (hload : loadContext task.documents task.options = .ok ctx)
    (hvars : task.readVariables = .error e) : resolve task = some (.error e) := by
  simp only [resolve, ResolveTask.prepare, hload, hvars]

/-- Otherwise a task answers what its statement comes to once the variables are set. -/
theorem resolve_of_readVariables_eq_ok
    (hload : loadContext task.documents task.options = .ok ctx)
    (hvars : task.readVariables = .ok vars) : resolve task
      = ((setVariables ctx vars).resolveStatement task.statement).map fun r => task.answer r.1 := by
  simp only [resolve, ResolveTask.prepare, hload, hvars]
  rcases (setVariables ctx vars).resolveStatement task.statement with _ | ⟨_ | _, _⟩ <;> rfl

end

/-- Variables change nothing else in a context. -/
theorem setVariables_eq (ctx : Context) (vars : List (String × String)) :
    setVariables ctx vars = { ctx with bindings := (setVariables ctx vars).bindings } := by
  induction vars generalizing ctx with
  | nil => rfl
  | cons v vars ih => exact ih (ctx.set v.1 v.2)

/-- So they leave the setting as it is. -/
theorem sameSetting_setVariables (ctx : Context) (vars : List (String × String)) :
    ctx.SameSetting (setVariables ctx vars) := by
  rw [setVariables_eq]
  exact ⟨rfl, rfl, rfl, rfl⟩

/-! ## Loading with other options -/

section

variable {documents : List String} {options : Options} {ctx : Context} {e : CommandError}

/-- Documents that are loaded can all be read, and there is one. -/
theorem exists_mappers_of_loadContext (h : loadContext documents options = .ok ctx) :
    ∃ m ms, documents.map Mapper.ofDocument = (m :: ms).map .ok := by
  rw [loadContext] at h
  split at h
  · cases h
  · cases h
  · rename_i m ms hload
    exact ⟨m, ms, loadMappers_eq_ok_iff.1 hload⟩

/-- The options play no part in whether documents can be loaded. -/
theorem loadContext_error_congr (h : loadContext documents options = .error e)
    (options' : Options) : loadContext documents options' = .error e := by
  rw [loadContext] at h ⊢
  split at h
  · exact h
  · exact h
  · rename_i m ms hload
    by_cases hnodup : ((Context.empty m.space options).registry.keys
        ++ declaredNames (m :: ms)).Nodup
    · cases (registerMappers_of_nodup hnodup).symm.trans h
    · obtain ⟨name, hname⟩ := exists_firstRepeated hnodup
      cases (registerMappers_of_firstRepeated hname).symm.trans h
      exact registerMappers_of_firstRepeated hname

/-- Documents that are loaded are loaded with other options, too. -/
theorem exists_loadContext (h : loadContext documents options = .ok ctx) (options' : Options) :
    ∃ ctx', loadContext documents options' = .ok ctx' := by
  cases hload : loadContext documents options' with
  | ok ctx' => exact ⟨ctx', rfl⟩
  | error e => cases (loadContext_error_congr hload options).symm.trans h

/-- Checking fails only as loading does. -/
theorem loadContext_of_check_eq_error (h : check documents = .error e) :
    loadContext documents {} = .error e := by
  rw [check] at h
  split at h
  · rename_i hload
    rw [hload, Except.error.inj h]
  · cases h

/-- Checking succeeds with the names of a context that is loaded. -/
theorem loadContext_of_check_eq_ok {names : List String} (h : check documents = .ok names) :
    ∃ ctx, loadContext documents {} = .ok ctx ∧ ctx.fragmentNames = names := by
  rw [check] at h
  split at h
  · cases h
  · rename_i ctx hload
    exact ⟨ctx, hload, Except.ok.inj h⟩

end

/-! ## Which variables can be read -/

/-- A value that has a text of its own. -/
def IsScalar : Json → Prop
  | .string _ | .number _ | .bool _ => True
  | .null | .array _ | .object _ => False

/-- The variables of a task are absent, or a JSON object of strings, numbers and truth values. -/
def ResolveTask.ScalarVariables (task : ResolveTask) : Prop :=
  task.vars = none ∨ ∃ text members, task.vars = some text ∧
    Json.ofText text = .ok (.object members) ∧ ∀ member ∈ members, IsScalar member.2

/-- Just scalars have a text. -/
theorem variableText_isOk_iff {name : String} {value : Json} :
    (∃ text, variableText name value = .ok text) ↔ IsScalar value := by
  cases value <;> simp [variableText, IsScalar]

/-- The members of an object can be read just if all their values are scalars. -/
theorem variablesOfMembers_isOk_iff {members : List (String × Json)} :
    (∃ vars, variablesOfMembers members = .ok vars) ↔ ∀ member ∈ members, IsScalar member.2 := by
  induction members with
  | nil => simp [variablesOfMembers]
  | cons member members ih =>
    rw [List.forall_mem_cons, ← ih, ← variableText_isOk_iff, variablesOfMembers]
    cases variableText member.1 member.2 with
    | error e => simp
    | ok text => cases variablesOfMembers members <;> simp

/-- **Which variables can be read**: those with values that have a text of their own. -/
theorem readVariables_isOk_iff {task : ResolveTask} :
    (∃ vars, task.readVariables = .ok vars) ↔ task.ScalarVariables := by
  rw [ResolveTask.readVariables, ResolveTask.ScalarVariables]
  cases task.vars with
  | none => simp
  | some text =>
    simp only [variablesOfText, reduceCtorEq, Option.some.injEq, exists_and_left, false_or,
      exists_eq_left']
    cases Json.ofText text with
    | error e => simp
    | ok value =>
      cases value with
      | object members =>
        simp only [variablesOfJson, Except.ok.injEq, Json.object.injEq, exists_eq_left',
          ← variablesOfMembers_isOk_iff]
        cases variablesOfMembers members <;> simp
      | _ => simp [variablesOfJson]

/-! ## Which statements are found -/

/-- A task passes on the error of its statement, and no other. -/
theorem ResolveTask.answer_eq_error_iff {task : ResolveTask} {answer : Except NodeError String}
    {e : NodeError} : task.answer answer = .error (.resolve e) ↔ answer = .error e := by
  cases answer <;> simp [ResolveTask.answer]

/-- Loading with other options registers the same names. -/
theorem mem_fragmentNames_congr {documents : List String} {options options' : Options}
    {ctx ctx' : Context} (h : loadContext documents options = .ok ctx)
    (h' : loadContext documents options' = .ok ctx') {name : String} :
    name ∈ ctx.fragmentNames ↔ name ∈ ctx'.fragmentNames := by
  obtain ⟨m, ms, hmappers⟩ := exists_mappers_of_loadContext h
  simp only [Context.fragmentNames, Dict.mem_keys_iff, Option.isSome_iff_exists,
    get?_of_loadContext hmappers h, get?_of_loadContext hmappers h']

end Command

/-- A fragment is reported missing by its own name just if it is not registered. -/
theorem Context.fragmentNotFound_iff {ctx after : Context} {library : Dict Node} {name : String}
    {answer : Except NodeError String} (hold : ctx.Holds library)
    (hdetect : ctx.options.detectCycles = true)
    (h : ctx.resolveFragment name = some (answer, after)) :
    answer = .error (.fragmentNotFound name) ↔ name ∉ ctx.fragmentNames := by
  rw [fragmentNames, ← Dict.get?_eq_none_iff]
  constructor
  · rintro rfl
    rw [hold name, get?_eq_none_of_fragmentNotFound hold h, Option.map_none]
  · intro hreg
    rw [resolveFragment, depthBound, if_pos hdetect, resolveFragmentWithin, hreg] at h
    exact (Prod.mk.inj (Option.some.inj h)).1.symm

/-- **Checking and resolving agree.** If the documents of a task cannot be checked then the task
fails in the same way, whatever else it asks for. If they can, and the variables are absent or an
object of strings, numbers and truth values, then with cycle detection the task comes to an answer,
and this is that its statement is missing just if checking does not list the statement's name,
qualified with the first namespace unless it is qualified. -/
theorem check_resolve_agree (task : Command.ResolveTask) :
    (∀ e, Command.check task.documents = .error e → Command.resolve task = some (.error e)) ∧
    ∀ names, Command.check task.documents = .ok names → task.ScalarVariables →
      task.options.detectCycles = true → ∃ m answer,
        task.documents.head?.map Mapper.ofDocument = some (.ok m) ∧
        Command.resolve task = some answer ∧
        (qualify m.space task.statement ∈ names ↔
          answer ≠ .error (.resolve (.fragmentNotFound (qualify m.space task.statement)))) := by
  refine ⟨fun e h => ?_, fun names h hscalar hdetect => ?_⟩
  · have hload := Command.loadContext_of_check_eq_error h
    exact Command.resolve_of_loadContext_eq_error
      (Command.loadContext_error_congr hload task.options)
  · obtain ⟨checked, hchecked, rfl⟩ := Command.loadContext_of_check_eq_ok h
    obtain ⟨ctx, hctx⟩ := Command.exists_loadContext hchecked task.options
    obtain ⟨m, ms, hmappers⟩ := Command.exists_mappers_of_loadContext hctx
    obtain ⟨vars, hvars⟩ := Command.readVariables_isOk_iff.2 hscalar
    have hempty := Command.eq_empty_of_loadContext hmappers hctx
    have hsetting := Command.sameSetting_setVariables ctx vars
    have hspace : (Command.setVariables ctx vars).space = m.space :=
      hsetting.space.trans (Command.space_of_loadContext hmappers hctx)
    have hdetects : (Command.setVariables ctx vars).options.detectCycles = true := by
      rw [hsetting.options, hempty]
      exact hdetect
    obtain ⟨answer, after, hanswer, -⟩ := (Command.setVariables ctx vars).resolveFragment_settles
      hdetects (qualify m.space task.statement)
    refine ⟨m, task.answer answer, ?_, ?_, ?_⟩
    · rw [← List.head?_map, hmappers]
      rfl
    · rw [Command.resolve_of_readVariables_eq_ok hctx hvars, Context.resolveStatement, hspace,
        hanswer]
      rfl
    · -- the registry is what was loaded; the variables have not changed it
      have hold := (Command.holds_of_loadContext hmappers hctx).of_sameSetting hsetting
      have hnames : (Command.setVariables ctx vars).fragmentNames = ctx.fragmentNames := by
        rw [Context.fragmentNames, hsetting.registry, Context.fragmentNames]
      rw [ne_eq, Command.ResolveTask.answer_eq_error_iff,
        Context.fragmentNotFound_iff hold hdetects hanswer, not_not, hnames]
      exact Command.mem_fragmentNames_congr hchecked hctx

/-- A task whose statement is there and includes a fragment that is not. -/
def missingTargetTask : Command.ResolveTask where
  statement := "top"
  documents := [
    "<mapper namespace=\"a\"><select id=\"top\"><include refid=\"$\x7bt\x7d\"/></select></mapper>"]
  vars := some "\x7b\"t\":\"a.none\"\x7d"
  options := {}
  raw := false

/-- A statement that is listed and includes a missing one is not itself reported missing. -/
theorem check_resolve_agree_missingTargetTask :
    Command.check missingTargetTask.documents = .ok ["a.top"] ∧
    missingTargetTask.ScalarVariables ∧ missingTargetTask.options.detectCycles = true ∧
    Command.resolve missingTargetTask ≠ some (.error (.resolve (.fragmentNotFound "a.top"))) ∧
    Command.check ["<table/>"] = .error (.mapper .missingMapper) ∧
    Command.resolve { missingTargetTask with documents := ["<table/>"] }
      = some (.error (.mapper .missingMapper)) := by
  have hcheck : Command.check missingTargetTask.documents = .ok ["a.top"] := by decide +kernel
  have hscalar : missingTargetTask.ScalarVariables :=
    Command.readVariables_isOk_iff.1 ⟨[("t", "a.none")], by decide +kernel⟩
  have hspace : missingTargetTask.documents.head?.map
      (fun document => (Mapper.ofDocument document).map (·.space)) = some (.ok "a") := by
    decide +kernel
  have htable : Command.check ["<table/>"] = .error (.mapper .missingMapper) := by decide +kernel
  refine ⟨hcheck, hscalar, rfl, ?_, htable, ?_⟩
  · obtain ⟨m, answer, hm, hanswer, hagree⟩ :=
      (check_resolve_agree missingTargetTask).2 _ hcheck hscalar rfl
    obtain ⟨document, hdocument, hread⟩ := Option.map_eq_some_iff.1 hm
    rw [hdocument, Option.map_some, hread, Option.some.injEq] at hspace
    have hname : qualify m.space missingTargetTask.statement = "a.top" := by
      have hm : m.space = "a" := Except.ok.inj hspace
      rw [hm]
      decide +kernel
    rw [hname] at hagree
    rw [hanswer, ne_eq, Option.some.injEq]
    exact hagree.1 List.mem_cons_self
  · exact (check_resolve_agree { missingTargetTask with documents := ["<table/>"] }).1 _ htable

end SqlFragments
