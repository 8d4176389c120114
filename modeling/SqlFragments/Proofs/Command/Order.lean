import Mathlib.Data.List.Perm.Basic
import SqlFragments.Proofs.Command.Agreement
import SqlFragments.Proofs.Resolution.Namespace

/-! # The order of documents

In whatever order documents are given, the same statements are registered. The order only decides
which document comes first, and its namespace is that of the context, in which statements with a
bare id are looked up.

* `Context.registerNodes_of_perm`: nodes with names of their own are registered in any order;
* `Command.loadContext_of_perm`: documents in another order are loaded into the same context, in
  the namespace of the document that comes first;
* `Command.resolve_of_inSpace`: a statement that has the same qualified name in both namespaces
  comes to the same answer;
* `check_resolve_of_perm`: so the order plays a part for bare ids only, and there through the first
  namespace alone. -/

namespace SqlFragments

namespace Context

variable {ctx : Context} {nodes nodes' : List (String × Node)}

/-- The namespace plays no part in what is registered under qualified names. -/
theorem registerNodes_inSpace (ctx : Context) (space : String) (nodes : List (String × Node)) :
    (ctx.inSpace space).registerNodes nodes = (ctx.registerNodes nodes).inSpace space := by
  induction nodes generalizing ctx with
  | nil => rfl
  | cons e nodes ih => exact ih (ctx.register e.1 (.node e.2))

/-- Nodes with names of their own are registered in any order. -/
theorem registerNodes_of_perm (hempty : ctx.registry = .empty)
    (hnodup : (nodes.map Prod.fst).Nodup) (hperm : nodes'.Perm nodes) :
    ctx.registerNodes nodes' = ctx.registerNodes nodes := by
  have hnodup' : (nodes'.map Prod.fst).Nodup := (hperm.map Prod.fst).nodup_iff.2 hnodup
  have hregistry : (ctx.registerNodes nodes').registry = (ctx.registerNodes nodes).registry := by
    apply Dict.ext_get?
    intro name
    apply Option.ext
    intro definition
    simp only [get?_registerNodes_iff hempty hnodup, get?_registerNodes_iff hempty hnodup',
      hperm.mem_iff]
  rw [registerNodes_eq, hregistry, ← registerNodes_eq]

end Context

namespace Command

/-! ## Documents in another order -/

section

variable {documents documents' : List String} {ms : List Mapper} {options : Options}
  {ctx : Context}

/-- Documents in another order declare the same mappers in another order. -/
theorem exists_mappers_of_perm (hperm : documents'.Perm documents)
    (hload : documents.map Mapper.ofDocument = ms.map .ok) :
    ∃ ms' : List Mapper, documents'.map Mapper.ofDocument = ms'.map .ok ∧ ms'.Perm ms := by
  have hmapped : (documents'.map Mapper.ofDocument).Perm (ms.map .ok) := by
    rw [← hload]
    exact hperm.map _
  have hcomp : Relation.Comp (· = List.map .ok ·) List.Perm (documents'.map Mapper.ofDocument)
      ms := by
    rwa [List.eq_map_comp_perm]
  exact hcomp

/-- **Documents in another order are loaded into the same context**, in the namespace of the one
that comes first. -/
theorem loadContext_of_perm (hperm : documents'.Perm documents)
    (h : loadContext documents options = .ok ctx) : ∃ m,
      documents'.head?.map Mapper.ofDocument = some (.ok m) ∧
      loadContext documents' options = .ok (ctx.inSpace m.space) := by
  obtain ⟨first, rest, hload⟩ := exists_mappers_of_loadContext h
  obtain ⟨ms', hload', hms⟩ := exists_mappers_of_perm hperm hload
  have hnodup := nodup_of_loadContext hload h
  have hnames : (declaredNames ms').Nodup := (hms.flatMap_right _).nodup_iff.2 hnodup
  cases ms' with
  | nil => exact absurd hms.length_eq (by simp)
  | cons m ms' =>
    refine ⟨m, by rw [← List.head?_map, hload']; rfl, ?_⟩
    rw [← map_fst_flatMap_nodes] at hnodup
    rw [loadContext_of_nodup hload' hnames, eq_of_loadContext hload h,
      ← Context.registerNodes_inSpace,
      Context.registerNodes_of_perm rfl hnodup (hms.flatMap_right Mapper.nodes)]
    rfl

/-- Documents in another order are checked with the same names. -/
theorem check_of_perm (hperm : documents'.Perm documents) {names : List String}
    (h : check documents = .ok names) : check documents' = .ok names := by
  obtain ⟨ctx, hctx, rfl⟩ := loadContext_of_check_eq_ok h
  obtain ⟨m, -, hctx'⟩ := loadContext_of_perm hperm hctx
  rw [check_of_loadContext_eq_ok hctx']
  rfl

end

/-! ## Statements in another namespace -/

/-- Nor does it play a part in the setting of variables. -/
theorem setVariables_inSpace (ctx : Context) (space : String) (vars : List (String × String)) :
    setVariables (ctx.inSpace space) vars = (setVariables ctx vars).inSpace space := by
  induction vars generalizing ctx with
  | nil => rfl
  | cons v vars ih => exact ih (ctx.set v.1 v.2)

section

variable {task other : ResolveTask} {ctx ctx' : Context}

/-- Tasks that differ in their documents and statements come to the same answer where the statements
come to the same answer, whatever variables are set. -/
theorem resolve_congr (hload : loadContext task.documents task.options = .ok ctx)
    (hload' : loadContext other.documents other.options = .ok ctx')
    (hvars : other.readVariables = task.readVariables) (hraw : other.raw = task.raw)
    (hanswers : ∀ vars, ((setVariables ctx' vars).resolveStatement other.statement).map Prod.fst
      = ((setVariables ctx vars).resolveStatement task.statement).map Prod.fst) :
    resolve other = resolve task := by
  cases hread : task.readVariables with
  | error e =>
    rw [resolve_of_readVariables_eq_error hload hread,
      resolve_of_readVariables_eq_error hload' (hvars.trans hread)]
  | ok vars =>
    have hanswer : other.answer = task.answer := by
      funext answer
      cases answer <;> simp only [ResolveTask.answer, ResolveTask.present, hraw]
    have hmapped := congrArg (Option.map task.answer) (hanswers vars)
    simp only [Option.map_map] at hmapped
    rw [resolve_of_readVariables_eq_ok hload hread,
      resolve_of_readVariables_eq_ok hload' (hvars.trans hread), hanswer]
    exact hmapped

/-- Variables leave the namespace as it is. -/
theorem space_setVariables (ctx : Context) (vars : List (String × String)) :
    (setVariables ctx vars).space = ctx.space :=
  (sameSetting_setVariables ctx vars).space

/-- A statement that has the same qualified name in two namespaces comes to the same answer in
both. -/
theorem resolve_of_inSpace (task : ResolveTask) {documents' : List String} {space : String}
    (hload : loadContext task.documents task.options = .ok ctx)
    (hload' : loadContext documents' task.options = .ok (ctx.inSpace space))
    (hname : qualify space task.statement = qualify ctx.space task.statement) :
    resolve { task with documents := documents' } = resolve task := by
  refine resolve_congr hload hload' rfl rfl fun vars => ?_
  have hstatement : ((setVariables ctx vars).inSpace space).resolveStatement task.statement
      = ((setVariables ctx vars).resolveStatement task.statement).inSpace space := by
    rw [Context.resolveStatement, Context.resolveStatement, Context.resolveFragment_inSpace,
      space_setVariables, ← hname]
    rfl
  rw [setVariables_inSpace, hstatement, Resolution.inSpace, Option.map_map]
  rfl

/-- A statement may as well be given by its qualified name. -/
theorem resolve_qualified (task : ResolveTask)
    (hload : loadContext task.documents task.options = .ok ctx) :
    resolve { task with statement := qualify ctx.space task.statement } = resolve task := by
  refine resolve_congr hload hload rfl rfl fun vars => ?_
  rw [Context.resolveStatement, Context.resolveStatement, space_setVariables, qualify_qualify]

end

end Command

/-- **The order of documents plays a part through the first namespace alone.** Documents can be
checked in one order just if they can be checked in another, and the same names are listed. If they
can then a task for a qualified statement comes to the same answer in both orders, and a task for a
bare id comes to that for the id in the first namespace: so it, too, comes to the same answer in all
orders with the same document first. -/
theorem check_resolve_of_perm {documents documents' : List String}
    (hperm : documents'.Perm documents) :
    (∀ names, Command.check documents = .ok names ↔ Command.check documents' = .ok names) ∧
    ∀ names, Command.check documents = .ok names → ∀ task : Command.ResolveTask,
      ('.' ∈ task.statement.toList →
        Command.resolve { task with documents := documents' }
          = Command.resolve { task with documents := documents }) ∧
      ('.' ∉ task.statement.toList → ∃ m,
        documents.head?.map Mapper.ofDocument = some (.ok m) ∧
        Command.resolve { task with documents := documents }
          = Command.resolve { task with
              documents := documents, statement := m.space ++ "." ++ task.statement }) ∧
      (documents'.head?.map Mapper.ofDocument = documents.head?.map Mapper.ofDocument →
        Command.resolve { task with documents := documents' }
          = Command.resolve { task with documents := documents }) := by
  refine ⟨fun names => ⟨Command.check_of_perm hperm, Command.check_of_perm hperm.symm⟩,
    fun names hcheck task => ?_⟩
  obtain ⟨checked, hchecked, -⟩ := Command.loadContext_of_check_eq_ok hcheck
  obtain ⟨ctx, hctx⟩ := Command.exists_loadContext hchecked task.options
  obtain ⟨m, hm, hself⟩ := Command.loadContext_of_perm (.refl documents) hctx
  obtain ⟨m', hm', hctx'⟩ := Command.loadContext_of_perm hperm hctx
  -- loaded in their own order the documents have the namespace of the first one already
  have hspace : m.space = ctx.space :=
    (congrArg Context.space (Except.ok.inj (hctx.symm.trans hself))).symm
  refine ⟨fun hdot => ?_, fun hdot => ⟨m, hm, ?_⟩, fun hhead => ?_⟩
  · exact Command.resolve_of_inSpace { task with documents := documents } hctx hctx'
      (by rw [qualify_of_mem hdot, qualify_of_mem hdot])
  · have hname : m.space ++ "." ++ task.statement = qualify ctx.space task.statement := by
      rw [← hspace, qualify_of_not_mem hdot]
    rw [hname]
    exact (Command.resolve_qualified { task with documents := documents } hctx).symm
  · have hsame : m' = m := by
      rw [hm, hm'] at hhead
      exact Except.ok.inj (Option.some.inj hhead)
    exact Command.resolve_of_inSpace { task with documents := documents } hctx hctx'
      (by rw [hsame, hspace])

/-- A task for a bare id that stands for a statement in either of two namespaces. -/
def bareTask : Command.ResolveTask where
  statement := "c"
  documents := nestedDocuments
  vars := none
  options := {}
  raw := false

/-- With the documents of the sample turned round, a bare id is looked up in the other namespace,
and a qualified name stands for what it did. -/
theorem check_resolve_of_perm_nestedDocuments :
    nestedDocuments.reverse.Perm nestedDocuments ∧
    Command.check nestedDocuments.reverse = .ok ["a.b", "a.b.c", "a.c"] ∧
    (∃ m, nestedDocuments.head?.map Mapper.ofDocument = some (.ok m) ∧
      Command.resolve bareTask
        = Command.resolve { bareTask with statement := m.space ++ "." ++ "c" }) ∧
    Command.resolve { bareTask with statement := "a.c", documents := nestedDocuments.reverse }
      = some (.ok "y") ∧
    Command.resolve { bareTask with documents := nestedDocuments.reverse } = some (.ok "z") := by
  have hperm : nestedDocuments.reverse.Perm nestedDocuments := List.reverse_perm _
  have hcheck : Command.check nestedDocuments = .ok ["a.b", "a.b.c", "a.c"] := by decide +kernel
  have hresolve : Command.resolve { bareTask with statement := "a.c" } = some (.ok "y") := by
    decide +kernel
  obtain ⟨hsame, htasks⟩ := check_resolve_of_perm hperm
  refine ⟨hperm, (hsame _).1 hcheck, (htasks _ hcheck bareTask).2.1 (by decide +kernel), ?_, ?_⟩
  · rw [← hresolve]
    exact (htasks _ hcheck { bareTask with statement := "a.c" }).1 (by decide +kernel)
  · -- in the other order the bare id belongs to the other namespace
    decide +kernel

end SqlFragments
