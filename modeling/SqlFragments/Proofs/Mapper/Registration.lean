import Mathlib.Data.List.Duplicate
import SqlFragments.Command.Task
import SqlFragments.Proofs.Dict
import SqlFragments.Proofs.Except

/-! # Registering mappers

A statement is registered under its qualified name. The ids in a mapper are different, but two of
them can have the same qualified name: one with the namespace in it and one without. Registering
such a mapper replaces one of its own statements by the other.

* `Mapper.Unambiguous`: no id is the qualified name of another, which is just what makes the
  qualified names different (`Mapper.qualifiedNames_nodup_iff`);
* `Mapper.mem_registerAll_iff`: the names that registering reports;
* `Command.registerMappers_duplicate`: with unambiguous mappers a duplicate has been declared by
  two of them;
* `ofDocument_registers`: an unambiguous mapper is registered whole, and no duplicate is reported
  for a single document. -/

namespace SqlFragments

/-! ## Qualified names -/

/-- A qualified name has a period. -/
theorem period_mem_qualify (space id : String) : '.' ∈ (qualify space id).toList := by
  by_cases h : '.' ∈ id.toList
  · rwa [qualify_of_mem h]
  · rw [qualify_of_not_mem h]
    simp

/-- A qualified name belongs to every namespace. -/
theorem qualify_qualify (space id : String) : qualify space (qualify space id) = qualify space id :=
  qualify_of_mem (period_mem_qualify space id)

namespace Mapper

/-- No id of a mapper is the qualified name of one without a period. -/
def Unambiguous (m : Mapper) : Prop :=
  ∀ id ∈ m.fragments.keys, '.' ∉ id.toList → qualify m.space id ∉ m.fragments.keys

instance (m : Mapper) : Decidable m.Unambiguous :=
  inferInstanceAs (Decidable (∀ id ∈ m.fragments.keys, '.' ∉ id.toList →
    qualify m.space id ∉ m.fragments.keys))

/-- **When qualified names are different.** -/
theorem qualifiedNames_nodup_iff (m : Mapper) : m.qualifiedNames.Nodup ↔ m.Unambiguous := by
  rw [qualifiedNames, List.nodup_map_iff_inj_on m.fragments.keys_nodup]
  constructor
  · intro hinj id hid hplain hqualified
    have heq := hinj id hid _ hqualified (qualify_qualify m.space id).symm
    exact hplain (heq ▸ period_mem_qualify m.space id)
  -- only an id with a period and one without it can have the same qualified name
  · intro h a ha b hb heq
    by_cases hpa : '.' ∈ a.toList
    · by_cases hpb : '.' ∈ b.toList
      · rwa [qualify_of_mem hpa, qualify_of_mem hpb] at heq
      · rw [qualify_of_mem hpa] at heq
        exact absurd (heq ▸ ha) (h b hb hpb)
    · by_cases hpb : '.' ∈ b.toList
      · rw [qualify_of_mem hpb] at heq
        exact absurd (heq ▸ hb) (h a ha hpa)
      · rw [qualify_of_not_mem hpa, qualify_of_not_mem hpb] at heq
        simpa using heq

/-! ## Registering -/

variable {space : String} {ctx : Context} {entries : List (String × Fragment)}

/-- What is registered: the definitions under their qualified names, one after the other. -/
theorem registerAll_registry :
    (registerAll space ctx entries).2.registry
      = (entries.map fun e => (qualify space e.1, Definition.node e.2.toNode)).foldl
          (fun d e => d.insert e.1 e.2) ctx.registry := by
  induction entries generalizing ctx with
  | nil => rfl
  | cons e entries ih => exact ih

/-- **What registering reports**: the names that stood for something before, and those that are
registered more than once. -/
theorem mem_registerAll_iff {name : String} : name ∈ (registerAll space ctx entries).1 ↔
    name ∈ entries.map (fun e => qualify space e.1) ∧ ctx.registry.contains name ∨
      List.Duplicate name (entries.map fun e => qualify space e.1) := by
  induction entries generalizing ctx with
  | nil => simp [registerAll, List.not_duplicate_nil]
  | cons e entries ih =>
    -- a later statement of the same name finds this one registered
    have hcontains : (ctx.register (qualify space e.1) (.node e.2.toNode)).registry.contains name
        ↔ qualify space e.1 = name ∨ ctx.registry.contains name := by
      rw [Context.register, Dict.contains, Dict.get?_insert, Dict.contains]
      split
      · rename_i heq
        simp [heq]
      · rename_i hne
        simp [hne]
    have hhead : name ∈ (registerAll space ctx (e :: entries)).1 ↔
        (name = qualify space e.1 ∧ ctx.registry.contains name) ∨
          name ∈ (registerAll space (ctx.register (qualify space e.1) (.node e.2.toNode))
            entries).1 := by
      simp only [registerAll]
      split
      · rename_i hreg
        rw [List.mem_cons]
        refine or_congr_left ⟨fun h => ⟨h, h ▸ hreg⟩, fun h => h.1⟩
      · rename_i hreg
        refine ⟨.inr, fun h => h.resolve_left ?_⟩
        rintro ⟨rfl, h⟩
        exact hreg h
    rw [hhead, ih, hcontains, List.map_cons, List.mem_cons, List.duplicate_cons_iff]
    grind

/-- The qualified names come in the order of the ids. -/
theorem qualifiedNames_eq (m : Mapper) :
    m.qualifiedNames = m.fragments.entries.map fun e => qualify m.space e.1 := by
  rw [qualifiedNames, Dict.keys, List.map_map]
  rfl

/-- Registering a mapper reports the names that were taken, and those that it declares more than
once. -/
theorem mem_register_iff {m : Mapper} {name : String} : name ∈ (m.register ctx).1 ↔
    name ∈ m.qualifiedNames ∧ ctx.registry.contains name ∨
      List.Duplicate name m.qualifiedNames := by
  rw [register, qualifiedNames_eq]
  exact mem_registerAll_iff

/-- Nothing is reported just if the names are different and new. -/
theorem register_eq_nil_iff {m : Mapper} : (m.register ctx).1 = [] ↔
    m.Unambiguous ∧ ∀ name ∈ m.qualifiedNames, ctx.registry.get? name = none := by
  have hnone : ∀ name, ctx.registry.get? name = none ↔ ¬ ctx.registry.contains name := by
    intro name
    rw [Dict.contains, Option.not_isSome_iff_eq_none]
  simp only [List.eq_nil_iff_forall_not_mem, mem_register_iff, not_or, not_and, forall_and,
    ← qualifiedNames_nodup_iff, List.nodup_iff_forall_not_duplicate, hnone]
  exact And.comm

/-- What a name stands for once an unambiguous mapper is registered. -/
theorem get?_register {m : Mapper} (h : m.Unambiguous) {name : String} {definition : Definition} :
    (m.register ctx).2.registry.get? name = some definition ↔
      (∃ id fragment, m.fragment? id = some fragment ∧ qualify m.space id = name ∧
        definition = .node fragment.toNode) ∨
      name ∉ m.qualifiedNames ∧ ctx.registry.get? name = some definition := by
  have hfst : (m.fragments.entries.map fun e =>
      (qualify m.space e.1, Definition.node e.2.toNode)).map Prod.fst = m.qualifiedNames := by
    rw [List.map_map, qualifiedNames_eq]
    rfl
  have hnodup := (qualifiedNames_nodup_iff m).2 h
  rw [register, registerAll_registry, Dict.get?_foldl_insert (by rwa [hfst]), hfst]
  refine or_congr_left ?_
  simp only [List.mem_map, Prod.mk.injEq, Prod.exists, fragment?, Dict.get?_eq_some_iff]
  constructor
  · rintro ⟨id, fragment, hmem, hname, rfl⟩
    exact ⟨id, fragment, hmem, hname, rfl⟩
  · rintro ⟨id, fragment, hmem, hname, rfl⟩
    exact ⟨id, fragment, hmem, hname, rfl⟩

/-- The qualified names are those of the statements. -/
theorem mem_qualifiedNames_iff {m : Mapper} {name : String} : name ∈ m.qualifiedNames ↔
    ∃ id fragment, m.fragment? id = some fragment ∧ qualify m.space id = name := by
  simp only [qualifiedNames, List.mem_map, Dict.mem_keys_iff, Option.isSome_iff_exists, fragment?,
    exists_and_right]

/-- The names that stand for something once an unambiguous mapper is registered. -/
theorem mem_keys_register {m : Mapper} (h : m.Unambiguous) {name : String} :
    name ∈ (m.register ctx).2.registry.keys ↔
      name ∈ m.qualifiedNames ∨ name ∈ ctx.registry.keys := by
  simp only [Dict.mem_keys_iff, Option.isSome_iff_exists, get?_register h, exists_or]
  constructor
  · rintro (⟨definition, id, fragment, hget, hname, -⟩ | ⟨definition, -, hget⟩)
    · exact .inl (mem_qualifiedNames_iff.2 ⟨id, fragment, hget, hname⟩)
    · exact .inr ⟨definition, hget⟩
  · rintro (hname | ⟨definition, hget⟩)
    · obtain ⟨id, fragment, hget, hname⟩ := mem_qualifiedNames_iff.1 hname
      exact .inl ⟨_, id, fragment, hget, hname, rfl⟩
    · by_cases hname : name ∈ m.qualifiedNames
      · obtain ⟨id, fragment, hget, hname⟩ := mem_qualifiedNames_iff.1 hname
        exact .inl ⟨_, id, fragment, hget, hname, rfl⟩
      · exact .inr ⟨definition, hname, hget⟩

/-- **An unambiguous mapper is registered whole** in a context without fragments. -/
theorem register_of_unambiguous {m : Mapper} (h : m.Unambiguous) (hempty : ctx.registry = .empty) :
    (m.register ctx).1 = [] ∧ ∀ id fragment, m.fragment? id = some fragment →
      (m.register ctx).2.registry.get? (qualify m.space id) = some (.node fragment.toNode) := by
  refine ⟨register_eq_nil_iff.2 ⟨h, fun name _ => ?_⟩, fun id fragment hget => ?_⟩
  · rw [hempty, Dict.get?_empty]
  · exact (get?_register h).2 (.inl ⟨id, fragment, hget, rfl, rfl⟩)

end Mapper

/-! ## Commands -/

namespace Command

/-- **A duplicate takes two.** If no mapper is ambiguous, a name that is reported is declared by
one of them and was registered before, by an earlier one or by nobody of them. -/
theorem registerMappers_duplicate {ms : List Mapper} {ctx : Context} {name : String}
    (hms : ∀ m ∈ ms, m.Unambiguous)
    (h : registerMappers ctx ms = .error (.duplicateFragment name)) :
    ∃ before m after, ms = before ++ m :: after ∧ name ∈ m.qualifiedNames ∧
      (name ∈ ctx.registry.keys ∨ ∃ earlier ∈ before, name ∈ earlier.qualifiedNames) := by
  induction ms generalizing ctx with
  | nil => cases h
  | cons m ms ih =>
    have hm := hms m List.mem_cons_self
    rw [registerMappers] at h
    split at h
    · rename_i ctx' hreg
      -- what the next mapper finds registered is what this one declares, and what was there
      obtain ⟨before, other, after, rfl, hname, hearlier⟩ :=
        ih (fun other hother => hms other (List.mem_cons_of_mem m hother)) h
      refine ⟨m :: before, other, after, rfl, hname, ?_⟩
      have hkeys : name ∈ ctx'.registry.keys ↔
          name ∈ m.qualifiedNames ∨ name ∈ ctx.registry.keys := by
        rw [← Mapper.mem_keys_register hm, hreg]
      rw [hkeys] at hearlier
      rcases hearlier with (hdeclared | hbefore) | ⟨earlier, hmem, hdeclared⟩
      · exact .inr ⟨m, List.mem_cons_self, hdeclared⟩
      · exact .inl hbefore
      · exact .inr ⟨earlier, List.mem_cons_of_mem m hmem, hdeclared⟩
    · rename_i first more ctx' hreg
      cases h
      have hmem : name ∈ (m.register ctx).1 := by
        rw [hreg]
        exact List.mem_cons_self
      rcases Mapper.mem_register_iff.1 hmem with ⟨hname, hbefore⟩ | hduplicate
      · exact ⟨[], m, ms, rfl, hname, .inl (Dict.mem_keys_iff.2 hbefore)⟩
      · exact absurd ((Mapper.qualifiedNames_nodup_iff m).2 hm) hduplicate.not_nodup

/-- Documents that can be read are loaded by registering their mappers in the namespace of the
first. -/
theorem loadContext_of_loadMappers {documents : List String} {m : Mapper} {ms : List Mapper}
    (h : loadMappers documents = .ok (m :: ms)) (options : Options) :
    loadContext documents options = registerMappers (Context.empty m.space options) (m :: ms) := by
  rw [loadContext, h]

/-- With unambiguous mappers alone, a duplicate among the documents is declared by two of them. -/
theorem loadContext_duplicate {documents : List String} {m : Mapper} {ms : List Mapper}
    {options : Options} {name : String} (hload : loadMappers documents = .ok (m :: ms))
    (hms : ∀ other ∈ m :: ms, other.Unambiguous)
    (h : loadContext documents options = .error (.duplicateFragment name)) :
    ∃ before later after, m :: ms = before ++ later :: after ∧ name ∈ later.qualifiedNames ∧
      ∃ earlier ∈ before, name ∈ earlier.qualifiedNames := by
  rw [loadContext_of_loadMappers hload] at h
  obtain ⟨before, later, after, heq, hlater, hearlier⟩ := registerMappers_duplicate hms h
  exact ⟨before, later, after, heq, hlater, hearlier.resolve_left fun hmem => nomatch hmem⟩

/-- Reading variables reports no duplicate. -/
theorem variablesOfText_ne_duplicate (text name : String) :
    variablesOfText text ≠ .error (.duplicateFragment name) := by
  rw [variablesOfText]
  split
  · simp
  · split <;> simp

/-- A task that reports a duplicate has found it among the statements of its documents. -/
theorem loadContext_of_resolve_duplicate {task : ResolveTask} {name : String}
    (h : resolve task = some (.error (.duplicateFragment name))) :
    loadContext task.documents task.options = .error (.duplicateFragment name) := by
  have hprepare : task.prepare = .error (.duplicateFragment name) := by
    rw [resolve] at h
    split at h
    · rename_i e he
      rw [he]
      exact congrArg Except.error (Except.error.inj (Option.some.inj h))
    · split at h <;> cases h
  rw [ResolveTask.prepare] at hprepare
  split at hprepare
  · rename_i e he
    rw [he, Except.error.inj hprepare]
  · split at hprepare
    · rename_i e he
      rw [ResolveTask.readVariables] at he
      split at he
      · cases he
      · cases Except.error.inj hprepare
        exact absurd he (variablesOfText_ne_duplicate _ name)
    · cases hprepare

section

variable {document : String} {m : Mapper}

/-- Documents are read one after the other. -/
theorem loadMappers_cons (h : Mapper.ofDocument document = .ok m) {documents : List String}
    {ms : List Mapper} (hms : loadMappers documents = .ok ms) :
    loadMappers (document :: documents) = .ok (m :: ms) := by
  rw [loadMappers, h, hms]

/-- A single document is read by itself. -/
theorem loadMappers_singleton (h : Mapper.ofDocument document = .ok m) :
    loadMappers [document] = .ok [m] :=
  loadMappers_cons h rfl

/-- Checking a document lists its statements, each once. -/
theorem check_of_unambiguous (h : Mapper.ofDocument document = .ok m) (hm : m.Unambiguous) :
    ∃ names, check [document] = .ok names ∧ names.Perm m.qualifiedNames := by
  have hload := loadContext_of_loadMappers (loadMappers_singleton h) {}
  have hnil : (m.register (Context.empty m.space {})).1 = [] :=
    (Mapper.register_of_unambiguous hm rfl).1
  match hreg : m.register (Context.empty m.space {}) with
  | (name :: more, after) =>
    rw [hreg] at hnil
    cases hnil
  | ([], after) =>
    rw [registerMappers, hreg] at hload
    refine ⟨after.fragmentNames, by rw [check, hload]; rfl, ?_⟩
    refine (List.perm_ext_iff_of_nodup after.registry.keys_nodup
      ((Mapper.qualifiedNames_nodup_iff m).2 hm)).2 fun name => ?_
    have hkeys : name ∈ (m.register (Context.empty m.space {})).2.registry.keys ↔
        name ∈ m.qualifiedNames ∨ name ∈ (Context.empty m.space {}).registry.keys :=
      Mapper.mem_keys_register hm
    rw [hreg] at hkeys
    exact hkeys.trans (or_iff_left fun hmem => nomatch hmem)

/-- Checking a document reports a duplicate in it if two of its ids have the same qualified
name. -/
theorem check_of_not_unambiguous (h : Mapper.ofDocument document = .ok m)
    (hm : ¬ m.Unambiguous) : ∃ name, check [document] = .error (.duplicateFragment name) := by
  have hload := loadContext_of_loadMappers (loadMappers_singleton h) {}
  match hreg : m.register (Context.empty m.space {}) with
  | ([], after) =>
    have hnil : (m.register (Context.empty m.space {})).1 = [] := by rw [hreg]
    exact absurd (Mapper.register_eq_nil_iff.1 hnil).1 hm
  | (name :: more, after) =>
    rw [registerMappers, hreg] at hload
    exact ⟨name, by rw [check, hload]⟩

/-- Resolving with a single document never reports a duplicate. -/
theorem resolve_ne_duplicate (h : Mapper.ofDocument document = .ok m) (hm : m.Unambiguous)
    {task : ResolveTask} (htask : task.documents = [document]) (name : String) :
    resolve task ≠ some (.error (.duplicateFragment name)) := by
  intro hresolve
  have hload := loadContext_of_resolve_duplicate hresolve
  rw [htask] at hload
  obtain ⟨before, later, after, heq, -, earlier, hearlier, -⟩ :=
    loadContext_duplicate (loadMappers_singleton h) (by simpa using hm) hload
  -- in a list of one mapper none comes before another
  cases before with
  | nil => cases hearlier
  | cons first before =>
    rw [List.cons_append, List.cons.injEq] at heq
    simp at heq

end

end Command

/-! ## Documents -/

/-- **A mapper does not collide with itself unless its ids are ambiguous.** The qualified names of
the mapper of a document are different just if no id is the qualified name of another. Then the
mapper is registered whole in a context without fragments, checking the document lists its
statements, resolving with it alone never reports a duplicate, and where it is loaded with others
a duplicate is declared by two of them. Otherwise checking it reports a duplicate. -/
theorem ofDocument_registers {document : String} {m : Mapper}
    (h : Mapper.ofDocument document = .ok m) :
    (m.qualifiedNames.Nodup ↔ m.Unambiguous) ∧
    (m.Unambiguous →
      (∀ ctx : Context, ctx.registry = .empty → (m.register ctx).1 = [] ∧
        ∀ id fragment, m.fragment? id = some fragment →
          (m.register ctx).2.registry.get? (qualify m.space id)
            = some (.node fragment.toNode)) ∧
      (∃ names, Command.check [document] = .ok names ∧ names.Perm m.qualifiedNames) ∧
      (∀ task : Command.ResolveTask, task.documents = [document] → ∀ name,
        Command.resolve task ≠ some (.error (.duplicateFragment name))) ∧
      ∀ documents ms options name, Command.loadMappers documents = .ok ms →
        (∀ other ∈ ms, other.Unambiguous) →
        Command.loadContext (document :: documents) options = .error (.duplicateFragment name) →
        ∃ before later after, m :: ms = before ++ later :: after ∧
          name ∈ later.qualifiedNames ∧ ∃ earlier ∈ before, name ∈ earlier.qualifiedNames) ∧
    (¬ m.Unambiguous → ∃ name, Command.check [document] = .error (.duplicateFragment name)) := by
  refine ⟨m.qualifiedNames_nodup_iff, fun hm => ⟨fun ctx hempty => ?_, ?_, ?_, ?_⟩, ?_⟩
  · exact Mapper.register_of_unambiguous hm hempty
  · exact Command.check_of_unambiguous h hm
  · exact fun task htask name => Command.resolve_ne_duplicate h hm htask name
  · intro documents ms options name hms hothers hload
    exact Command.loadContext_duplicate (Command.loadMappers_cons h hms)
      (List.forall_mem_cons.2 ⟨hm, hothers⟩) hload
  · exact Command.check_of_not_unambiguous h

/-- A document with an id that is qualified already. -/
def dottedDocument : String :=
  "<mapper namespace=\"a\"><sql id=\"b\">x</sql><sql id=\"a.c\">y</sql></mapper>"

/-- An id that is qualified already does not make a mapper ambiguous. -/
theorem ofDocument_registers_dottedDocument :
    ∃ m, Mapper.ofDocument dottedDocument = .ok m ∧ m.Unambiguous ∧ m.qualifiedNames.Nodup ∧
      ∃ names, Command.check [dottedDocument] = .ok names ∧ names.Perm m.qualifiedNames := by
  have hok : (Mapper.ofDocument dottedDocument).map (fun m => decide m.Unambiguous) = .ok true := by
    decide +kernel
  obtain ⟨m, h, hdecided⟩ := map_eq_ok.1 hok
  have hm : m.Unambiguous := of_decide_eq_true hdecided
  obtain ⟨hnodup, hunambiguous, -⟩ := ofDocument_registers h
  exact ⟨m, h, hm, hnodup.2 hm, (hunambiguous hm).2.1⟩

/-- A document in which two ids have the same qualified name. -/
def ambiguousDocument : String :=
  "<mapper namespace=\"a\"><sql id=\"b\">x</sql><sql id=\"a.b\">y</sql></mapper>"

/-- Each of the ids is new when it is read, and then the duplicate is reported as one of two
documents. -/
theorem check_ambiguousDocument :
    (Mapper.ofDocument ambiguousDocument).map (·.qualifiedNames) = .ok ["a.b", "a.b"] ∧
    Command.check [ambiguousDocument] = .error (.duplicateFragment "a.b") := by
  decide +kernel

end SqlFragments
