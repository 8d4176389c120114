import Mathlib.Data.List.Induction
import SqlFragments.Proofs.Except
import SqlFragments.Proofs.Mapper.Registration
import SqlFragments.Proofs.Resolution.Lexical

/-! # Loading several documents

The statements of all mappers are put into one registry, under their qualified names. This is a
disjoint union: nothing is lost and nothing is added, and the first name that is taken already
ends it.

* `FirstRepeated`: the first element of a list that has stood there before;
* `Mapper.head?_register`: what the registration of a mapper reports first;
* `Command.registerMappers_of_nodup`, `Command.registerMappers_of_firstRepeated`: mappers that are
  registered one after the other;
* `qualify_eq_qualify_iff`: ids without a period are told apart by their qualified names;
* `loadContext_disjointUnion`: documents are loaded just if their statements have names of their
  own. -/

namespace SqlFragments

/-! ## The first repetition in a list -/

/-- The first element of a list that has stood there before. -/
def FirstRepeated {α : Type _} (l : List α) (a : α) : Prop :=
  ∃ before after, l = before ++ a :: after ∧ before.Nodup ∧ a ∈ before

section

variable {α : Type _} {a b : α} {l l' more : List α}

/-- Where an element is repeated, not all are different. -/
theorem FirstRepeated.not_nodup (h : FirstRepeated l a) : ¬ l.Nodup := by
  obtain ⟨before, after, rfl, -, hmem⟩ := h
  intro hnodup
  exact (List.nodup_append.1 hnodup).2.2 a hmem a List.mem_cons_self rfl

/-- What stands behind the first repetition has no influence on it. -/
theorem FirstRepeated.append (h : FirstRepeated l a) (more : List α) :
    FirstRepeated (l ++ more) a := by
  obtain ⟨before, after, rfl, hnodup, hmem⟩ := h
  exact ⟨before, after ++ more, by simp, hnodup, hmem⟩

/-- A list has a first repetition unless its elements are different. -/
theorem exists_firstRepeated (h : ¬ l.Nodup) : ∃ a, FirstRepeated l a := by
  induction l using List.reverseRecOn with
  | nil => exact absurd List.nodup_nil h
  | append_singleton l b ih =>
    by_cases hnodup : l.Nodup
    · -- the elements before the last are different, so the last is the one that is repeated
      have hmem : b ∈ l := by
        by_contra hnew
        exact h (List.concat_eq_append ▸ hnodup.concat hnew)
      exact ⟨b, l, [], rfl, hnodup, hmem⟩
    · obtain ⟨a, ha⟩ := ih hnodup
      exact ⟨a, ha.append [b]⟩

/-- A repetition behind different elements is one of them, or repeats what stands behind them. -/
theorem firstRepeated_append_iff (hnodup : l.Nodup) : FirstRepeated (l ++ more) a ↔
    ∃ before after, more = before ++ a :: after ∧ (l ++ before).Nodup ∧ a ∈ l ++ before := by
  constructor
  · rintro ⟨before, after, heq, hbefore, hmem⟩
    rcases List.append_eq_append_iff.1 heq with ⟨mid, rfl, hmore⟩ | ⟨mid, rfl, hrest⟩
    · exact ⟨mid, after, hmore, hbefore, hmem⟩
    · cases mid with
      | nil =>
        rw [List.nil_append] at hrest
        rw [List.append_nil] at hnodup
        exact ⟨[], after, hrest.symm, by simpa using hnodup, by simpa using hmem⟩
      | cons c mid =>
        -- the element would stand among the different ones and before them
        obtain ⟨rfl, -⟩ := List.cons.inj hrest
        exact absurd hnodup (FirstRepeated.not_nodup ⟨before, mid, rfl, hbefore, hmem⟩)
  · rintro ⟨before, after, rfl, hbefore, hmem⟩
    exact ⟨l ++ before, after, by simp, hbefore, hmem⟩

/-- There is only one first repetition. -/
theorem FirstRepeated.unique (h : FirstRepeated l a) (h' : FirstRepeated l b) : a = b := by
  obtain ⟨before, after, rfl, hnodup, hmem⟩ := h
  obtain ⟨more, rest, heq, hmore, hb⟩ := (firstRepeated_append_iff hnodup).1 h'
  cases more with
  | nil => exact (List.cons.inj heq).1
  | cons c more =>
    obtain ⟨rfl, -⟩ := List.cons.inj heq
    exact absurd hmore (FirstRepeated.not_nodup ⟨before, more, rfl, hnodup, hmem⟩)

/-- In which order different elements stand has no influence on what is repeated behind them. -/
theorem firstRepeated_append_congr (hperm : l.Perm l') (hnodup : l.Nodup) :
    FirstRepeated (l ++ more) a ↔ FirstRepeated (l' ++ more) a := by
  rw [firstRepeated_append_iff hnodup, firstRepeated_append_iff (hperm.nodup_iff.1 hnodup)]
  refine exists_congr fun before => exists_congr fun after => and_congr_right fun _ => ?_
  rw [(hperm.append_right before).nodup_iff, (hperm.append_right before).mem_iff]

end

/-! ## Registering nodes -/

/-- A new key is added to the keys, at the place that its order gives it. -/
theorem Dict.keys_insert_perm {α : Type _} {d : Dict α} {key : String} (h : key ∉ d.keys)
    (value : α) : (d.insert key value).keys.Perm (d.keys ++ [key]) := by
  have hnodup : (d.keys ++ [key]).Nodup := List.concat_eq_append ▸ d.keys_nodup.concat h
  refine (List.perm_ext_iff_of_nodup (keys_nodup _) hnodup).2 fun other => ?_
  rw [List.mem_append, List.mem_singleton, mem_keys_iff, mem_keys_iff, get?_insert]
  split
  · rename_i heq
    simp [heq]
  · rename_i hne
    simp [Ne.symm hne]

/-- Nodes are registered one list after the other. -/
theorem Context.registerNodes_append (ctx : Context) (nodes others : List (String × Node)) :
    ctx.registerNodes (nodes ++ others) = (ctx.registerNodes nodes).registerNodes others :=
  List.foldl_append

/-- Nodes change nothing but the registry. -/
theorem Context.registerNodes_eq (ctx : Context) (nodes : List (String × Node)) :
    ctx.registerNodes nodes = { ctx with registry := (ctx.registerNodes nodes).registry } := by
  induction nodes generalizing ctx with
  | nil => rfl
  | cons e nodes ih => exact ih (ctx.register e.1 (.node e.2))

/-- Nodes with names of their own add these names. -/
theorem Context.keys_registerNodes_perm {ctx : Context} {nodes : List (String × Node)}
    (hnodup : (ctx.registry.keys ++ nodes.map Prod.fst).Nodup) :
    (ctx.registerNodes nodes).registry.keys.Perm (ctx.registry.keys ++ nodes.map Prod.fst) := by
  induction nodes generalizing ctx with
  | nil => simp [registerNodes]
  | cons e nodes ih =>
    rw [List.map_cons, List.append_cons] at hnodup ⊢
    have hnew : e.1 ∉ ctx.registry.keys := fun hmem =>
      (List.nodup_append.1 (List.nodup_append.1 hnodup).1).2.2 _ hmem _ (by simp) rfl
    have hperm : (ctx.register e.1 (.node e.2)).registry.keys.Perm (ctx.registry.keys ++ [e.1]) :=
      Dict.keys_insert_perm hnew _
    exact (ih ((hperm.append_right _).nodup_iff.2 hnodup)).trans (hperm.append_right _)

/-- What nodes with names of their own are registered as. -/
theorem Context.get?_registerNodes_iff {ctx : Context} (hempty : ctx.registry = .empty)
    {nodes : List (String × Node)} (hnodup : (nodes.map Prod.fst).Nodup) {name : String}
    {definition : Definition} : (ctx.registerNodes nodes).registry.get? name = some definition ↔
      ∃ node, (name, node) ∈ nodes ∧ definition = .node node := by
  rw [holds_registerNodes hempty nodes name, Option.map_eq_some_iff]
  refine exists_congr fun node => ?_
  rw [Dict.get?_ofList hnodup, eq_comm (a := definition)]

/-! ## Registering a mapper -/

namespace Mapper

variable {ctx : Context}

/-- The statements of a mapper as nodes, under their qualified names. -/
def nodes (m : Mapper) : List (String × Node) :=
  m.fragments.entries.map fun e => (qualify m.space e.1, e.2.toNode)

/-- The names of a mapper's nodes are the qualified names of its statements. -/
theorem map_fst_nodes (m : Mapper) : m.nodes.map Prod.fst = m.qualifiedNames := by
  rw [nodes, List.map_map, qualifiedNames_eq]
  rfl

/-- The nodes of a mapper are its statements, each under its qualified name. -/
theorem mem_nodes_iff {m : Mapper} {name : String} {node : Node} : (name, node) ∈ m.nodes ↔
    ∃ id fragment, m.fragment? id = some fragment ∧ qualify m.space id = name ∧
      node = fragment.toNode := by
  simp only [nodes, List.mem_map, Prod.mk.injEq, Prod.exists, fragment?, Dict.get?_eq_some_iff]
  refine exists_congr fun id => exists_congr fun fragment => and_congr_right fun _ => ?_
  exact and_congr_right fun _ => eq_comm

/-- Whatever is reported, all statements are registered. -/
theorem registerAll_snd (space : String) (ctx : Context) (entries : List (String × Fragment)) :
    (registerAll space ctx entries).2
      = ctx.registerNodes (entries.map fun e => (qualify space e.1, e.2.toNode)) := by
  induction entries generalizing ctx with
  | nil => rfl
  | cons e entries ih => exact ih _

/-- **A mapper registers all its statements**, also those whose names were taken. -/
theorem register_snd (m : Mapper) (ctx : Context) :
    (m.register ctx).2 = ctx.registerNodes m.nodes :=
  registerAll_snd m.space ctx m.fragments.entries

/-- What is reported first is the first name that is taken when its turn comes, by a statement that
was registered before or by one of those before it. -/
theorem head?_registerAll {space name : String} {entries : List (String × Fragment)} :
    (registerAll space ctx entries).1.head? = some name ↔
      FirstRepeated (ctx.registry.keys ++ entries.map fun e => qualify space e.1) name := by
  induction entries generalizing ctx with
  | nil =>
    refine iff_of_false (by simp [registerAll]) fun h => h.not_nodup ?_
    simpa using ctx.registry.keys_nodup
  | cons e entries ih =>
    have hkeys : ctx.registry.contains (qualify space e.1) = true ↔
        qualify space e.1 ∈ ctx.registry.keys := Dict.mem_keys_iff.symm
    simp only [registerAll, List.map_cons]
    split <;> rename_i htaken <;> rw [hkeys] at htaken
    · have hfirst : FirstRepeated (ctx.registry.keys ++ qualify space e.1 ::
          entries.map fun e => qualify space e.1) (qualify space e.1) :=
        ⟨_, _, rfl, ctx.registry.keys_nodup, htaken⟩
      rw [List.head?_cons, Option.some.injEq]
      exact ⟨fun h => h ▸ hfirst, hfirst.unique⟩
    · have hperm := Dict.keys_insert_perm htaken (Definition.node e.2.toNode)
      rw [ih, Context.register, firstRepeated_append_congr hperm (Dict.keys_nodup _),
        List.append_assoc, List.singleton_append]

/-- A mapper reports the first of its names that is taken when its turn comes. -/
theorem head?_register {m : Mapper} {name : String} : (m.register ctx).1.head? = some name ↔
    FirstRepeated (ctx.registry.keys ++ m.qualifiedNames) name := by
  rw [register, qualifiedNames_eq]
  exact head?_registerAll

/-- Nothing is reported just if all names are different. -/
theorem register_fst_eq_nil_iff {m : Mapper} : (m.register ctx).1 = [] ↔
    (ctx.registry.keys ++ m.qualifiedNames).Nodup := by
  constructor
  · intro hnil
    by_contra hnodup
    obtain ⟨name, hname⟩ := exists_firstRepeated hnodup
    rw [← head?_register, hnil] at hname
    cases hname
  · intro hnodup
    cases hreported : (m.register ctx).1 with
    | nil => rfl
    | cons name names =>
      have hhead : (m.register ctx).1.head? = some name := by
        rw [hreported]
        rfl
      have hfirst := head?_register.1 hhead
      exact absurd hnodup hfirst.not_nodup

/-- The registered names, once those of a mapper have been added. -/
theorem keys_registerNodes_perm {m : Mapper}
    (hnodup : (ctx.registry.keys ++ m.qualifiedNames).Nodup) :
    (ctx.registerNodes m.nodes).registry.keys.Perm (ctx.registry.keys ++ m.qualifiedNames) := by
  rw [← map_fst_nodes] at hnodup ⊢
  exact Context.keys_registerNodes_perm hnodup

end Mapper

/-! ## Registering mappers -/

namespace Command

/-- The qualified names of the statements of mappers, mapper by mapper and in the order of their
ids. -/
def declaredNames (ms : List Mapper) : List String := ms.flatMap Mapper.qualifiedNames

/-- The names of the first mapper come first. -/
theorem declaredNames_cons (m : Mapper) (ms : List Mapper) :
    declaredNames (m :: ms) = m.qualifiedNames ++ declaredNames ms := rfl

/-- Mappers are registered if their statements have names of their own. -/
theorem registerMappers_of_nodup {ms : List Mapper} {ctx : Context}
    (hnodup : (ctx.registry.keys ++ declaredNames ms).Nodup) :
    registerMappers ctx ms = .ok (ctx.registerNodes (ms.flatMap Mapper.nodes)) := by
  induction ms generalizing ctx with
  | nil => rfl
  | cons m ms ih =>
    rw [declaredNames_cons, ← List.append_assoc] at hnodup
    -- the first mapper leaves the names of the others free
    have hm := (List.nodup_append.1 hnodup).1
    have hrest : ((ctx.registerNodes m.nodes).registry.keys ++ declaredNames ms).Nodup :=
      ((Mapper.keys_registerNodes_perm hm).append_right _).nodup_iff.2 hnodup
    have hreg : m.register ctx = ([], ctx.registerNodes m.nodes) :=
      Prod.ext (Mapper.register_fst_eq_nil_iff.2 hm) (m.register_snd ctx)
    rw [registerMappers, hreg]
    simp only [ih hrest, List.flatMap_cons, Context.registerNodes_append]

/-- Otherwise the first name that is taken when its turn comes is reported. -/
theorem registerMappers_of_firstRepeated {ms : List Mapper} {ctx : Context} {name : String}
    (h : FirstRepeated (ctx.registry.keys ++ declaredNames ms) name) :
    registerMappers ctx ms = .error (.duplicateFragment name) := by
  induction ms generalizing ctx with
  | nil => exact absurd (by simpa [declaredNames] using ctx.registry.keys_nodup) h.not_nodup
  | cons m ms ih =>
    rw [declaredNames_cons, ← List.append_assoc] at h
    by_cases hm : (ctx.registry.keys ++ m.qualifiedNames).Nodup
    · have hreg : m.register ctx = ([], ctx.registerNodes m.nodes) :=
        Prod.ext (Mapper.register_fst_eq_nil_iff.2 hm) (m.register_snd ctx)
      rw [registerMappers, hreg]
      exact ih ((firstRepeated_append_congr (Mapper.keys_registerNodes_perm hm)
        (Dict.keys_nodup _)).2 h)
    · -- the name is among those of this mapper, which are all looked at before it is reported
      obtain ⟨first, hfirst⟩ := exists_firstRepeated hm
      obtain rfl := (hfirst.append _).unique h
      have hhead := Mapper.head?_register.2 hfirst
      rcases hreg : m.register ctx with ⟨_ | ⟨reported, others⟩, after⟩
      · simp [hreg] at hhead
      · simp only [hreg, List.head?_cons, Option.some.injEq] at hhead
        rw [registerMappers, hreg, hhead]

/-! ## Documents -/

/-- Checking lists what loading has registered. -/
theorem check_of_loadContext_eq_ok {documents : List String} {ctx : Context}
    (h : loadContext documents {} = .ok ctx) : check documents = .ok ctx.fragmentNames := by
  rw [check, h]

/-- All documents are read just if each of them can be. -/
theorem loadMappers_eq_ok_iff {documents : List String} {ms : List Mapper} :
    loadMappers documents = .ok ms ↔ documents.map Mapper.ofDocument = ms.map .ok := by
  induction documents generalizing ms with
  | nil => cases ms <;> simp [loadMappers]
  | cons document documents ih =>
    rw [loadMappers, List.map_cons]
    cases hdocument : Mapper.ofDocument document with
    | error e => cases ms <;> simp
    | ok m =>
      cases hload : loadMappers documents with
      | error e =>
        have hnone : ∀ rest : List Mapper, documents.map Mapper.ofDocument ≠ rest.map .ok := by
          intro rest hrest
          rw [← ih, hload] at hrest
          cases hrest
        cases ms <;> simp [hnone]
      | ok rest =>
        have hrest : documents.map Mapper.ofDocument = rest.map .ok := ih.1 hload
        cases ms with
        | nil => simp
        | cons first others =>
          simp only [Except.ok.injEq, List.cons.injEq, List.map_cons, hrest]
          refine and_congr_right fun _ => ⟨fun heq => by rw [heq], fun heq => ?_⟩
          exact List.map_injective_iff.2 (fun _ _ => Except.ok.inj) heq

/-- The first document that cannot be read is reported. -/
theorem loadMappers_of_error {before after : List String} {document : String} {e : MapperError}
    (hbefore : ∀ earlier ∈ before, ∃ m, Mapper.ofDocument earlier = .ok m)
    (h : Mapper.ofDocument document = .error e) :
    loadMappers (before ++ document :: after) = .error (.mapper e) := by
  induction before with
  | nil => rw [List.nil_append, loadMappers, h]
  | cons earlier before ih =>
    obtain ⟨m, hm⟩ := hbefore earlier List.mem_cons_self
    rw [List.cons_append, loadMappers, hm,
      ih fun other hother => hbefore other (List.mem_cons_of_mem earlier hother)]

section

variable {documents : List String} {m : Mapper} {ms : List Mapper}

/-- The context of documents whose statements have names of their own. -/
theorem loadContext_of_nodup (hload : documents.map Mapper.ofDocument = (m :: ms).map .ok)
    (hnodup : (declaredNames (m :: ms)).Nodup) (options : Options) :
    loadContext documents options
      = .ok ((Context.empty m.space options).registerNodes ((m :: ms).flatMap Mapper.nodes)) := by
  rw [loadContext_of_loadMappers (loadMappers_eq_ok_iff.2 hload)]
  exact registerMappers_of_nodup hnodup

/-- Documents with a repeated name are not loaded, and the first such name is reported. -/
theorem loadContext_of_firstRepeated
    (hload : documents.map Mapper.ofDocument = (m :: ms).map .ok) {name : String}
    (h : FirstRepeated (declaredNames (m :: ms)) name) (options : Options) :
    loadContext documents options = .error (.duplicateFragment name) := by
  rw [loadContext_of_loadMappers (loadMappers_eq_ok_iff.2 hload)]
  exact registerMappers_of_firstRepeated h

end

end Command

/-! ## Ids without a period -/

/-- Where two texts are joined by a mark that the second one does not have, they can be told
apart: the mark stands there for the last time. -/
theorem append_cons_inj {α : Type _} {mark : α} {before before' after after' : List α}
    (hafter : mark ∉ after) (hafter' : mark ∉ after') :
    before ++ mark :: after = before' ++ mark :: after' ↔ before = before' ∧ after = after' := by
  refine ⟨fun heq => ?_, fun ⟨hbefore, hrest⟩ => by rw [hbefore, hrest]⟩
  rcases List.append_eq_append_iff.1 heq with ⟨mid, rfl, hmid⟩ | ⟨mid, rfl, hmid⟩
  · cases mid with
    | nil => exact ⟨by simp, (List.cons.inj hmid).2⟩
    | cons c mid => exact absurd (by simp [(List.cons.inj hmid).2]) hafter
  · cases mid with
    | nil => exact ⟨by simp, (List.cons.inj hmid).2.symm⟩
    | cons c mid => exact absurd (by simp [(List.cons.inj hmid).2]) hafter'

/-- The qualified names of ids without a period are equal only if namespaces and ids are, whatever
periods the namespaces have. -/
theorem qualify_eq_qualify_iff {space space' id id' : String} (hid : '.' ∉ id.toList)
    (hid' : '.' ∉ id'.toList) :
    qualify space id = qualify space' id' ↔ space = space' ∧ id = id' := by
  rw [qualify_of_not_mem hid, qualify_of_not_mem hid', ← String.toList_inj, ← String.toList_inj,
    ← String.toList_inj, ← append_cons_inj hid hid']
  simp

namespace Mapper

/-- No id of a mapper has a period. -/
def PlainIds (m : Mapper) : Prop := ∀ id ∈ m.fragments.keys, '.' ∉ id.toList

instance (m : Mapper) : Decidable m.PlainIds :=
  inferInstanceAs (Decidable (∀ id ∈ m.fragments.keys, '.' ∉ id.toList))

end Mapper

/-- Statements with plain ids have names of their own if the mappers have namespaces of their
own. -/
theorem Command.declaredNames_nodup {ms : List Mapper} (hplain : ∀ m ∈ ms, m.PlainIds)
    (hspaces : (ms.map (·.space)).Nodup) : (declaredNames ms).Nodup := by
  rw [declaredNames, List.nodup_flatMap]
  constructor
  · intro m hm
    refine m.fragments.keys_nodup.map_on fun id hid id' hid' heq => ?_
    exact ((qualify_eq_qualify_iff (hplain m hm id hid) (hplain m hm id' hid')).1 heq).2
  · refine (List.pairwise_map.1 hspaces).imp_of_mem fun {m m'} hm hm' hne => ?_
    rw [Function.onFun, List.disjoint_left]
    intro name hname hname'
    obtain ⟨id, hid, rfl⟩ := List.mem_map.1 hname
    obtain ⟨id', hid', heq⟩ := List.mem_map.1 hname'
    exact hne ((qualify_eq_qualify_iff (hplain m' hm' id' hid') (hplain m hm id hid)).1 heq).1.symm

/-! ## Documents put together -/

namespace Command

/-- What comes of loading documents, given the mappers that they declare. -/
structure DisjointUnion (documents : List String) (options : Options) (ms : List Mapper) :
    Prop where
  /-- They are loaded just if all statements have names of their own. -/
  isOk_iff : (∃ ctx, loadContext documents options = .ok ctx) ↔ (declaredNames ms).Nodup
  /-- Then each name stands for its own statement, and nothing else is registered. -/
  get?_iff : ∀ ctx, loadContext documents options = .ok ctx → ∀ name definition,
    ctx.registry.get? name = some definition ↔ ∃ m ∈ ms, ∃ id fragment,
      m.fragment? id = some fragment ∧ qualify m.space id = name ∧
        definition = .node fragment.toNode
  /-- Checking lists just these names, in increasing order. -/
  check_eq : ∀ ctx, loadContext documents options = .ok ctx → ∃ names,
    check documents = .ok names ∧ names.Pairwise (· < ·) ∧ names.Perm (declaredNames ms)
  /-- Otherwise the first name is reported that is taken when its turn comes. -/
  duplicate : ¬ (declaredNames ms).Nodup → ∃ name, FirstRepeated (declaredNames ms) name ∧
    loadContext documents options = .error (.duplicateFragment name)
  /-- Ids without a period have the same qualified name only if they are the same id in the same
  namespace. -/
  qualify_eq_iff : (∀ m ∈ ms, m.PlainIds) → ∀ m ∈ ms, ∀ m' ∈ ms,
    ∀ id ∈ m.fragments.keys, ∀ id' ∈ m'.fragments.keys,
      qualify m.space id = qualify m'.space id' ↔ m.space = m'.space ∧ id = id'
  /-- So mappers with such ids and with namespaces of their own are loaded. -/
  isOk_of_plainIds : (∀ m ∈ ms, m.PlainIds) → (ms.map (·.space)).Nodup →
    ∃ ctx, loadContext documents options = .ok ctx

/-- The names of all mappers' nodes are those that the mappers declare. -/
theorem map_fst_flatMap_nodes (ms : List Mapper) :
    (ms.flatMap Mapper.nodes).map Prod.fst = declaredNames ms := by
  simp only [declaredNames, List.map_flatMap, Mapper.map_fst_nodes]

section

variable {documents : List String} {m : Mapper} {ms : List Mapper} {options : Options}
  {ctx : Context}

/-- Loaded documents have statements with names of their own. -/
theorem nodup_of_loadContext (hload : documents.map Mapper.ofDocument = (m :: ms).map .ok)
    (h : loadContext documents options = .ok ctx) : (declaredNames (m :: ms)).Nodup := by
  by_contra hnodup
  obtain ⟨name, hname⟩ := exists_firstRepeated hnodup
  cases (loadContext_of_firstRepeated hload hname options).symm.trans h

/-- The context of loaded documents is the empty one of the first namespace with all statements
registered. -/
theorem eq_of_loadContext (hload : documents.map Mapper.ofDocument = (m :: ms).map .ok)
    (h : loadContext documents options = .ok ctx) :
    ctx = (Context.empty m.space options).registerNodes ((m :: ms).flatMap Mapper.nodes) :=
  Except.ok.inj (h.symm.trans (loadContext_of_nodup hload (nodup_of_loadContext hload h) options))

/-- But for the registry it is an empty context of the first namespace. -/
theorem eq_empty_of_loadContext (hload : documents.map Mapper.ofDocument = (m :: ms).map .ok)
    (h : loadContext documents options = .ok ctx) :
    ctx = { Context.empty m.space options with registry := ctx.registry } := by
  rw [eq_of_loadContext hload h, Context.registerNodes_eq]

/-- Loaded documents have the namespace of the first of them. -/
theorem space_of_loadContext (hload : documents.map Mapper.ofDocument = (m :: ms).map .ok)
    (h : loadContext documents options = .ok ctx) : ctx.space = m.space := by
  rw [eq_empty_of_loadContext hload h]
  rfl

/-- It holds all statements, as nodes. -/
theorem holds_of_loadContext (hload : documents.map Mapper.ofDocument = (m :: ms).map .ok)
    (h : loadContext documents options = .ok ctx) :
    ctx.Holds (Dict.ofList ((m :: ms).flatMap Mapper.nodes)) := by
  rw [eq_of_loadContext hload h]
  exact Context.holds_registerNodes rfl _

/-- What is registered under a name is a statement that some mapper declares under it. -/
theorem get?_of_loadContext (hload : documents.map Mapper.ofDocument = (m :: ms).map .ok)
    (h : loadContext documents options = .ok ctx) {name : String} {definition : Definition} :
    ctx.registry.get? name = some definition ↔ ∃ other ∈ m :: ms, ∃ id fragment,
      other.fragment? id = some fragment ∧ qualify other.space id = name ∧
        definition = .node fragment.toNode := by
  have hnodup := nodup_of_loadContext hload h
  rw [← map_fst_flatMap_nodes] at hnodup
  rw [eq_of_loadContext hload h, Context.get?_registerNodes_iff rfl hnodup]
  simp only [List.mem_flatMap, Mapper.mem_nodes_iff]
  constructor
  · rintro ⟨_, ⟨other, hother, id, fragment, hget, hname, rfl⟩, rfl⟩
    exact ⟨other, hother, id, fragment, hget, hname, rfl⟩
  · rintro ⟨other, hother, id, fragment, hget, hname, rfl⟩
    exact ⟨_, ⟨other, hother, id, fragment, hget, hname, rfl⟩, rfl⟩

/-- Checking loaded documents lists the names of all their statements, in increasing order. -/
theorem check_of_loadContext (hload : documents.map Mapper.ofDocument = (m :: ms).map .ok)
    (h : loadContext documents options = .ok ctx) : ∃ names,
    check documents = .ok names ∧ names.Pairwise (· < ·) ∧
      names.Perm (declaredNames (m :: ms)) := by
  have hnodup := nodup_of_loadContext hload h
  have hcheck := loadContext_of_nodup hload hnodup {}
  rw [← map_fst_flatMap_nodes] at hnodup ⊢
  exact ⟨_, check_of_loadContext_eq_ok hcheck, Dict.keys_sorted _,
    Context.keys_registerNodes_perm hnodup⟩

end

end Command

/-- **Loading documents is a disjoint union.** Documents that can all be read, at least one of them,
are loaded just if their statements have qualified names of their own. Then each name stands for its
own statement and nothing else is registered, and checking lists the names in increasing order.
Otherwise the first name is reported that is taken when its turn comes, in the order of the
documents and in each of them of the ids. Ids without a period are told apart by their qualified
names even where one namespace begins with another, so with namespaces of their own such mappers
are always loaded. If a document cannot be read then the first such document is reported, whatever
else is wrong. -/
theorem loadContext_disjointUnion (documents : List String) (options : Options) :
    (∀ ms, documents ≠ [] → documents.map Mapper.ofDocument = ms.map .ok →
      Command.DisjointUnion documents options ms) ∧
    ∀ before document after e, documents = before ++ document :: after →
      (∀ earlier ∈ before, ∃ m, Mapper.ofDocument earlier = .ok m) →
      Mapper.ofDocument document = .error e →
        Command.loadContext documents options = .error (.mapper e) := by
  refine ⟨fun ms hne hload => ?_, fun before document after e heq hbefore hdocument => ?_⟩
  · cases ms with
    | nil => exact absurd (List.map_eq_nil_iff.1 hload) hne
    | cons m ms =>
      have hok : (Command.declaredNames (m :: ms)).Nodup →
          ∃ ctx, Command.loadContext documents options = .ok ctx := fun hnodup =>
        ⟨_, Command.loadContext_of_nodup hload hnodup options⟩
      constructor
      · exact ⟨fun ⟨_, h⟩ => Command.nodup_of_loadContext hload h, hok⟩
      · exact fun ctx h name definition => Command.get?_of_loadContext hload h
      · exact fun ctx h => Command.check_of_loadContext hload h
      · intro hnodup
        obtain ⟨name, hname⟩ := exists_firstRepeated hnodup
        exact ⟨name, hname, Command.loadContext_of_firstRepeated hload hname options⟩
      · exact fun hplain first hfirst other hother id hid id' hid' =>
          qualify_eq_qualify_iff (hplain first hfirst id hid) (hplain other hother id' hid')
      · exact fun hplain hspaces => hok (Command.declaredNames_nodup hplain hspaces)
  · rw [heq, Command.loadContext, Command.loadMappers_of_error hbefore hdocument]

/-- Two documents, the namespace of the second beginning with that of the first. -/
def nestedDocuments : List String := [
  "<mapper namespace=\"a\"><sql id=\"b\">x</sql><sql id=\"c\">y</sql></mapper>",
  "<mapper namespace=\"a.b\"><sql id=\"c\">z</sql></mapper>"]

/-- The sample's namespaces keep its statements apart, and a document without a mapper in front of a
faulty one is what is reported. -/
theorem loadContext_disjointUnion_nestedDocuments :
    nestedDocuments ≠ [] ∧ ∃ ms, nestedDocuments.map Mapper.ofDocument = ms.map .ok ∧
      (∀ m ∈ ms, m.PlainIds) ∧ (ms.map (·.space)).Nodup ∧
      (∃ ctx, Command.loadContext nestedDocuments {} = .ok ctx) ∧
      (∃ names, Command.check nestedDocuments = .ok names ∧
        names.Perm (Command.declaredNames ms)) ∧
      Mapper.ofDocument "<table/>" = .error .missingMapper ∧
      Command.loadContext (nestedDocuments ++ ["<table/>", ambiguousDocument]) {}
        = .error (.mapper .missingMapper) := by
  have hread : (Command.loadMappers nestedDocuments).map (fun ms =>
      decide ((∀ m ∈ ms, m.PlainIds) ∧ (ms.map (·.space)).Nodup)) = .ok true := by
    decide +kernel
  have htable : Mapper.ofDocument "<table/>" = .error .missingMapper := by cbv
  obtain ⟨ms, hload, hdecided⟩ := map_eq_ok.1 hread
  obtain ⟨hplain, hspaces⟩ := of_decide_eq_true hdecided
  have hdocuments := Command.loadMappers_eq_ok_iff.1 hload
  have hunion := (loadContext_disjointUnion nestedDocuments {}).1 ms
    (by simp [nestedDocuments]) hdocuments
  obtain ⟨ctx, hctx⟩ := hunion.isOk_of_plainIds hplain hspaces
  obtain ⟨names, hnames, -, hperm⟩ := hunion.check_eq ctx hctx
  refine ⟨by simp [nestedDocuments], ms, hdocuments, hplain, hspaces, ⟨ctx, hctx⟩,
    ⟨names, hnames, hperm⟩, htable, ?_⟩
  refine (loadContext_disjointUnion _ {}).2 nestedDocuments "<table/>" _ _ rfl ?_ htable
  intro earlier hearlier
  have hmem := List.mem_map_of_mem (f := Mapper.ofDocument) hearlier
  rw [hdocuments] at hmem
  obtain ⟨m, -, hm⟩ := List.mem_map.1 hmem
  exact ⟨m, hm.symm⟩

/-- The statements of the first document are all put in before the second is looked at, and of those
in it the first one in the order of the ids is reported. -/
example : Command.check [
      "<mapper namespace=\"a\"><sql id=\"d\">x</sql><sql id=\"c\">y</sql></mapper>",
      "<mapper namespace=\"b\"><sql id=\"a.d\">x</sql><sql id=\"a.c\">y</sql></mapper>"]
    = .error (.duplicateFragment "a.c") := by
  decide +kernel

end SqlFragments
