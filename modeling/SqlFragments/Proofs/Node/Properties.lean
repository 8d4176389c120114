import Mathlib.Data.List.Perm.Basic
import SqlFragments.Node.Build
import SqlFragments.Proofs.Dict

/-! # The bindings of an include as it is built

An include takes up the properties among its children one after the other. However it is built, each
of its bindings is there under its own name, and properties with names of their own lead to the same
include in any order, and whether they are taken up at once or bit by bit.

* `Include.Built`: includes as they are built; `Include.Keyed`: bindings under their own names;
* `Include.Built.keyed`: the one implies the other;
* `Include.addChildren_of_nodup`: of children, the properties count;
* `Include.addChildren_of_perm`, `Include.addBatches_eq`: neither their order nor their division
  does. -/

namespace SqlFragments

/-! ## Bindings under their own names -/

/-- Includes as they are built: attributes and children are taken up any number of times. What is
done before a failure stays. -/
inductive Include.Built : Include → Prop where
  | empty (space : String) : Built (.empty space)
  | scan {inc : Include} (attrs : List Attribute) (hinc : inc.Built) : Built (inc.scan attrs).2
  | addChildren {inc : Include} (nodes : List Node) (hinc : inc.Built) :
    Built (inc.addChildren nodes).2

/-- Every binding of an include is there under its own name. -/
def Include.Keyed (inc : Include) : Prop := ∀ e ∈ inc.properties.entries, e.2.name = e.1

instance (inc : Include) : Decidable inc.Keyed :=
  inferInstanceAs (Decidable (∀ e ∈ inc.properties.entries, e.2.name = e.1))

namespace Include

/-- Every binding is under its own name just if every look-up gives a property of the name that was
looked up. -/
theorem keyed_iff {inc : Include} :
    inc.Keyed ↔ ∀ key p, inc.properties.get? key = some p → p.name = key := by
  constructor
  · intro h key p hp
    exact h (key, p) (Dict.get?_eq_some_iff.1 hp)
  · intro h e he
    exact h e.1 e.2 (Dict.get?_eq_some_iff.2 he)

/-- Reading attributes makes no binding. -/
theorem properties_scan (inc : Include) (attrs : List Attribute) :
    (inc.scan attrs).2.properties = inc.properties := by
  induction attrs generalizing inc with
  | nil => rfl
  | cons attr attrs ih =>
    rw [scan]
    by_cases hname : attr.name = "refid"
    · rw [if_pos hname]
      cases Reference.ofText attr.value with
      | error e => rfl
      | ok reference => exact ih (inc.adopt reference)
    · rw [if_neg hname]
      exact ih inc

/-- A new binding is under its own name. -/
theorem Keyed.addProperty {inc : Include} (h : inc.Keyed) (p : Property) :
    (inc.addProperty p).Keyed := by
  rw [keyed_iff] at h ⊢
  intro key q hq
  rw [Include.addProperty, Dict.get?_insert] at hq
  by_cases hkey : p.name = key
  · rw [if_pos hkey] at hq
    obtain rfl := Option.some.inj hq
    exact hkey
  · rw [if_neg hkey] at hq
    exact h key q hq

/-- Taking up children keeps every binding under its own name. -/
theorem Keyed.addChildren {inc : Include} (h : inc.Keyed) (nodes : List Node) :
    (inc.addChildren nodes).2.Keyed := by
  fun_induction Include.addChildren inc nodes with
  -- the loop ends, at a name that is taken or behind the last child, or it goes on behind a
  -- property or another child
  | case1 inc => exact h
  | case2 => exact h
  | case3 inc p nodes hnew ih => exact ih (h.addProperty p)
  | case4 inc node nodes hother ih => exact ih h

/-- **Built includes have their bindings under their own names.** -/
theorem Built.keyed {inc : Include} (h : inc.Built) : inc.Keyed := by
  induction h with
  | empty space => exact fun _ he => nomatch he
  | @scan inc attrs _ ih =>
    show ∀ e ∈ (inc.scan attrs).2.properties.entries, e.2.name = e.1
    rw [properties_scan]
    exact ih
  | addChildren nodes _ ih => exact ih.addChildren nodes

/-- So of each name there is one binding. -/
theorem Keyed.eq_of_name_eq {inc : Include} (h : inc.Keyed) {p q : Property}
    (hp : p ∈ inc.properties.values) (hq : q ∈ inc.properties.values) (hname : p.name = q.name) :
    p = q := by
  obtain ⟨⟨key, p⟩, hentry, rfl⟩ := List.mem_map.1 hp
  obtain ⟨⟨other, q⟩, hother, rfl⟩ := List.mem_map.1 hq
  obtain rfl : key = other := (h _ hentry).symm.trans (hname.trans (h _ hother))
  have hget := (Dict.get?_eq_some_iff.2 hentry).symm.trans (Dict.get?_eq_some_iff.2 hother)
  exact Option.some.inj hget

end Include

/-! ## Properties among children -/

/-- The property that a node is, if it is one. -/
def Node.property? : Node → Option Property
  | .property p => some p
  | _ => none

/-- The properties among nodes. -/
def propertiesAmong (nodes : List Node) : List Property := nodes.filterMap Node.property?

/-- A property comes first if its node does. -/
theorem propertiesAmong_cons_property (p : Property) (nodes : List Node) :
    propertiesAmong (.property p :: nodes) = p :: propertiesAmong nodes := rfl

/-- Other nodes do not count. -/
theorem propertiesAmong_cons_other {node : Node} (hother : ∀ p, node ≠ .property p)
    (nodes : List Node) : propertiesAmong (node :: nodes) = propertiesAmong nodes := by
  apply List.filterMap_cons_none
  cases node with
  | property p => exact absurd rfl (hother p)
  | text | «include» | fragment => rfl

/-- Among the nodes of properties are these properties. -/
theorem propertiesAmong_map_property (ps : List Property) :
    propertiesAmong (ps.map .property) = ps := by
  rw [propertiesAmong, List.filterMap_map]
  exact List.filterMap_some

/-- Takes up child nodes in several batches, up to the first failure. -/
def Include.addBatches (inc : Include) : List (List Node) → Except NodeError Unit × Include
  | [] => (.ok (), inc)
  | nodes :: batches =>
    match inc.addChildren nodes with
    | (.error e, inc) => (.error e, inc)
    | (.ok (), inc) => inc.addBatches batches

namespace Include

variable {inc : Include}

/-- Bindings of two names can be made in either order. -/
theorem addProperty_comm (inc : Include) {p q : Property} (hne : p.name ≠ q.name) :
    (inc.addProperty p).addProperty q = (inc.addProperty q).addProperty p := by
  rw [addProperty, addProperty, addProperty, addProperty, Dict.insert_comm _ hne]

/-- Bindings with names of their own can be made in any order. -/
theorem foldl_addProperty_of_perm {ps qs : List Property} (h : ps.Perm qs)
    (hnodup : (ps.map (·.name)).Nodup) (inc : Include) :
    ps.foldl addProperty inc = qs.foldl addProperty inc := by
  apply h.foldl_eq'
  intro p hp q hq inc
  -- two of one name are the same
  by_cases hname : p.name = q.name
  · rw [List.inj_on_of_nodup_map hnodup hp hq hname]
  · exact inc.addProperty_comm hname

/-- Taking up properties inserts them under their names, one after the other. -/
theorem foldl_addProperty_eq (ps : List Property) (inc : Include) :
    ps.foldl addProperty inc = { inc with
      properties := (ps.map fun p => (p.name, p)).foldl (fun d e => d.insert e.1 e.2)
        inc.properties } := by
  induction ps generalizing inc with
  | nil => rfl
  | cons p ps ih => exact ih (inc.addProperty p)

/-- **Of children the properties count.** If their names are different from each other and from those
of the bindings that are there then all of them become bindings. -/
theorem addChildren_of_nodup {nodes : List Node}
    (hnodup : ((propertiesAmong nodes).map (·.name)).Nodup)
    (hnew : ∀ p ∈ propertiesAmong nodes, inc.properties.get? p.name = none) :
    inc.addChildren nodes = (.ok (), (propertiesAmong nodes).foldl addProperty inc) := by
  fun_induction Include.addChildren inc nodes with
  | case1 inc => rfl
  | case2 inc p nodes hthere =>
    -- no binding of this name is there
    rw [Dict.contains, hnew p List.mem_cons_self] at hthere
    cases hthere
  | case3 inc p nodes _ ih =>
    rw [propertiesAmong_cons_property, List.map_cons, List.nodup_cons] at hnodup
    -- the new binding has none of the names that are still to come
    refine ih hnodup.2 fun q hq => ?_
    have hne : p.name ≠ q.name := fun heq => hnodup.1 (heq ▸ List.mem_map_of_mem hq)
    rw [addProperty, Dict.get?_insert, if_neg hne]
    exact hnew q (List.mem_cons_of_mem p hq)
  | case4 inc node nodes hother ih =>
    rw [propertiesAmong_cons_other hother] at hnodup hnew ⊢
    exact ih hnodup hnew

/-- The order of children is not felt, if their properties have names of their own. -/
theorem addChildren_of_perm {nodes others : List Node} (h : nodes.Perm others)
    (hnodup : ((propertiesAmong others).map (·.name)).Nodup)
    (hnew : ∀ p ∈ propertiesAmong others, inc.properties.get? p.name = none) :
    inc.addChildren nodes = inc.addChildren others := by
  have hperm : (propertiesAmong nodes).Perm (propertiesAmong others) := h.filterMap _
  have hnodup' : ((propertiesAmong nodes).map (·.name)).Nodup := (hperm.map _).nodup_iff.2 hnodup
  rw [addChildren_of_nodup hnodup hnew,
    addChildren_of_nodup hnodup' fun p hp => hnew p (hperm.subset hp),
    foldl_addProperty_of_perm hperm hnodup']

/-- What comes behind children that can all be taken up is taken up behind them. -/
theorem addChildren_append_of_ok {mid : Include} {nodes : List Node}
    (h : inc.addChildren nodes = (.ok (), mid)) (more : List Node) :
    inc.addChildren (nodes ++ more) = mid.addChildren more := by
  fun_induction Include.addChildren inc nodes with
  | case1 inc => rw [List.nil_append, (Prod.mk.inj h).2]
  | case2 => cases h
  | case3 inc p nodes hnew ih =>
    rw [List.cons_append, addChildren, if_neg hnew]
    exact ih h
  | case4 inc node nodes hother ih =>
    rw [List.cons_append, addChildren]
    · exact ih h
    · exact hother

/-- What comes behind a child that cannot be taken up is not looked at. -/
theorem addChildren_append_of_error {mid : Include} {nodes : List Node} {e : NodeError}
    (h : inc.addChildren nodes = (.error e, mid)) (more : List Node) :
    inc.addChildren (nodes ++ more) = (.error e, mid) := by
  fun_induction Include.addChildren inc nodes with
  | case1 => cases h
  | case2 inc p nodes hthere => rw [List.cons_append, addChildren, if_pos hthere, h]
  | case3 inc p nodes hnew ih =>
    rw [List.cons_append, addChildren, if_neg hnew]
    exact ih h
  | case4 inc node nodes hother ih =>
    rw [List.cons_append, addChildren]
    · exact ih h
    · exact hother

/-- **The division of children is not felt**, be they taken up to the end or up to a failure. -/
theorem addBatches_eq (inc : Include) (batches : List (List Node)) :
    inc.addBatches batches = inc.addChildren batches.flatten := by
  induction batches generalizing inc with
  | nil => rfl
  | cons nodes batches ih =>
    rw [addBatches, List.flatten_cons]
    rcases hfirst : inc.addChildren nodes with ⟨_ | _, mid⟩
    · exact (addChildren_append_of_error hfirst _).symm
    · rw [addChildren_append_of_ok hfirst]
      exact ih mid

end Include

end SqlFragments
