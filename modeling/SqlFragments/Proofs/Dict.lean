import Mathlib.Data.List.Nodup
import Mathlib.Data.List.Perm.Subperm
import SqlFragments.Dict

/-! # Laws of dictionaries

What is put into a dictionary can be taken back (`Dict.insert_insert_get?`,
`Dict.erase_insert_of_get?_eq_none`), its size bounds how many different names of it there are
(`Dict.length_le_size`), and its entries make it up in any order (`Dict.ofList_of_perm`). One
dictionary may have everything that another has (`Dict.Within`). -/

namespace SqlFragments

namespace Dict

universe u

variable {α : Type u}

/-! ## Undoing an update -/

/-- Giving a name the value back that it had undoes an update. -/
theorem insert_insert_get? {d : Dict α} {key : String} {old : α} (value : α)
    (h : d.get? key = some old) : (d.insert key value).insert key old = d := by
  apply ext_get?
  intro other
  by_cases hother : key = other
  · subst hother
    simp [h]
  · simp [hother]

/-- Taking a new name out again undoes its insertion. -/
theorem erase_insert_of_get?_eq_none {d : Dict α} {key : String} (value : α)
    (h : d.get? key = none) : (d.insert key value).erase key = d := by
  apply ext_get?
  intro other
  by_cases hother : key = other
  · subst hother
    simp [h]
  · simp [hother]

/-- Updates of two names can be made in either order. -/
theorem insert_comm (d : Dict α) {key other : String} (hne : key ≠ other) {value more : α} :
    (d.insert key value).insert other more = (d.insert other more).insert key value := by
  apply ext_get?
  intro name
  by_cases hname : key = name
  · subst hname
    simp [Ne.symm hne]
  · simp [hname]

/-! ## Size -/

/-- There are no more different names of a dictionary than it has entries. -/
theorem length_le_size {d : Dict α} {names : List String} (hnodup : names.Nodup)
    (h : ∀ name ∈ names, name ∈ d.keys) : names.length ≤ d.size := by
  have hlength := (List.subperm_of_subset hnodup h).length_le
  rwa [keys, List.length_map] at hlength

/-- A dictionary is no larger than one that has all of its names. -/
theorem size_le_of_keys_subset {d more : Dict α} (h : d.keys ⊆ more.keys) : d.size ≤ more.size := by
  have hsize : d.keys.length = d.size := List.length_map _
  rw [← hsize]
  exact length_le_size d.keys_nodup h

/-- Inserting a name makes no dictionary smaller. -/
theorem size_le_size_insert (d : Dict α) (key : String) (value : α) :
    d.size ≤ (d.insert key value).size := by
  refine size_le_of_keys_subset fun other hother => ?_
  rw [mem_keys_iff] at hother ⊢
  rw [get?_insert]
  split
  · rfl
  · exact hother

/-! ## Dictionaries within others -/

/-- Every name of the first dictionary has the same value in the second. -/
def Within (d more : Dict α) : Prop :=
  ∀ key value, d.get? key = some value → more.get? key = some value

/-- A dictionary has everything that it has. -/
theorem Within.refl (d : Dict α) : d.Within d := fun _ _ h => h

/-- What one dictionary has over two steps, it has over one. -/
theorem Within.trans {a b c : Dict α} (h : a.Within b) (h' : b.Within c) : a.Within c :=
  fun key value hvalue => h' key value (h key value hvalue)

/-- A new name leaves the others as they are. -/
theorem within_insert {d : Dict α} {key : String} (value : α) (hnew : d.get? key = none) :
    d.Within (d.insert key value) := by
  intro other found hfound
  rw [get?_insert, if_neg]
  · exact hfound
  · rintro rfl
    cases hnew.symm.trans hfound

/-- Two dictionaries one of which is within the other stay so when one entry is inserted into both.
-/
theorem Within.insert {d more : Dict α} (h : d.Within more) (key : String) (value : α) :
    (d.insert key value).Within (more.insert key value) := by
  intro other found hfound
  rw [get?_insert] at hfound ⊢
  split
  · rwa [if_pos ‹_›] at hfound
  · rw [if_neg ‹_›] at hfound
    exact h other found hfound

/-- A dictionary is no larger than one that it is within. -/
theorem Within.size_le {d more : Dict α} (h : d.Within more) : d.size ≤ more.size := by
  refine size_le_of_keys_subset fun key hkey => ?_
  obtain ⟨value, hvalue⟩ := Option.isSome_iff_exists.1 (mem_keys_iff.1 hkey)
  exact mem_keys_iff.2 (Option.isSome_iff_exists.2 ⟨value, h key value hvalue⟩)

/-! ## Entries in any order -/

/-- What is put in under names of their own is found again. -/
theorem get?_foldl_insert {l : List (String × α)} (hnodup : (l.map Prod.fst).Nodup) (d : Dict α)
    (key : String) (value : α) :
    (l.foldl (fun d e => d.insert e.1 e.2) d).get? key = some value
      ↔ (key, value) ∈ l ∨ key ∉ l.map Prod.fst ∧ d.get? key = some value := by
  induction l generalizing d with
  | nil => simp
  | cons e l ih =>
    rw [List.map_cons, List.nodup_cons] at hnodup
    rw [List.foldl_cons, ih hnodup.2, get?_insert]
    obtain ⟨other, a⟩ := e
    -- the two entries of one name would be one entry too many
    by_cases hkey : other = key
    · subst hkey
      have hold : (other, value) ∉ l := fun hmem =>
        hnodup.1 (List.mem_map.2 ⟨(other, value), hmem, rfl⟩)
      simp [hold, hnodup.1, eq_comm]
    · simp [hkey, Ne.symm hkey]

/-- A dictionary of entries with names of their own. -/
theorem get?_ofList {l : List (String × α)} (hnodup : (l.map Prod.fst).Nodup) {key : String}
    {value : α} : (ofList l).get? key = some value ↔ (key, value) ∈ l := by
  rw [ofList, get?_foldl_insert hnodup]
  simp

/-- The entries of a dictionary make it up in any order. -/
theorem ofList_of_perm {l : List (String × α)} {d : Dict α} (h : l.Perm d.entries) :
    ofList l = d := by
  have hnodup : (l.map Prod.fst).Nodup := (h.map Prod.fst).nodup_iff.2 d.keys_nodup
  apply ext_get?
  intro key
  apply Option.ext
  intro value
  rw [get?_ofList hnodup, h.mem_iff, get?_eq_some_iff]

/-- Where each value knows its name, the values make up the entries. -/
theorem map_values_eq_entries {name : α → String} {d : Dict α}
    (h : ∀ e ∈ d.entries, name e.2 = e.1) :
    d.values.map (fun a => (name a, a)) = d.entries := by
  rw [values, List.map_map]
  conv_rhs => rw [← List.map_id d.entries]
  apply List.map_congr_left
  intro e he
  rw [Function.comp_apply, h e he]
  rfl

/-- So do its values, where each knows its name. -/
theorem ofList_of_perm_values {name : α → String} {d : Dict α}
    (hkeys : ∀ e ∈ d.entries, name e.2 = e.1) {l : List α} (h : l.Perm d.values) :
    (l.map name).Nodup ∧ ofList (l.map fun a => (name a, a)) = d := by
  have hentries : (l.map fun a => (name a, a)).Perm d.entries := by
    rw [← map_values_eq_entries hkeys]
    exact h.map _
  have hnodup := (hentries.map Prod.fst).nodup_iff.2 d.keys_nodup
  rw [List.map_map] at hnodup
  exact ⟨hnodup, ofList_of_perm hentries⟩

end Dict

end SqlFragments
