/-! # Dictionaries keyed by text

A finite map from names to values, kept as a list in strictly increasing key order. The order is
that of code points, so listing a dictionary needs no further sorting, and a dictionary is
determined by its look-ups (`Dict.ext_get?`).

* `Dict.get?_insert`, `Dict.get?_erase` read the two updates back through `Dict.get?`;
* `Dict.mem_keys_iff` says which names are listed;
* `Dict.keys_nodup` and `Dict.keys_sorted` give the order of the listing. -/

namespace SqlFragments

universe u

/-- A finite map from names to values of type `α`. -/
structure Dict (α : Type u) where
  /-- The names with their values. -/
  entries : List (String × α)
  /-- The names are strictly increasing. -/
  sorted : entries.Pairwise (fun a b => a.1 < b.1)

namespace Dict

variable {α : Type u}

/-! ## Sorted lists of entries -/

/-- The value that a list of entries gives to a name. -/
def find (key : String) : List (String × α) → Option α
  | [] => none
  | (k, v) :: rest => if k = key then some v else find key rest

/-- Puts an entry at its place in a sorted list, over an entry of the same name. -/
def put (key : String) (value : α) : List (String × α) → List (String × α)
  | [] => [(key, value)]
  | (k, v) :: rest =>
    if key < k then (key, value) :: (k, v) :: rest
    else if key = k then (key, value) :: rest
    else (k, v) :: put key value rest

/-- Takes a name out of a list of entries. -/
def drop (key : String) (entries : List (String × α)) : List (String × α) :=
  entries.filter (fun e => e.1 ≠ key)

/-- Nothing gets into a list but the entry that is put there. -/
theorem eq_or_mem_of_mem_put {key : String} {value : α} {e : String × α}
    {l : List (String × α)} (h : e ∈ put key value l) : e = (key, value) ∨ e ∈ l := by
  induction l with
  | nil => simpa [put] using h
  | cons hd tl ih =>
    obtain ⟨k, v⟩ := hd
    simp only [put] at h
    split at h
    · simpa using h
    · split at h
      · simp only [List.mem_cons] at h ⊢
        exact h.imp id Or.inr
      · simp only [List.mem_cons] at h ⊢
        rcases h with h | h
        · exact Or.inr (Or.inl h)
        · exact (ih h).imp id Or.inr

/-- Putting an entry at its place keeps the names increasing. -/
theorem pairwise_put (key : String) (value : α) {l : List (String × α)}
    (h : l.Pairwise (fun a b => a.1 < b.1)) :
    (put key value l).Pairwise (fun a b => a.1 < b.1) := by
  induction l with
  | nil => simp [put]
  | cons hd tl ih =>
    obtain ⟨k, v⟩ := hd
    have hk := List.pairwise_cons.1 h
    simp only [put]
    split
    · rename_i hlt
      refine List.pairwise_cons.2 ⟨fun e he => ?_, h⟩
      rcases List.mem_cons.1 he with rfl | he
      · exact hlt
      · exact String.lt_trans hlt (hk.1 e he)
    · split
      · rename_i heq
        exact List.pairwise_cons.2 ⟨fun e he => heq ▸ hk.1 e he, hk.2⟩
      · rename_i hlt hne
        refine List.pairwise_cons.2 ⟨fun e he => ?_, ih hk.2⟩
        rcases eq_or_mem_of_mem_put he with rfl | he
        · exact Std.lt_of_le_of_ne (String.not_lt.1 hlt) (Ne.symm hne)
        · exact hk.1 e he

/-- Taking a name out keeps the names increasing. -/
theorem pairwise_drop (key : String) {l : List (String × α)}
    (h : l.Pairwise (fun a b => a.1 < b.1)) :
    (drop key l).Pairwise (fun a b => a.1 < b.1) :=
  h.filter _

/-- A list gives the name that was put into it the new value, and the others what it gave them. -/
theorem find_put (key other : String) (value : α) (l : List (String × α)) :
    find other (put key value l) = if key = other then some value else find other l := by
  induction l with
  | nil => simp [put, find]
  | cons hd tl ih =>
    obtain ⟨k, v⟩ := hd
    simp only [put]
    split
    · simp [find]
    · split
      · rename_i h
        subst h
        by_cases ho : key = other <;> simp [find, ho]
      · rename_i hne
        by_cases hk : k = other
        · subst hk
          simp [find, hne]
        · simp [find, hk, ih]

/-- A list gives no value to a name that was taken out, and the others what it gave them. -/
theorem find_drop (key other : String) (l : List (String × α)) :
    find other (drop key l) = if key = other then none else find other l := by
  induction l with
  | nil => simp [drop, find]
  | cons hd tl ih =>
    obtain ⟨k, v⟩ := hd
    simp only [drop] at ih
    by_cases hk : k = key
    · subst hk
      by_cases ho : k = other
      · simpa [drop, find, ho] using ih
      · simpa [drop, find, ho] using ih
    · by_cases ho : k = other
      · subst ho
        simp [drop, find, hk, Ne.symm hk]
      · simpa [drop, find, hk, ho] using ih

/-- A name has no value just if no entry has it. -/
theorem find_eq_none_iff {key : String} {l : List (String × α)} :
    find key l = none ↔ key ∉ l.map Prod.fst := by
  induction l with
  | nil => simp [find]
  | cons hd tl ih =>
    obtain ⟨k, v⟩ := hd
    by_cases hk : k = key
    · simp [find, hk]
    · simp [find, hk, Ne.symm hk, ih]

/-- In a sorted list the value of a name is that of its only entry. -/
theorem find_eq_some_iff {key : String} {value : α} {l : List (String × α)}
    (h : l.Pairwise (fun a b => a.1 < b.1)) :
    find key l = some value ↔ (key, value) ∈ l := by
  induction l with
  | nil => simp [find]
  | cons hd tl ih =>
    obtain ⟨k, v⟩ := hd
    have hk := List.pairwise_cons.1 h
    by_cases hkey : k = key
    · subst hkey
      simp only [find, if_pos, Option.some.injEq, List.mem_cons, Prod.mk.injEq, true_and]
      constructor
      · exact fun e => Or.inl e.symm
      · rintro (e | e)
        · exact e.symm
        · exact absurd (hk.1 _ e) (String.lt_irrefl k)
    · simp [find, hkey, Ne.symm hkey, ih hk.2]

/-- In a sorted list no entry stands twice. -/
theorem nodup_of_pairwise {l : List (String × α)} (h : l.Pairwise (fun a b => a.1 < b.1)) :
    l.Nodup :=
  h.imp fun {a b} (hlt : a.1 < b.1) (heq : a = b) => String.lt_irrefl b.1 (heq ▸ hlt)

/-- Sorted lists that give every name the same value are equal. -/
theorem eq_of_find_eq {l₁ l₂ : List (String × α)} (h₁ : l₁.Pairwise (fun a b => a.1 < b.1))
    (h₂ : l₂.Pairwise (fun a b => a.1 < b.1)) (h : ∀ key, find key l₁ = find key l₂) :
    l₁ = l₂ := by
  have hmem : ∀ e, e ∈ l₁ ↔ e ∈ l₂ := by
    intro e
    rw [← find_eq_some_iff h₁, ← find_eq_some_iff h₂, h]
  have hperm : l₁.Perm l₂ :=
    (List.perm_ext_iff_of_nodup (nodup_of_pairwise h₁) (nodup_of_pairwise h₂)).2 hmem
  exact hperm.eq_of_pairwise (fun _ _ _ _ hlt hgt => absurd hgt (String.lt_asymm hlt)) h₁ h₂

/-! ## Dictionaries -/

/-- The dictionary without entries. -/
def empty : Dict α := ⟨[], List.Pairwise.nil⟩

instance : Inhabited (Dict α) := ⟨empty⟩

/-- The value of a name, if it has one. -/
def get? (d : Dict α) (key : String) : Option α := find key d.entries

/-- Whether a name has a value. -/
def contains (d : Dict α) (key : String) : Bool := (d.get? key).isSome

/-- Gives a name a value, in place of the one it had. -/
def insert (d : Dict α) (key : String) (value : α) : Dict α :=
  ⟨put key value d.entries, pairwise_put key value d.sorted⟩

/-- Takes the value of a name away. -/
def erase (d : Dict α) (key : String) : Dict α :=
  ⟨drop key d.entries, pairwise_drop key d.sorted⟩

/-- The names with a value, in increasing order. -/
def keys (d : Dict α) : List String := d.entries.map Prod.fst

/-- The values, in the order of their names. -/
def values (d : Dict α) : List α := d.entries.map Prod.snd

/-- How many names have a value. -/
def size (d : Dict α) : Nat := d.entries.length

/-- The entries of a list in any order; of two with one name the later one counts. -/
def ofList (entries : List (String × α)) : Dict α :=
  entries.foldl (fun d e => d.insert e.1 e.2) empty

@[simp] theorem get?_empty (key : String) : (empty : Dict α).get? key = none := rfl

/-- The name that is inserted has the new value, the others have what they had. -/
@[simp] theorem get?_insert (d : Dict α) (key other : String) (value : α) :
    (d.insert key value).get? other = if key = other then some value else d.get? other :=
  find_put key other value d.entries

/-- The name that is erased has no value, the others have what they had. -/
@[simp] theorem get?_erase (d : Dict α) (key other : String) :
    (d.erase key).get? other = if key = other then none else d.get? other :=
  find_drop key other d.entries

/-- The look-ups that succeed are the entries. -/
theorem get?_eq_some_iff {d : Dict α} {key : String} {value : α} :
    d.get? key = some value ↔ (key, value) ∈ d.entries :=
  find_eq_some_iff d.sorted

/-- The look-ups that fail are of names that are not listed. -/
theorem get?_eq_none_iff {d : Dict α} {key : String} : d.get? key = none ↔ key ∉ d.keys :=
  find_eq_none_iff

/-- The names that are listed are those with a value. -/
theorem mem_keys_iff {d : Dict α} {key : String} : key ∈ d.keys ↔ (d.get? key).isSome := by
  rw [Option.isSome_iff_ne_none, ne_eq, get?_eq_none_iff, Decidable.not_not]

/-- **A dictionary is its look-ups.** -/
theorem ext_get? {d e : Dict α} (h : ∀ key, d.get? key = e.get? key) : d = e := by
  obtain ⟨l, hl⟩ := d
  obtain ⟨m, hm⟩ := e
  congr 1
  exact eq_of_find_eq hl hm h

/-- The names are listed in increasing order. -/
theorem keys_sorted (d : Dict α) : d.keys.Pairwise (· < ·) :=
  List.pairwise_map.2 d.sorted

/-- No name is listed twice. -/
theorem keys_nodup (d : Dict α) : d.keys.Nodup :=
  d.keys_sorted.imp fun {a b} (h : a < b) (e : a = b) => String.lt_irrefl b (e ▸ h)

end Dict

end SqlFragments
