set_option autoImplicit false

/-!
# Tables and sets of names

Tables keyed by names. The names are kept in ascending order of code points, each once, so the
order in which a table was filled does not show.

## Main definitions

* `Stencil.NameMap` — a table from names to values.
* `Stencil.NameMap.insert`, `find?`, `contains`, `keys` — its operations.
* `Stencil.NameSet` — a table without values; `NameSet.toList` gives its members in order.

## Main results

* `Stencil.NameMap.find?_insert` — an insertion changes the value of its key and of no other.
* `Stencil.NameMap.find?_ofList_of_last` — the last entry of a key counts.
* `Stencil.NameSet.mem_insert` — the members after an insertion.
* `Stencil.NameSet.mem_ofList` — the members of a set made from a list.
-/

namespace Stencil

/-- **A table from names to values.** -/
structure NameMap (α : Type) where
  entries : List (String × α)
  ascending : (entries.map Prod.fst).Pairwise (· < ·)

namespace NameMap

variable {α : Type}

/-! ## Operations -/

/-- The table without entries. -/
def empty : NameMap α := ⟨[], List.Pairwise.nil⟩

/-- The entries with a key put in its place; an old value of the key is dropped. -/
def insertEntry (key : String) (value : α) : List (String × α) → List (String × α)
  | [] => [(key, value)]
  | (k, v) :: rest =>
    if key < k then (key, value) :: (k, v) :: rest
    else if key = k then (key, value) :: rest
    else (k, v) :: insertEntry key value rest

theorem mem_keys_insertEntry {key : String} {value : α} {entries : List (String × α)}
    {k : String} :
    k ∈ (insertEntry key value entries).map Prod.fst ↔ k = key ∨ k ∈ entries.map Prod.fst := by
  induction entries with
  | nil => simp [insertEntry]
  | cons e rest ih =>
    obtain ⟨k', v⟩ := e
    unfold insertEntry
    split
    · simp
    · split
      · rename_i h
        subst h
        simp
      · rw [List.map_cons, List.mem_cons, ih, List.map_cons, List.mem_cons]
        grind

theorem ascending_insertEntry {key : String} {value : α} {entries : List (String × α)}
    (h : (entries.map Prod.fst).Pairwise (· < ·)) :
    ((insertEntry key value entries).map Prod.fst).Pairwise (· < ·) := by
  induction entries with
  | nil => simp [insertEntry]
  | cons e rest ih =>
    obtain ⟨k, v⟩ := e
    rw [List.map_cons, List.pairwise_cons] at h
    unfold insertEntry
    split
    · rename_i hlt
      simp only [List.map_cons, List.pairwise_cons, List.mem_cons]
      refine ⟨?_, h.1, h.2⟩
      rintro k' (rfl | hk)
      · exact hlt
      · exact String.lt_trans hlt (h.1 k' hk)
    · split
      · rename_i heq
        subst heq
        simpa only [List.map_cons, List.pairwise_cons] using h
      · rename_i hlt hne
        simp only [List.map_cons, List.pairwise_cons]
        refine ⟨?_, ih h.2⟩
        intro k' hk
        rcases mem_keys_insertEntry.mp hk with rfl | hk
        · exact Std.lt_of_le_of_ne (String.not_lt.mp hlt) (Ne.symm hne)
        · exact h.1 k' hk

/-- The table with `value` for `key`. -/
def insert (m : NameMap α) (key : String) (value : α) : NameMap α :=
  ⟨insertEntry key value m.entries, ascending_insertEntry m.ascending⟩

/-- The value of a key. -/
def find? (m : NameMap α) (key : String) : Option α := m.entries.lookup key

/-- Whether a key has a value. -/
def contains (m : NameMap α) (key : String) : Bool := (m.find? key).isSome

/-- The keys, ascending. -/
def keys (m : NameMap α) : List String := m.entries.map Prod.fst

/-- The number of keys. -/
def size (m : NameMap α) : Nat := m.entries.length

/-- Whether a table has no keys. -/
def isEmpty (m : NameMap α) : Bool := m.entries.isEmpty

/-- The table of a list of entries; the last value of a key counts. -/
def ofList (entries : List (String × α)) : NameMap α :=
  entries.foldl (fun m (k, v) => m.insert k v) empty

/-! ## Lookup after insertion -/

/-- An insertion changes the value of its key and of no other. -/
theorem find?_insert (m : NameMap α) (key k : String) (value : α) :
    (m.insert key value).find? k = if k = key then some value else m.find? k := by
  obtain ⟨entries, h⟩ := m
  simp only [insert, find?]
  clear h
  induction entries with
  | nil => grind [insertEntry]
  | cons e rest ih =>
    obtain ⟨k', v⟩ := e
    unfold insertEntry
    split
    · grind
    · split
      · grind
      · rw [List.lookup_cons, List.lookup_cons, ih]
        grind

/-- Insertions of other keys change nothing on a key. -/
theorem find?_foldl_insert_of_forall_ne (m : NameMap α) {entries : List (String × α)} {k : String}
    (h : ∀ e ∈ entries, e.1 ≠ k) :
    (entries.foldl (fun m e => m.insert e.1 e.2) m).find? k = m.find? k := by
  induction entries generalizing m with
  | nil => rfl
  | cons e entries ih =>
    rw [List.forall_mem_cons] at h
    rw [List.foldl_cons, ih _ h.2, find?_insert, if_neg (Ne.symm h.1)]

/-- A key that no entry has is not in a table made of entries. -/
theorem find?_ofList_of_forall_ne {entries : List (String × α)} {k : String}
    (h : ∀ e ∈ entries, e.1 ≠ k) : (ofList entries).find? k = none :=
  find?_foldl_insert_of_forall_ne empty h

/-- **The last entry of a key counts.** -/
theorem find?_ofList_of_last (before : List (String × α)) {after : List (String × α)} {k : String}
    (value : α) (h : ∀ e ∈ after, e.1 ≠ k) :
    (ofList (before ++ (k, value) :: after)).find? k = some value := by
  rw [ofList, List.foldl_append, List.foldl_cons]
  exact (find?_foldl_insert_of_forall_ne _ h).trans (by rw [find?_insert, if_pos rfl])

/-- The keys after an insertion. -/
theorem mem_keys_insert {m : NameMap α} {key k : String} {value : α} :
    k ∈ (m.insert key value).keys ↔ k = key ∨ k ∈ m.keys := mem_keys_insertEntry

/-- The keys are the names that have a value. -/
theorem mem_keys_iff (m : NameMap α) (key : String) : key ∈ m.keys ↔ (m.find? key).isSome := by
  rw [find?, ← Option.ne_none_iff_isSome, ne_eq, List.lookup_eq_none_iff, keys, List.mem_map]
  grind

end NameMap

/-! ## Sets -/

/-- **A set of names.** -/
abbrev NameSet := NameMap Unit

namespace NameSet

/-- The set with one more name. -/
def insert (s : NameSet) (name : String) : NameSet := NameMap.insert s name ()

/-- The members, ascending. -/
def toList (s : NameSet) : List String := s.keys

/-- The set of the members of a list. -/
def ofList (names : List String) : NameSet := names.foldl insert NameMap.empty

/-- The members after an insertion. -/
theorem mem_insert {s : NameSet} {name n : String} :
    n ∈ (s.insert name).toList ↔ n = name ∨ n ∈ s.toList := NameMap.mem_keys_insert

/-- The members of a set to which a list was added. -/
theorem mem_foldl_insert {names : List String} {s : NameSet} {n : String} :
    n ∈ (names.foldl insert s).toList ↔ n ∈ names ∨ n ∈ s.toList := by
  induction names generalizing s with
  | nil => simp
  | cons a names ih =>
    rw [List.foldl_cons, ih, mem_insert, List.mem_cons]
    grind

/-- The members of a set made from a list. -/
theorem mem_ofList {names : List String} {n : String} :
    n ∈ (ofList names).toList ↔ n ∈ names := by
  rw [ofList, mem_foldl_insert]
  simp [toList, NameMap.keys, NameMap.empty]

end NameSet

end Stencil
