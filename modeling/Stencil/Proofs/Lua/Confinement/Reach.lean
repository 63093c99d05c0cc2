import Stencil.Proofs.Lua.Confinement.Basic
set_option autoImplicit false

/-!
# What a program can come by

From some values a program comes by what is in their tables and in the variables that their
functions see, and so on. All this, together with all that comes into the machine later, is a
region out of which nothing leads.

## Main definitions

* `Stencil.Lua.Machine.Reaches` — what a program can come by.
* `Stencil.Lua.Machine.region` — the region of what it can come by.
* `Stencil.Lua.Machine.Silent` — a machine without functions that ask the host.

## Main results

* `Stencil.Lua.Machine.within_region` — nothing leads out of the region.
* `Stencil.Lua.Machine.Silent.reaches` — nothing that asks the host is come by in a machine without
  such functions.
-/

namespace Stencil.Lua

/-- **What a program can come by** in a machine, from some values: the keys and values of the
tables that it comes by, and what is in the variables that the functions see which it comes by. -/
inductive Machine.Reaches (m : Machine) (roots : Value → Prop) : Value → Prop where
  | root {v : Value} : roots v → Reaches m roots v
  | item {n : Nat} {v : Value} :
      Reaches m roots (.table n) → v ∈ (m.tables.getD n {}).items → Reaches m roots v
  | key {n : Nat} {k v : Value} :
      Reaches m roots (.table n) → (k, v) ∈ (m.tables.getD n {}).entries → Reaches m roots k
  | entry {n : Nat} {k v : Value} :
      Reaches m roots (.table n) → (k, v) ∈ (m.tables.getD n {}).entries → Reaches m roots v
  | cell {n : Nat} {c : Closure} {x : Variable} {v : Value} :
      Reaches m roots (.closure n) → m.closures[n]? = some c → x ∈ c.env →
        m.cells.getD x.cell .nil = v → Reaches m roots v

variable {m : Machine} {roots : Value → Prop} {v : Value}

/-- **The region of what a program can come by,** and of all that comes into the machine later. -/
def Machine.region (m : Machine) (roots : Value → Prop) : Region where
  tables n := m.tables.size ≤ n ∨ m.Reaches roots (.table n)
  cells n := m.cells.size ≤ n ∨
    ∃ k c, m.Reaches roots (.closure k) ∧ m.closures[k]? = some c ∧ ∃ x ∈ c.env, x.cell = n
  closures n := m.closures.size ≤ n ∨ m.Reaches roots (.closure n)
  inclusions n := m.Reaches roots (.inclusion n)

/-- What can be come by is in the region. -/
theorem Machine.Reaches.within (h : m.Reaches roots v) : v.Within (m.region roots) := by
  cases v with
  | table n => exact .inr h
  | closure n => exact .inr h
  | inclusion n => exact h
  | _ => trivial

/-- **Nothing leads out of the region** of what a program can come by. -/
theorem Machine.within_region (m : Machine) {roots : Value → Prop}
    (hstrings : roots (.table m.strings)) : m.Within (m.region roots) where
  tables n hn := by
    rcases hn with hn | hn
    · rw [Array.getD_eq_getD_getElem?, Array.getElem?_eq_none hn]
      exact .empty
    · exact ⟨fun v hv => (hn.item hv).within,
        fun e he => ⟨(hn.key he).within, (hn.entry he).within⟩⟩
  cells n hn := by
    rcases hn with hn | ⟨k, c, hk, hc, x, hx, rfl⟩
    · rw [Array.getD_eq_getD_getElem?, Array.getElem?_eq_none hn]
      trivial
    · exact (hk.cell hc hx rfl).within
  closures n c hn hc := by
    rcases hn with hn | hn
    · rw [Array.getElem?_eq_none hn] at hc
      cases hc
    · exact fun x hx => .inr ⟨n, c, hn, hc, x, hx, rfl⟩
  strings := .inr (.root hstrings)
  newTables _ hn := .inl hn
  newCells _ hn := .inl hn
  newClosures _ hn := .inl hn

/-! ## Machines without functions that ask the host -/

/-- Whether a value is a function that asks the host. -/
def Value.isInclusion : Value → Bool
  | .inclusion _ => true
  | _ => false

/-- **A machine without functions that ask the host** in its tables and variables. -/
def Machine.Silent (m : Machine) : Prop :=
  (∀ t ∈ m.tables, (∀ v ∈ t.items, v.isInclusion = false) ∧
    ∀ e ∈ t.entries, e.1.isInclusion = false ∧ e.2.isInclusion = false) ∧
  ∀ v ∈ m.cells, v.isInclusion = false

instance (m : Machine) : Decidable m.Silent := inferInstanceAs (Decidable (_ ∧ _))

/-- **What is come by in such a machine** does not ask the host either. -/
theorem Machine.Silent.reaches (h : m.Silent) (hroots : ∀ v, roots v → v.isInclusion = false)
    (hv : m.Reaches roots v) : v.isInclusion = false := by
  have htable (n : Nat) : (∀ v ∈ (m.tables.getD n {}).items, v.isInclusion = false) ∧
      ∀ e ∈ (m.tables.getD n {}).entries, e.1.isInclusion = false ∧ e.2.isInclusion = false :=
    getD_of_forall_mem h.1 (by simp) n
  induction hv with
  | root hv => exact hroots _ hv
  | item _ hv _ => exact (htable _).1 _ hv
  | key _ he _ => exact ((htable _).2 _ he).1
  | entry _ he _ => exact ((htable _).2 _ he).2
  | cell _ _ _ hv _ =>
    rw [← hv]
    exact getD_of_forall_mem h.2 rfl _

end Stencil.Lua
