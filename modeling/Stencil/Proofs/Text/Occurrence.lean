import Stencil.Text.Split
set_option autoImplicit false

/-!
# The first occurrence of a text

## Main definitions

* `Stencil.Text.FirstAt` — where a pattern occurs in a text for the first time.

## Main results

* `Stencil.Text.findText_eq_some_iff` — a search gives what stands around the first occurrence.
* `Stencil.Text.findText_eq_none_iff` — it gives nothing just where the pattern does not occur.
* `Stencil.Text.findText_append` — the first occurrence of a pattern behind a text without it.
-/

namespace Stencil.Text

/-- **A pattern occurs behind `before` and nowhere further in front.** -/
def FirstAt (pattern before s : List Char) : Prop :=
  before ++ pattern <+: s ∧ ∀ u, u ++ pattern <+: s → before.length ≤ u.length

/-- An occurrence at the very front is the first. -/
theorem firstAt_nil {pattern s : List Char} (h : pattern <+: s) : FirstAt pattern [] s :=
  ⟨by simpa using h, fun _ _ => Nat.zero_le _⟩

/-- Behind a character at which the pattern does not occur, the first occurrence is that in the
rest. -/
theorem firstAt_cons {pattern before s : List Char} {c : Char} (h : ¬ pattern <+: c :: s) :
    FirstAt pattern (c :: before) (c :: s) ↔ FirstAt pattern before s := by
  constructor
  · rintro ⟨hp, hfirst⟩
    refine ⟨(List.cons_prefix_cons.mp hp).2, fun u hu => ?_⟩
    have := hfirst (c :: u) (List.cons_prefix_cons.mpr ⟨rfl, hu⟩)
    simpa using this
  · rintro ⟨hp, hfirst⟩
    refine ⟨List.cons_prefix_cons.mpr ⟨rfl, hp⟩, fun u hu => ?_⟩
    cases u with
    | nil => exact absurd hu h
    | cons d u =>
      have := hfirst u (List.cons_prefix_cons.mp hu).2
      simpa using this

/-- There is at most one first occurrence. -/
theorem FirstAt.unique {pattern u v s : List Char} (hu : FirstAt pattern u s)
    (hv : FirstAt pattern v s) : u = v := by
  have hlen : u.length = v.length := Nat.le_antisymm (hu.2 v hv.1) (hv.2 u hu.1)
  have hu' : u <+: s := (List.prefix_append u pattern).trans hu.1
  have hv' : v <+: s := (List.prefix_append v pattern).trans hv.1
  exact (List.prefix_of_prefix_length_le hu' hv' (Nat.le_of_eq hlen)).eq_of_length hlen

/-- What a search gives makes up the text, with the pattern in between, and no other occurrence is
further in front. -/
theorem findText_eq_some_iff {pattern s before after : List Char} :
    findText pattern s = some (before, after) ↔
      s = before ++ pattern ++ after ∧ FirstAt pattern before s := by
  induction s generalizing before with
  | nil =>
    unfold findText
    split
    · rename_i hp
      obtain rfl : pattern = [] := List.isEmpty_iff.mp hp
      constructor
      · intro h
        obtain ⟨rfl, rfl⟩ : [] = before ∧ [] = after := by simpa using h
        exact ⟨rfl, firstAt_nil (List.prefix_refl _)⟩
      · rintro ⟨h, -⟩
        obtain ⟨rfl, rfl⟩ : before = [] ∧ after = [] := by simpa using h
        rfl
    · rename_i hp
      constructor
      · intro h
        simp at h
      · rintro ⟨h, -⟩
        simp_all
  | cons c s ih =>
    unfold findText
    split
    · rename_i hp
      have hp := List.isPrefixOf_iff_prefix.mp hp
      constructor
      · intro h
        obtain ⟨rfl, rfl⟩ : [] = before ∧ (c :: s).drop pattern.length = after := by
          simpa using h
        refine ⟨?_, firstAt_nil hp⟩
        rw [List.nil_append]
        exact (List.prefix_iff_eq_append.mp hp).symm
      · rintro ⟨h, hfirst⟩
        obtain rfl : before = [] := hfirst.unique (firstAt_nil hp)
        rw [h]
        simp
    · rename_i hp
      have hp : ¬ pattern <+: c :: s := fun h => hp (List.isPrefixOf_iff_prefix.mpr h)
      constructor
      · intro h
        obtain ⟨⟨b, a⟩, hf, he⟩ := Option.map_eq_some_iff.mp h
        obtain ⟨rfl, rfl⟩ : c :: b = before ∧ a = after := by simpa using he
        obtain ⟨hs, hfirst⟩ := ih.mp hf
        exact ⟨by simp [hs], (firstAt_cons hp).mpr hfirst⟩
      · rintro ⟨h, hfirst⟩
        cases before with
        | nil => exact absurd hfirst.1 hp
        | cons d b =>
          obtain ⟨rfl, hs⟩ : c = d ∧ s = b ++ (pattern ++ after) := by simpa using h
          have hf := ih.mpr ⟨by simpa using hs, (firstAt_cons hp).mp hfirst⟩
          simp [hf]

/-- A search gives nothing just where the pattern does not occur. -/
theorem findText_eq_none_iff {pattern s : List Char} :
    findText pattern s = none ↔ ¬ pattern <:+: s := by
  induction s with
  | nil => simp [findText, List.isEmpty_iff]
  | cons c s ih =>
    unfold findText
    rw [List.infix_cons_iff]
    split
    · rename_i hp
      simp [List.isPrefixOf_iff_prefix.mp hp]
    · rename_i hp
      have hp : ¬ pattern <+: c :: s := fun h => hp (List.isPrefixOf_iff_prefix.mpr h)
      rw [Option.map_eq_none_iff, ih]
      simp [hp]

/-- **A search finds a pattern behind a text without it,** if the last character of the pattern is
nowhere else in it. -/
theorem findText_append {pattern before : List Char} {last : Char} (after : List Char)
    (hlast : last ∉ pattern) (hbefore : ¬ pattern ++ [last] <:+: before) :
    findText (pattern ++ [last]) (before ++ (pattern ++ [last]) ++ after) =
      some (before, after) := by
  refine findText_eq_some_iff.mpr ⟨rfl, ⟨after, rfl⟩, fun u ⟨v, hu⟩ => Nat.not_lt.mp fun hlt => ?_⟩
  by_cases hinside : u.length + (pattern.length + 1) ≤ before.length
  · -- The occurrence is within the text in front.
    refine hbefore ?_
    have hfront : u ++ (pattern ++ [last]) <+: before :=
      List.prefix_of_prefix_length_le ⟨v, hu⟩ ⟨_, (List.append_assoc _ _ _).symm⟩
        (by simpa using hinside)
    exact (List.suffix_append u _).isInfix.trans hfront.isInfix
  · -- Its end is within the pattern, before the last character.
    have hat : (u ++ (pattern ++ [last]) ++ v)[u.length + pattern.length]? = some last := by
      simp
    rw [hu, List.append_assoc, List.getElem?_append_right (by omega),
      List.getElem?_append_left (by simp; omega), List.getElem?_append_left (by omega)] at hat
    exact hlast (List.mem_of_getElem? hat)

end Stencil.Text
