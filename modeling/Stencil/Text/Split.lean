set_option autoImplicit false

/-!
# Splitting a text

## Main definitions

* `Stencil.Text.splitOn` — the pieces of a text between the occurrences of one character.
* `Stencil.Text.splitFirst` — the text before and behind the first occurrence.
* `Stencil.Text.findText` — the text before and behind the first occurrence of another text.

## Main results

* `Stencil.Text.intercalate_splitOn` — the pieces with the character between them are the text.
* `Stencil.Text.not_mem_of_mem_splitOn` — no piece holds the character.
* `Stencil.Text.exists_mem_splitOn` — the pieces hold all the others.
* `Stencil.Text.splitOn_append_cons` — the pieces of two texts with the character between them.
-/

namespace Stencil.Text

/-! ## At one character -/

/-- **The pieces of a text** between the occurrences of `sep`; always at least one. -/
def splitOn (sep : Char) : List Char → List (List Char)
  | [] => [[]]
  | c :: s =>
    if c = sep then [] :: splitOn sep s
    else match splitOn sep s with
      | [] => [[c]]
      | p :: ps => (c :: p) :: ps

theorem splitOn_ne_nil (sep : Char) (s : List Char) : splitOn sep s ≠ [] := by
  cases s with
  | nil => simp [splitOn]
  | cons c s =>
    unfold splitOn
    split
    · simp
    · split <;> simp

/-- The pieces with the character between them are the text. -/
theorem intercalate_splitOn (sep : Char) (s : List Char) :
    [sep].intercalate (splitOn sep s) = s := by
  induction s with
  | nil => rfl
  | cons c s ih =>
    unfold splitOn
    obtain ⟨p, ps, hp⟩ := List.exists_cons_of_ne_nil (splitOn_ne_nil sep s)
    rw [hp] at ih ⊢
    split
    · subst c
      simpa [List.intercalate] using ih
    · cases ps <;> simp_all [List.intercalate]

/-- No piece holds the character. -/
theorem not_mem_of_mem_splitOn {sep : Char} {s p : List Char} (h : p ∈ splitOn sep s) :
    sep ∉ p := by
  induction s generalizing p with
  | nil => simp_all [splitOn]
  | cons c s ih =>
    unfold splitOn at h
    split at h
    · rcases List.mem_cons.mp h with rfl | h
      · simp
      · exact ih h
    · rename_i hc
      have hne : sep ≠ c := fun e => hc e.symm
      split at h
      · rw [List.mem_singleton.mp h]
        simpa using hne
      · rename_i q qs hq
        rcases List.mem_cons.mp h with rfl | h
        · simpa [hne] using ih (p := q) (by simp [hq])
        · exact ih (by simp [hq, h])

/-- The characters of a text are the separator and those of the pieces. -/
theorem exists_mem_splitOn (sep : Char) {c : Char} {s : List Char} (h : c ∈ s) :
    c = sep ∨ ∃ piece ∈ splitOn sep s, c ∈ piece := by
  induction s with
  | nil => simp at h
  | cons d s ih =>
    rw [splitOn]
    by_cases hd : d = sep
    · rw [if_pos hd]
      rcases List.mem_cons.mp h with rfl | h
      · exact .inl hd
      · refine (ih h).imp_right ?_
        rintro ⟨piece, hpiece, hc⟩
        exact ⟨piece, List.mem_cons_of_mem _ hpiece, hc⟩
    · rw [if_neg hd]
      obtain ⟨first, rest, hsplit⟩ := List.exists_cons_of_ne_nil (splitOn_ne_nil sep s)
      rw [hsplit] at ih ⊢
      rcases List.mem_cons.mp h with rfl | h
      · exact .inr ⟨c :: first, List.mem_cons_self, List.mem_cons_self⟩
      · refine (ih h).imp_right ?_
        rintro ⟨piece, hpiece, hc⟩
        rcases List.mem_cons.mp hpiece with rfl | hpiece
        · exact ⟨d :: piece, List.mem_cons_self, List.mem_cons_of_mem d hc⟩
        · exact ⟨piece, List.mem_cons_of_mem _ hpiece, hc⟩

/-- The pieces of two texts with a separator between them are those of the one and of the other. -/
theorem splitOn_append_cons (sep : Char) (s t : List Char) :
    splitOn sep (s ++ sep :: t) = splitOn sep s ++ splitOn sep t := by
  induction s with
  | nil => simp [splitOn]
  | cons c s ih =>
    rw [List.cons_append, splitOn, splitOn]
    split
    · rw [ih, List.cons_append]
    · obtain ⟨p, ps, hp⟩ := List.exists_cons_of_ne_nil (splitOn_ne_nil sep s)
      rw [ih, hp]
      rfl

/-- A text without a separator is its only piece. -/
theorem splitOn_of_not_mem {sep : Char} {s : List Char} (h : sep ∉ s) : splitOn sep s = [s] := by
  induction s with
  | nil => rfl
  | cons c s ih =>
    rw [List.mem_cons, not_or] at h
    rw [splitOn, if_neg (Ne.symm h.1), ih h.2]

/-- The text before the first occurrence of `sep`, and the text behind it if there is one. -/
def splitFirst (sep : Char) (s : List Char) : List Char × Option (List Char) :=
  (s.takeWhile (· != sep), (s.dropWhile (· != sep)).tail?)

/-! ## At a text -/

/-- **The first occurrence of `pattern` in a text:** what stands before and behind it. -/
def findText (pattern : List Char) : List Char → Option (List Char × List Char)
  | [] => if pattern.isEmpty then some ([], []) else none
  | c :: s =>
    if pattern.isPrefixOf (c :: s) then some ([], (c :: s).drop pattern.length)
    else (findText pattern s).map fun (before, after) => (c :: before, after)

end Stencil.Text
