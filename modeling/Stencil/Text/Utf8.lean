set_option autoImplicit false

/-!
# Lengths in UTF-8 bytes

Positions in a template are byte offsets of its UTF-8 encoding.

## Main definitions

* `Stencil.Text.utf8Length` — the number of bytes of a text.
* `Stencil.Text.dropBytes` — the text after its first `n` bytes, when they end with a character.

## Main results

* `Stencil.Text.utf8Length_append` — lengths add up.
* `Stencil.Text.utf8Length_of_dropBytes` — the dropped part has exactly `n` bytes.
* `Stencil.Text.dropBytes_append` — a cut between characters leaves what is behind it.
-/

namespace Stencil.Text

/-- The number of bytes of a text in UTF-8. -/
def utf8Length : List Char → Nat
  | [] => 0
  | c :: s => c.utf8Size + utf8Length s

@[simp] theorem utf8Length_nil : utf8Length [] = 0 := rfl

@[simp] theorem utf8Length_cons (c : Char) (s : List Char) :
    utf8Length (c :: s) = c.utf8Size + utf8Length s := rfl

@[simp] theorem utf8Length_append (s t : List Char) :
    utf8Length (s ++ t) = utf8Length s + utf8Length t := by
  induction s with
  | nil => simp
  | cons c s ih => simp [ih, Nat.add_assoc]

/-- The text after its first `n` bytes; none if it is shorter, or if a character straddles the
cut. -/
def dropBytes : Nat → List Char → Option (List Char)
  | 0, s => some s
  | _ + 1, [] => none
  | n + 1, c :: s => if c.utf8Size ≤ n + 1 then dropBytes (n + 1 - c.utf8Size) s else none
termination_by _ s => s.length

/-- What is dropped has exactly `n` bytes. -/
theorem utf8Length_of_dropBytes {n : Nat} {s t : List Char} (h : dropBytes n s = some t) :
    ∃ u, s = u ++ t ∧ utf8Length u = n := by
  induction s generalizing n with
  | nil =>
    cases n with
    | zero => exact ⟨[], by simpa [dropBytes] using h, rfl⟩
    | succ n => simp [dropBytes] at h
  | cons c s ih =>
    cases n with
    | zero => exact ⟨[], by simpa [dropBytes] using h, rfl⟩
    | succ n =>
      rw [dropBytes] at h
      split at h
      · obtain ⟨u, hu, hn⟩ := ih h
        refine ⟨c :: u, by simp [hu], ?_⟩
        simp only [utf8Length_cons, hn]
        omega
      · simp at h

/-- A cut between characters leaves what is behind it. -/
theorem dropBytes_append (u v : List Char) : dropBytes (utf8Length u) (u ++ v) = some v := by
  induction u with
  | nil => rw [utf8Length_nil, List.nil_append, dropBytes]
  | cons c u ih =>
    obtain ⟨n, hn⟩ := Nat.exists_eq_add_of_le' (show 1 ≤ utf8Length (c :: u) from
      Nat.le_add_right_of_le c.utf8Size_pos)
    rw [hn, List.cons_append, dropBytes, ← hn, utf8Length_cons, if_pos (Nat.le_add_right _ _),
      Nat.add_sub_cancel_left, ih]

end Stencil.Text
