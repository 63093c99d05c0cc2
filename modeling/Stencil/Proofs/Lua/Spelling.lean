import Stencil.Proofs.Lua.Embedding
import Stencil.Proofs.Lua.Layout
set_option autoImplicit false

/-!
# The tokens of a text of lines

A line that holds a block of the template's own may go over many lines of text. What is known of it
are the kinds of its tokens, and that the line break behind it ends the last of them.

## Main definitions

* `Stencil.Lua.Spells` — the kinds of tokens of a line.

## Main results

* `Stencil.Lua.kinds_lex_lines` — the kinds of tokens of a text of lines.
* `Stencil.Lua.Block.Complete.spells` — the line of a complete block.
-/

namespace Stencil.Lua

/-! ## Lines -/

/-- **The kinds of tokens of a line,** whatever comes on the next one. -/
def Spells (l : String) (ts : List Token) : Prop :=
  l.toList.head? ≠ some '\r' ∧ ∀ line tail, tail.head? ≠ some '\r' →
    ∃ next, kinds (lex line (l.toList ++ '\n' :: tail)) = ts ++ kinds (lex next tail)

/-- A line whose tokens are all on it. -/
theorem LineReads.spells {l : String} {ts : List Token} (h : LineReads l ts) : Spells l ts := by
  refine ⟨h.2, fun line tail htail => ⟨line + 1, ?_⟩⟩
  rw [h.1 line _ ⟨tail, rfl⟩, lex_lf line htail, kinds_append]
  simp [kinds, Function.comp_def]

/-- A text in front of a line break. -/
theorem spells_of_tokenize {l : String} {ts : List Token} (hhead : l.toList.head? ≠ some '\r')
    (h : kinds (tokenize l.toList) = ts ++ [.finish]) : Spells l ts := by
  refine ⟨hhead, fun line tail htail => ?_⟩
  obtain ⟨next, hnext⟩ := kinds_lex_append (.inl rfl) h (by simp) (fun _ => htail) line
  exact ⟨next + 1, by rw [hnext, lex_lf next htail]⟩

/-- **The line of a complete block** has its tokens. -/
theorem Block.Complete.spells {l : String} {b : Block} (h : Complete l.toList b)
    (hhead : l.toList.head? ≠ some '\r') : ∃ ts, Spells l ts ∧ Reader.Prepends ts b := by
  obtain ⟨ts, hts, hprepends⟩ := h.prepends
  exact ⟨ts, spells_of_tokenize hhead hts, hprepends⟩

/-- A text of lines begins with no carriage return, in front of a text that does not either. -/
theorem head?_lines_append {ls : List String} {tail : List Char}
    (hls : ∀ l ∈ ls, l.toList.head? ≠ some '\r') (htail : tail.head? ≠ some '\r') :
    ((lines ls).toList ++ tail).head? ≠ some '\r' := by
  rw [toList_lines]
  cases ls with
  | nil => exact htail
  | cons l ls =>
    have hl := hls l List.mem_cons_self
    cases hchars : l.toList with
    | nil => simp [hchars]
    | cons c u =>
      rw [hchars] at hl
      simpa [hchars] using hl

/-- **The kinds of tokens of a text of lines,** whatever stands behind it. -/
theorem kinds_lex_lines_append {ls : List String} {tss : List (List Token)}
    (h : List.Forall₂ Spells ls tss) {tail : List Char} (htail : tail.head? ≠ some '\r')
    (line : Nat) :
    ∃ next, kinds (lex line ((lines ls).toList ++ tail)) =
      tss.flatten ++ kinds (lex next tail) := by
  induction h generalizing line with
  | nil => exact ⟨line, rfl⟩
  | @cons l ts ls tss hl hls ih =>
    have hheads : ∀ l ∈ ls, l.toList.head? ≠ some '\r' := by
      clear ih
      induction hls with
      | nil => simp
      | cons hl' _ ih => simpa using ⟨hl'.1, ih⟩
    obtain ⟨first, hfirst⟩ := hl.2 line _ (head?_lines_append hheads htail)
    obtain ⟨next, hnext⟩ := ih first
    refine ⟨next, ?_⟩
    have htext : (lines (l :: ls)).toList ++ tail =
        l.toList ++ '\n' :: ((lines ls).toList ++ tail) := by
      simp [toList_lines]
    rw [htext, hfirst, hnext, List.flatten_cons, List.append_assoc]

/-- **The kinds of tokens of a text of lines** are those of each line. -/
theorem kinds_lex_lines {ls : List String} {tss : List (List Token)}
    (h : List.Forall₂ Spells ls tss) (line : Nat) :
    kinds (lex line (lines ls).toList) = tss.flatten ++ [.finish] := by
  have hnil : ([] : List Char).head? ≠ some '\r' := by simp
  obtain ⟨next, hnext⟩ := kinds_lex_lines_append h hnil line
  rwa [List.append_nil] at hnext

end Stencil.Lua
