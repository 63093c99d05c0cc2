import Stencil.Template.Token
set_option autoImplicit false

/-!
# Line breaks of a text

Line breaks said without the scanner: which one stands at the front of a text, and how many there
are. Two different break characters next to each other are one break.

## Main definitions

* `Stencil.Template.breakAt` — the line break at the front of a text, by the longest match.
* `Stencil.Template.lineBreaks` — the number of line breaks of a text.

## Main results

* `Stencil.Template.lineBreaks_append` — the numbers add up where no pair is cut.
* `Stencil.Template.lineBreaks_of_breakAt` — a break at the front counts once.
-/

namespace Stencil.Template

/-! ## The break at the front -/

/-- **The line break at the front of a text,** the longest of the four that is there. -/
def breakAt : List Char → Option LineBreak
  | '\r' :: '\n' :: _ => some .crlf
  | '\n' :: '\r' :: _ => some .lfcr
  | '\r' :: _ => some .cr
  | '\n' :: _ => some .lf
  | _ => none

/-- Whether a character is one of the two that make line breaks. -/
def isBreakChar (c : Char) : Bool := c == '\n' || c == '\r'

theorem isBreakChar_iff {c : Char} : isBreakChar c = true ↔ c = '\n' ∨ c = '\r' := by
  simp [isBreakChar]

theorem isBreakChar_eq_false_iff {c : Char} :
    isBreakChar c = false ↔ c ≠ '\n' ∧ c ≠ '\r' := by
  simp [isBreakChar]

/-- Whether two characters are one line break together. -/
def arePair (c d : Char) : Bool := (c == '\n' && d == '\r') || (c == '\r' && d == '\n')

@[simp] theorem breakAt_nil : breakAt [] = none := rfl

/-- **The first two characters decide** which break is at the front. -/
theorem breakAt_cons (c : Char) (s : List Char) :
    breakAt (c :: s) =
      if c = '\n' then some (if s.head? = some '\r' then .lfcr else .lf)
      else if c = '\r' then some (if s.head? = some '\n' then .crlf else .cr)
      else none := by
  unfold breakAt
  split <;> simp_all [List.head?_eq_some_iff]

/-- A text that does not begin with a break character has no break at its front. -/
theorem breakAt_cons_eq_none {c : Char} {s : List Char} (h : isBreakChar c = false) :
    breakAt (c :: s) = none := by
  obtain ⟨hlf, hcr⟩ := isBreakChar_eq_false_iff.mp h
  rw [breakAt_cons, if_neg hlf, if_neg hcr]

/-- A text that begins with a break character has a break at its front. -/
theorem breakAt_cons_ne_none {c : Char} {s : List Char} (h : isBreakChar c = true) :
    breakAt (c :: s) ≠ none := by
  rw [breakAt_cons]
  rcases isBreakChar_iff.mp h with rfl | rfl <;> simp

/-- Behind a line feed the next character decides. -/
theorem breakAt_lf (d : Char) (s : List Char) :
    breakAt ('\n' :: d :: s) = if d = '\r' then some .lfcr else some .lf := by
  simp only [breakAt_cons, if_true, List.head?_cons, Option.some.injEq]
  split <;> rfl

/-- Behind a carriage return the next character decides. -/
theorem breakAt_cr (d : Char) (s : List Char) :
    breakAt ('\r' :: d :: s) = if d = '\n' then some .crlf else some .cr := by
  rw [breakAt_cons, if_neg (by decide), if_pos rfl]
  simp only [List.head?_cons, Option.some.injEq]
  split <;> rfl

/-- A text with a break at its front begins with that break. -/
theorem text_prefix_of_breakAt {s : List Char} {b : LineBreak} (h : breakAt s = some b) :
    b.text <+: s := by
  cases s with
  | nil => cases h
  | cons c s =>
    have hpair {d : Char} (hd : s.head? = some d) : [c, d] <+: c :: s := by
      obtain ⟨t, rfl⟩ := List.head?_eq_some_iff.mp hd
      exact ⟨t, rfl⟩
    rw [breakAt_cons] at h
    split at h
    · subst c
      split at h <;> cases h
      · exact hpair ‹_›
      · exact ⟨s, rfl⟩
    · split at h
      · subst c
        split at h <;> cases h
        · exact hpair ‹_›
        · exact ⟨s, rfl⟩
      · cases h

/-- A break stays the one at the front when less follows it. -/
theorem breakAt_shorten {b : LineBreak} {s t : List Char} (h : breakAt (b.text ++ s) = some b)
    (ht : t <+: s) : breakAt (b.text ++ t) = some b := by
  obtain ⟨r, rfl⟩ := ht
  cases t with
  | nil => cases b <;> rfl
  | cons d t => cases b <;> simp_all [LineBreak.text, breakAt_lf, breakAt_cr]

/-! ## The number of breaks -/

/-- **The number of line breaks of a text.** -/
def lineBreaks : List Char → Nat
  | [] => 0
  | [c] => (isBreakChar c).toNat
  | c :: d :: s =>
    if arePair c d then lineBreaks s + 1 else (isBreakChar c).toNat + lineBreaks (d :: s)

@[simp] theorem lineBreaks_nil : lineBreaks [] = 0 := rfl

/-- A first character that is no half of a pair counts alone. -/
theorem lineBreaks_cons {c : Char} {s : List Char} (h : ∀ d ∈ s.head?, arePair c d = false) :
    lineBreaks (c :: s) = (isBreakChar c).toNat + lineBreaks s := by
  cases s with
  | nil => simp [lineBreaks]
  | cons d s =>
    have hp : arePair c d = false := h d rfl
    simp [lineBreaks, hp]

/-- A break at the front counts once. -/
theorem lineBreaks_of_breakAt {b : LineBreak} {s : List Char}
    (h : breakAt (b.text ++ s) = some b) : lineBreaks (b.text ++ s) = 1 + lineBreaks s := by
  cases s with
  | nil => cases b <;> rfl
  | cons d s =>
    cases b <;>
      simp_all [LineBreak.text, breakAt_lf, breakAt_cr, lineBreaks, arePair, isBreakChar,
        Nat.add_comm]

/-- **The numbers of breaks add up** where no pair is cut in two. -/
theorem lineBreaks_append {s t : List Char}
    (h : ∀ c ∈ s.getLast?, ∀ d ∈ t.head?, arePair c d = false) :
    lineBreaks (s ++ t) = lineBreaks s + lineBreaks t := by
  fun_induction lineBreaks s with
  | case1 => simp
  | case2 c => exact lineBreaks_cons fun d hd => h c rfl d hd
  | case3 c d s hp ih =>
    simp only [List.cons_append, lineBreaks, hp, if_true]
    cases s with
    | nil => simp [Nat.add_comm]
    | cons e s =>
      have ih := ih (by simpa using h)
      omega
  | case4 c d s hp ih =>
    have ih := ih (by simpa using h)
    simp only [List.cons_append, lineBreaks, hp, if_false, Bool.false_eq_true] at ih ⊢
    omega

end Stencil.Template
