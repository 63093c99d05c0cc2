set_option autoImplicit false

/-!
# Blank characters, trimming and words

White space is the Unicode property `White_Space`. It is wider than ASCII (the no-break space,
the ideographic space and the line separator are blank) and narrower than "invisible": the
zero-width space and the byte order mark are not blank, and neither are the four information
separators.

## Main definitions

* `Stencil.Text.isBlank` — membership in `White_Space`.
* `Stencil.Text.trim` — a text without its leading and trailing blanks.
* `Stencil.Text.words` — the maximal runs of characters that are not blank, in order.

## Main results

* `Stencil.Text.isBlank_of_isWhitespace` — every ASCII blank is blank.
* `Stencil.Text.trim_eq_nil_iff` — only an all-blank text trims to nothing.
* `Stencil.Text.isBlank_head?_trim`, `isBlank_getLast?_trim` — a trimmed text has no blank at its
  ends.
* `Stencil.Text.words_eq_nil_iff` — only an all-blank text has no words.
-/

namespace Stencil.Text

/-! ## The property -/

/-- **White space.** The 25 code points of the Unicode property `White_Space`. -/
def isBlank (c : Char) : Bool :=
  let n := c.toNat
  (9 ≤ n && n ≤ 13) || n == 0x20 || n == 0x85 || n == 0xA0 || n == 0x1680 ||
    (0x2000 ≤ n && n ≤ 0x200A) || n == 0x2028 || n == 0x2029 || n == 0x202F ||
    n == 0x205F || n == 0x3000

/-- The blanks of ASCII that the core library knows are blank here too. -/
theorem isBlank_of_isWhitespace {c : Char} (h : c.isWhitespace = true) : isBlank c = true := by
  simp only [Char.isWhitespace, Bool.or_eq_true, decide_eq_true_eq] at h
  rcases h with ((h | h) | h) | h <;> subst h <;> decide

/-! ## Trimming -/

/-- The text from its first character that is not blank. -/
def trimStart (s : List Char) : List Char := s.dropWhile isBlank

/-- The text up to its last character that is not blank. -/
def trimEnd (s : List Char) : List Char := (s.reverse.dropWhile isBlank).reverse

/-- The text without leading and trailing blanks. -/
def trim (s : List Char) : List Char := trimEnd (trimStart s)

/-- Whether a text holds blanks only; the empty text does. -/
def allBlank (s : List Char) : Bool := s.all isBlank

theorem dropWhile_isBlank_eq_nil_iff (s : List Char) :
    s.dropWhile isBlank = [] ↔ allBlank s = true := by
  induction s with
  | nil => simp [allBlank]
  | cons c r ih =>
    by_cases h : isBlank c = true
    · rw [List.dropWhile_cons_of_pos h, ih]
      simp [allBlank, h]
    · rw [List.dropWhile_cons_of_neg h]
      simp [allBlank, h]

/-- Only an all-blank text trims to nothing. -/
theorem trim_eq_nil_iff (s : List Char) : trim s = [] ↔ allBlank s = true := by
  unfold trim trimEnd trimStart
  rw [List.reverse_eq_nil_iff, dropWhile_isBlank_eq_nil_iff, allBlank, List.all_reverse]
  constructor
  · intro h
    rw [← dropWhile_isBlank_eq_nil_iff]
    have hc := List.head?_dropWhile_not isBlank s
    cases hd : s.dropWhile isBlank with
    | nil => rfl
    | cons c r =>
      rw [hd] at h hc
      simp_all
  · intro h
    rw [← dropWhile_isBlank_eq_nil_iff] at h
    simp [h]

/-- A trimmed text does not begin with a blank. -/
theorem isBlank_head?_trim {s : List Char} {c : Char} (h : c ∈ (trim s).head?) :
    isBlank c = false := by
  have hprefix : trim s <+: trimStart s := by
    have hsuffix := List.dropWhile_suffix (p := isBlank) (l := (trimStart s).reverse)
    simpa [trim, trimEnd] using List.reverse_prefix.mpr hsuffix
  have hhead : c ∈ (trimStart s).head? := by
    obtain ⟨rest, hrest⟩ := hprefix
    rw [← hrest, List.head?_append, Option.mem_def.mp h]
    rfl
  have hnot := List.head?_dropWhile_not isBlank s
  rw [trimStart] at hhead
  rw [Option.mem_def.mp hhead] at hnot
  simpa using hnot

/-- It does not end in one either. -/
theorem isBlank_getLast?_trim {s : List Char} {c : Char} (h : c ∈ (trim s).getLast?) :
    isBlank c = false := by
  rw [trim, trimEnd, List.getLast?_reverse] at h
  have hnot := List.head?_dropWhile_not isBlank (trimStart s).reverse
  rw [Option.mem_def.mp h] at hnot
  simpa using hnot

/-- A text between blanks, which begins and ends with other characters. -/
theorem trim_of_ends {u s v : List Char} (hu : ∀ c ∈ u, isBlank c = true)
    (hhead : ∀ c ∈ s.head?, isBlank c = false) (hlast : ∀ c ∈ s.getLast?, isBlank c = false)
    (hv : ∀ c ∈ v, isBlank c = true) : trim (u ++ s ++ v) = s := by
  rcases List.eq_nil_or_concat s with rfl | ⟨t, d, rfl⟩
  · refine (trim_eq_nil_iff _).mpr (List.all_eq_true.mpr fun c hc => ?_)
    rw [List.append_nil] at hc
    exact (List.mem_append.mp hc).elim (hu c) (hv c)
  · rw [List.concat_eq_append] at hhead hlast ⊢
    have hstart : trimStart (u ++ (t ++ [d]) ++ v) = t ++ [d] ++ v := by
      rw [trimStart, List.append_assoc, List.dropWhile_append_of_pos hu]
      cases t with
      | nil => exact List.dropWhile_cons_of_neg (Bool.eq_false_iff.mp (hhead d rfl))
      | cons c t => exact List.dropWhile_cons_of_neg (Bool.eq_false_iff.mp (hhead c rfl))
    rw [trim, hstart, trimEnd, List.reverse_append,
      List.dropWhile_append_of_pos fun c hc => hv c (List.mem_reverse.mp hc)]
    simp [hlast d (by simp)]

/-- A text without blanks, between blanks. -/
theorem trim_between {u s v : List Char} (hu : ∀ c ∈ u, isBlank c = true)
    (hs : ∀ c ∈ s, isBlank c = false) (hv : ∀ c ∈ v, isBlank c = true) :
    trim (u ++ s ++ v) = s :=
  trim_of_ends hu (fun c hc => hs c (List.mem_of_mem_head? hc))
    (fun c hc => hs c (List.mem_of_mem_getLast? hc)) hv

/-! ## Words -/

/-- **Words.** The maximal runs of characters that are not blank. -/
def words : List Char → List (List Char)
  | [] => []
  | c :: rest =>
    if isBlank c then words rest
    else match rest.head? with
      | none => [[c]]
      | some d =>
        if isBlank d then [c] :: words rest
        else match words rest with
          | [] => [[c]]
          | w :: ws => (c :: w) :: ws

/-- Only an all-blank text has no words. -/
theorem words_eq_nil_iff (s : List Char) : words s = [] ↔ allBlank s = true := by
  induction s with
  | nil => simp [words, allBlank]
  | cons c r ih =>
    by_cases h : isBlank c = true
    · simpa [words, allBlank, h] using ih
    · simp only [words, h, Bool.false_eq_true, if_false, allBlank, List.all_cons, Bool.false_and,
        iff_false]
      split
      · simp
      · split
        · simp
        · split <;> simp

/-! ## On strings -/

/-- `trim` on strings. -/
def trimString (s : String) : String := String.ofList (trim s.toList)

/-- Whether a string is empty or holds blanks only. -/
def isBlankString (s : String) : Bool := allBlank s.toList

end Stencil.Text
