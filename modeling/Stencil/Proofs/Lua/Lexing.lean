import Mathlib
import Stencil.Lua.Token
set_option autoImplicit false

/-!
# Reading tokens without counting steps

The tokens of a text from a line on, said without a number of steps: each token takes a character
at least, so the length of the text is enough. From this, what a text in front of another is read
as.

## Main definitions

* `Stencil.Lua.lex` — the tokens of a text from a line on.
* `Stencil.Lua.ReadsAs` — the tokens of a text in front of others.

## Main results

* `Stencil.Lua.tokensFrom_eq_lex` — the number of steps does not matter.
* `Stencil.Lua.ReadsAs.append` — texts that are read as tokens, put together.
* `Stencil.Lua.readsAs_of_steps` — a way to have a given text read by computation.
-/

namespace Stencil.Lua

/-- A mapped result has what it was mapped from. -/
theorem exists_of_map_eq_ok {ε α β : Type} {f : α → β} {x : Except ε α} {b : β}
    (h : x.map f = .ok b) : ∃ a, x = .ok a ∧ f a = b := by
  cases x with
  | error e => cases h
  | ok a => exact ⟨a, rfl, Except.ok.inj h⟩

/-! ## Each token takes a character -/

/-- A line break takes a character. -/
theorem length_dropBreak_le (c : Char) (s : List Char) :
    (dropBreak (c :: s)).length ≤ s.length := by
  unfold dropBreak
  split <;> simp_all

/-- A closing long bracket takes characters. -/
theorem length_longClosing_le {level : Nat} {s rest : List Char}
    (h : longClosing level s = some rest) : rest.length ≤ s.length := by
  unfold longClosing at h
  split at h
  · rename_i t
    split at h
    · split at h
      · rename_i hd
        cases h
        have hlen := congrArg List.length hd
        simp only [List.length_drop, List.length_cons] at hlen ⊢
        omega
      · cases h
    · cases h
  · cases h

/-- An opening long bracket takes characters. -/
theorem length_longOpening_lt {s rest : List Char} {level : Nat}
    (h : longOpening s = some (level, rest)) : rest.length < s.length := by
  unfold longOpening at h
  split at h
  · dsimp only at h
    split at h
    · rename_i t _ _ hd
      cases h
      have hlen := congrArg List.length hd
      simp only [List.length_drop, List.length_cons] at hlen ⊢
      omega
    · cases h
  · cases h

/-- The inside of a long bracket ends inside the text. -/
theorem length_longBody_le {level fuel line : Nat} {s : List Char} {r : Reading (List Char)}
    (h : longBody level fuel line s = .ok r) : r.rest.length ≤ s.length := by
  induction fuel generalizing line s r with
  | zero => cases h
  | succ fuel ih =>
    cases s with
    | nil => cases h
    | cons c s =>
      rw [longBody] at h
      split at h
      · rename_i rest hrest
        cases h
        exact length_longClosing_le hrest
      · by_cases hc : isBreak c = true
        · rw [if_pos hc] at h
          obtain ⟨q, hq, rfl⟩ := exists_of_map_eq_ok h
          have hshort := ih hq
          have hbreak := length_dropBreak_le c s
          show q.rest.length ≤ (c :: s).length
          rw [List.length_cons]
          omega
        · rw [if_neg hc] at h
          obtain ⟨q, hq, rfl⟩ := exists_of_map_eq_ok h
          have hshort := ih hq
          show q.rest.length ≤ (c :: s).length
          rw [List.length_cons]
          omega

/-- What follows a long bracket is inside the text. -/
theorem length_readLong_le {level line : Nat} {s : List Char} {r : Reading (List Char)}
    (h : readLong level line s = .ok r) : r.rest.length ≤ s.length := by
  unfold readLong at h
  split at h
  · rename_i c s
    split at h
    · have hshort := length_longBody_le h
      have hbreak := length_dropBreak_le c s
      rw [List.length_cons]
      omega
    · exact length_longBody_le h
  · cases h

/-- What follows an escape is inside the text. -/
theorem length_readEscape_le {line : Nat} {s : List Char} {r : Reading Bytes}
    (h : readEscape line s = some r) : r.rest.length ≤ s.length := by
  unfold readEscape at h
  split at h
  · cases h
  · split at h
    · cases h
      simp
      omega
    · cases h
  · cases h
    simp
    omega
  · rename_i rest
    obtain ⟨⟨n, rest'⟩, hp, rfl⟩ := Option.map_eq_some_iff.mp h
    unfold codePoint at hp
    split at hp
    · dsimp only at hp
      split at hp
      · rename_i hd
        split at hp
        · cases hp
        · cases hp
          have hlen := congrArg List.length hd
          simp only [List.length_drop, List.length_cons] at hlen ⊢
          omega
      · cases hp
    · cases hp
  · rename_i c rest _ _ _
    split at h
    · cases h
      have hbreak := length_dropBreak_le c rest
      show (dropBreak (c :: rest)).length ≤ (c :: rest).length
      rw [List.length_cons]
      omega
    · split at h
      · dsimp only at h
        split at h
        · cases h
          simp
        · cases h
      · obtain ⟨e, -, rfl⟩ := Option.map_eq_some_iff.mp h
        simp

/-- What follows a string literal is inside the text. -/
theorem length_stringBody_le {quote : Char} {fuel line : Nat} {s : List Char} {r : Reading Bytes}
    (h : stringBody quote fuel line s = .ok r) : r.rest.length ≤ s.length := by
  induction fuel generalizing line s r with
  | zero => cases h
  | succ fuel ih =>
    cases s with
    | nil => cases h
    | cons c s =>
      rw [stringBody] at h
      split at h
      · cases h
        simp
      · split at h
        · cases h
        · split at h
          · split at h
            · cases h
            · rename_i e he
              obtain ⟨q, hq, rfl⟩ := exists_of_map_eq_ok h
              have hshort := ih hq
              have hescape := length_readEscape_le he
              show q.rest.length ≤ (c :: s).length
              rw [List.length_cons]
              omega
          · obtain ⟨q, hq, rfl⟩ := exists_of_map_eq_ok h
            have hshort := ih hq
            show q.rest.length ≤ (c :: s).length
            rw [List.length_cons]
            omega

/-- A sign takes characters. -/
theorem length_readSymbol_lt {s rest : List Char} {symbol : Symbol}
    (h : readSymbol s = some (symbol, rest)) : rest.length < s.length := by
  unfold readSymbol at h
  split at h
  case h_11 =>
    obtain ⟨x, -, hx⟩ := Option.map_eq_some_iff.mp h
    cases hx
    simp
  all_goals
    cases h
    try simp
    try omega

/-- The empty text is no numeral. -/
theorem ne_nil_of_ofNumeral? {s : List Char} {n : Number} (h : Number.ofNumeral? s = some n) :
    s ≠ [] := by
  rintro rfl
  cases h

/-- **Each token takes a character.** -/
theorem length_readToken_lt {line : Nat} {c : Char} {s : List Char} {r : Reading Token}
    (h : readToken line (c :: s) = .ok r) : r.rest.length < (c :: s).length := by
  unfold readToken at h
  dsimp only at h
  split at h
  · rename_i hstart
    have hchar : isNameChar c = true := by
      unfold isNameStart at hstart
      unfold isNameChar
      grind [Char.isAlphanum]
    cases h
    rw [List.takeWhile_cons_of_pos hchar]
    simp only [List.length_drop, List.length_cons]
    omega
  · split at h
    · split at h
      · rename_i n hn
        have hpos := List.length_pos_iff.mpr (ne_nil_of_ofNumeral? hn)
        cases h
        rw [List.length_drop, List.length_cons]
        omega
      · cases h
    · split at h
      · obtain ⟨q, hq, rfl⟩ := exists_of_map_eq_ok h
        have hshort := length_stringBody_le hq
        show q.rest.length < (c :: s).length
        rw [List.length_cons]
        omega
      · split at h
        · rename_i level rest hopen
          obtain ⟨q, hq, rfl⟩ := exists_of_map_eq_ok h
          have hlong := length_readLong_le hq
          have hshort := length_longOpening_lt hopen
          show q.rest.length < (c :: s).length
          omega
        · split at h
          · cases h
          · split at h
            · rename_i hsymbol
              cases h
              exact length_readSymbol_lt hsymbol
            · cases h
              simp

/-- What follows a comment is inside the text. -/
theorem length_skipComment_le {line : Nat} {s : List Char} {r : Reading Unit}
    (h : skipComment line s = .ok r) : r.rest.length ≤ s.length := by
  unfold skipComment at h
  split at h
  · rename_i level rest hopen
    obtain ⟨q, hq, rfl⟩ := exists_of_map_eq_ok h
    have hlong := length_readLong_le hq
    have hshort := length_longOpening_lt hopen
    show q.rest.length ≤ s.length
    omega
  · cases h
    exact (List.dropWhile_suffix _).length_le

/-! ## The number of steps -/

/-- **The tokens of a text** from a line on. -/
def lex (line : Nat) (s : List Char) : List Located := tokensFrom (s.length + 1) line s

/-- The tokens of a text that begins with no comment. -/
theorem tokensFrom_cons (fuel line : Nat) {c : Char} {s : List Char}
    (h : ¬ (c = '-' ∧ ∃ r, s = '-' :: r)) :
    tokensFrom (fuel + 1) line (c :: s) =
      if isBreak c then tokensFrom fuel (line + 1) (dropBreak (c :: s))
      else if Number.isSpace c then tokensFrom fuel line s
      else match readToken line (c :: s) with
        | .error line => [⟨.fault, line⟩]
        | .ok r => ⟨r.value, r.line⟩ :: tokensFrom fuel r.line r.rest := by
  rw [tokensFrom]
  all_goals first
    | rfl
    | exact fun r hc hs => h ⟨hc, r, hs⟩

/-- **The number of steps does not matter,** as long as there are more than characters.

**Proof sketch.** Induction on the number of steps; whatever is read takes a character, so what
follows still has enough. -/
theorem tokensFrom_eq_tokensFrom {fuel fuel' : Nat} (line : Nat) {s : List Char}
    (h : s.length < fuel) (h' : s.length < fuel') :
    tokensFrom fuel line s = tokensFrom fuel' line s := by
  induction fuel generalizing fuel' line s with
  | zero => omega
  | succ fuel ih =>
    obtain ⟨fuel', rfl⟩ : ∃ n, fuel' = n + 1 := ⟨fuel' - 1, by omega⟩
    cases s with
    | nil => rfl
    | cons c rest =>
      simp only [List.length_cons] at h h'
      by_cases hcomment : c = '-' ∧ ∃ r, rest = '-' :: r
      · obtain ⟨rfl, r, rfl⟩ := hcomment
        simp only [List.length_cons] at h h'
        rw [tokensFrom, tokensFrom]
        cases hskip : skipComment line r with
        | error e => rfl
        | ok q =>
          have hshort := length_skipComment_le hskip
          exact ih q.line (by omega) (by omega)
      · rw [tokensFrom_cons fuel line hcomment, tokensFrom_cons fuel' line hcomment]
        split
        · have hbreak := length_dropBreak_le c rest
          exact ih (line + 1) (by omega) (by omega)
        · split
          · exact ih line (by omega) (by omega)
          · cases hread : readToken line (c :: rest) with
            | error e => rfl
            | ok r =>
              have hshort := length_readToken_lt hread
              simp only [List.length_cons] at hshort
              exact congrArg (_ :: ·) (ih r.line (by omega) (by omega))

/-- With more steps than characters the tokens are those of the text. -/
theorem tokensFrom_eq_lex {fuel : Nat} (line : Nat) {s : List Char} (h : s.length < fuel) :
    tokensFrom fuel line s = lex line s :=
  tokensFrom_eq_tokensFrom line h (Nat.lt_succ_self _)

/-- The tokens of a program are those of its text from the first line on. -/
theorem tokenize_eq_lex (source : List Char) : tokenize source = lex 1 source := rfl

/-! ## What a text is read as -/

/-- At the end of the text is the end of the program. -/
theorem lex_nil (line : Nat) : lex line [] = [⟨.finish, line⟩] := rfl

/-- A line break goes to the next line. -/
theorem lex_break {c : Char} (hbreak : isBreak c = true) (line : Nat) (s : List Char) :
    lex line (c :: s) = lex (line + 1) (dropBreak (c :: s)) := by
  have hdash : c ≠ '-' := by
    rintro rfl
    cases hbreak
  rw [lex, tokensFrom_cons _ _ fun h => hdash h.1, if_pos hbreak]
  exact tokensFrom_eq_lex _ (Nat.lt_succ_of_le (length_dropBreak_le c s))

/-- A line feed goes to the next line. -/
theorem lex_lf (line : Nat) {s : List Char} (h : s.head? ≠ some '\r') :
    lex line ('\n' :: s) = lex (line + 1) s := by
  have hdrop : dropBreak ('\n' :: s) = s := by
    unfold dropBreak
    split <;> simp_all
  rw [lex_break (by decide), hdrop]

/-- A token, and those behind it. -/
theorem lex_of_readToken {line : Nat} {c : Char} {s : List Char} {r : Reading Token}
    (hspace : Number.isSpace c = false) (hbreak : isBreak c = false) (hdash : c ≠ '-')
    (h : readToken line (c :: s) = .ok r) :
    lex line (c :: s) = ⟨r.value, r.line⟩ :: lex r.line r.rest := by
  rw [lex, tokensFrom_cons _ _ fun h => hdash h.1, if_neg (by simp [hbreak]),
    if_neg (by simp [hspace]), h]
  exact congrArg (_ :: ·) (tokensFrom_eq_lex _ (length_readToken_lt h))

/-- **A text is read as tokens** of one line, in front of any text that may follow. -/
def ReadsAs (follow : List Char → Prop) (u : List Char) (ts : List Token) : Prop :=
  ∀ line tail, follow tail → lex line (u ++ tail) = ts.map (⟨·, line⟩) ++ lex line tail

/-- Any text may follow. -/
def Anything (_ : List Char) : Prop := True

/-- The line ends. -/
def LineEnd (s : List Char) : Prop := ∃ r, s = '\n' :: r

/-- Texts that are read as tokens, one behind the other. -/
theorem ReadsAs.append {P Q : List Char → Prop} {u v : List Char} {ts us : List Token}
    (hu : ReadsAs P u ts) (hv : ReadsAs Q v us) (hfollow : ∀ tail, Q tail → P (v ++ tail)) :
    ReadsAs Q (u ++ v) (ts ++ us) := by
  intro line tail htail
  rw [List.append_assoc, hu line (v ++ tail) (hfollow tail htail), hv line tail htail,
    List.map_append, List.append_assoc]

/-- **A given text is read by computation:** a number of steps reads it, whatever number is left. -/
theorem readsAs_of_steps {follow : List Char → Prop} {u : List Char} {ts : List Token} (k : Nat)
    (h : ∀ fuel line tail, follow tail → tokensFrom (fuel + k) line (u ++ tail) =
      ts.map (⟨·, line⟩) ++ tokensFrom fuel line tail) : ReadsAs follow u ts := by
  intro line tail htail
  have hsteps := h ((u ++ tail).length + 1) line tail htail
  rw [tokensFrom_eq_lex line (by omega), tokensFrom_eq_lex line] at hsteps
  · exact hsteps
  · rw [List.length_append]
    omega

end Stencil.Lua
