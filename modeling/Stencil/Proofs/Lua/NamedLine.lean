import Mathlib.Data.List.Induction
import Mathlib.Data.List.TakeWhile
import Stencil.Lua.Failure
import Stencil.Proofs.Text.Offset
set_option autoImplicit false

/-!
# The line that a text names

The diagnostic of a failure has a line exactly if the first line of its text names one: if the first
mention of the program is followed by a number that can be a line. What the text says behind the
number is then the message, and otherwise all of the first line is. The text is searched and cut by
offsets in bytes; no cut falls into a character, whatever the text is.

## Main definitions

* `Stencil.Number.IsNumeral` — the digits of a number, behind any zeros.
* `Stencil.Number.readDigits` — a number read digit by digit, up to a limit.
* `Stencil.Text.IsFirstLine` — the first line of a text.
* `Stencil.Lua.Mention` — a text that names a line, in its parts.
* `Stencil.Lua.BeginsPlainly` — a text that begins with neither a colon nor a blank.
* `Stencil.Lua.cutLocation` — the line that a text names, by offsets in bytes.

## Main results

* `Stencil.Number.isNumeral_iff` — the numerals of a number are the digits with its value.
* `Stencil.Lua.firstLine_eq_iff` — the first line that a failure is reported with.
* `Stencil.Lua.splitLocation_eq_some_iff` — which line a text names, and what follows it.
* `Stencil.Lua.splitLocation_mention` — a line that is written behind the program's name.
* `Stencil.Lua.cutLocation_eq` — the offsets are those of characters.
* `Stencil.Lua.location_law` — the line of a failure, and what is said behind it.
-/

namespace Stencil

/-! ## Numerals -/

namespace Number

variable {digits : List Char} {n : Nat}

/-- **A decimal numeral:** the digits of a number, behind any zeros. -/
def IsNumeral (digits : List Char) (n : Nat) : Prop :=
  ∃ zeros, digits = List.replicate zeros '0' ++ Nat.toDigits 10 n

/-- The value of decimal digits. -/
theorem natOfDigits_eq (hdigits : ∀ c ∈ digits, c.isDigit = true) :
    natOfDigits 10 digits = Nat.ofDigitChars 10 digits 0 := by
  have hfold (k : Nat) : digits.foldl (fun n c => n * 10 + (digitValue c).getD 0) k =
      Nat.ofDigitChars 10 digits k := by
    induction digits generalizing k with
    | nil => rfl
    | cons c ds ih =>
      rw [List.forall_mem_cons] at hdigits
      have hvalue : digitValue c = some (c.toNat - '0'.toNat) := by
        have hc := hdigits.1
        simp only [Char.isDigit, Bool.and_eq_true, decide_eq_true_eq] at hc
        rw [digitValue, if_pos ⟨hc.1, hc.2⟩]
      rw [List.foldl_cons, hvalue, ih hdigits.2, Nat.mul_comm]
      rfl
  exact hfold 0

/-- A digit is that of its value. -/
theorem digitChar_sub {c : Char} (hc : c.isDigit = true) :
    c.toNat - '0'.toNat < 10 ∧ (c.toNat - '0'.toNat).digitChar = c := by
  have hrange : 48 ≤ c.toNat ∧ c.toNat ≤ 57 := by
    simpa [Char.isDigit, UInt32.le_iff_toNat_le] using hc
  have hlt : c.toNat - '0'.toNat < 10 := by
    show c.toNat - 48 < 10
    omega
  refine ⟨hlt, Char.toNat_inj.mp ?_⟩
  rw [Nat.toNat_digitChar_of_lt_ten hlt]
  show 48 + (c.toNat - 48) = c.toNat
  omega

/-- Digits are a numeral of their value. -/
theorem isNumeral_ofDigitChars (hne : digits ≠ []) (hdigits : ∀ c ∈ digits, c.isDigit = true) :
    IsNumeral digits (Nat.ofDigitChars 10 digits 0) := by
  induction digits using List.reverseRecOn with
  | nil => exact absurd rfl hne
  | append_singleton ds c ih =>
    obtain ⟨hlt, hchar⟩ := digitChar_sub (hdigits c (by simp))
    have hvalue : Nat.ofDigitChars 10 (ds ++ [c]) 0 =
        10 * Nat.ofDigitChars 10 ds 0 + (c.toNat - '0'.toNat) := by
      rw [Nat.ofDigitChars_append, Nat.ofDigitChars_cons, Nat.ofDigitChars_nil]
    have hlast : Nat.toDigits 10 (c.toNat - '0'.toNat) = [c] := by
      rw [Nat.toDigits_of_lt_base hlt, hchar]
    rw [hvalue]
    rcases List.eq_nil_or_concat ds with rfl | ⟨_, _, hds⟩
    · refine ⟨0, ?_⟩
      rw [Nat.ofDigitChars_nil, Nat.mul_zero, Nat.zero_add, hlast]
      rfl
    · obtain ⟨zeros, hzeros⟩ := ih (by simp [hds]) fun d hd => hdigits d (by simp [hd])
      rcases Nat.eq_zero_or_pos (Nat.ofDigitChars 10 ds 0) with hzero | hpos
      · -- Only zeros stand in front of the last digit.
        refine ⟨zeros + 1, ?_⟩
        rw [hzero, Nat.toDigits_zero] at hzeros
        rw [hzero, Nat.mul_zero, Nat.zero_add, hlast, hzeros, List.replicate_succ']
      · refine ⟨zeros, ?_⟩
        rw [← Nat.toDigits_append_toDigits (by decide) hpos hlt, hlast, ← List.append_assoc,
          ← hzeros]

/-- **The numerals of a number** are the digits with its value. -/
theorem isNumeral_iff : IsNumeral digits n ↔
    digits ≠ [] ∧ (∀ c ∈ digits, c.isDigit = true) ∧ natOfDigits 10 digits = n := by
  constructor
  · rintro ⟨zeros, rfl⟩
    have hdigits : ∀ c ∈ List.replicate zeros '0' ++ Nat.toDigits 10 n, c.isDigit = true := by
      intro c hc
      rcases List.mem_append.mp hc with hzero | hdigit
      · rw [(List.mem_replicate.mp hzero).2]
        rfl
      · exact Nat.isDigit_of_mem_toDigits (by decide) (by decide) hdigit
    refine ⟨by simp, hdigits, ?_⟩
    rw [natOfDigits_eq hdigits, Nat.ofDigitChars_append, Nat.ofDigitChars_replicate_zero,
      Nat.mul_zero, Nat.ofDigitChars_ten_toDigits]
  · rintro ⟨hne, hdigits, rfl⟩
    rw [natOfDigits_eq hdigits]
    exact isNumeral_ofDigitChars hne hdigits

/-- One more digit of a number, if the number stays within a limit. -/
def readDigit (limit n : Nat) (c : Char) : Option Nat :=
  let next := 10 * n + (c.toNat - '0'.toNat)
  if c.isDigit ∧ next ≤ limit then some next else none

/-- **A number read digit by digit.** There is none without digits, or if it comes to be greater
than the limit. -/
def readDigits (limit : Nat) (digits : List Char) : Option Nat :=
  if digits.isEmpty then none else digits.foldlM (readDigit limit) 0

/-- A number does not get smaller by further digits. -/
theorem le_ofDigitChars (digits : List Char) (n : Nat) : n ≤ Nat.ofDigitChars 10 digits n := by
  rw [Nat.ofDigitChars_eq_ofDigitChars_zero]
  exact Nat.le_trans (Nat.le_mul_of_pos_left n (Nat.pow_pos (by decide))) (Nat.le_add_right _ _)

/-- **A number is too great at some digit just if it is too great in the end.** -/
theorem foldlM_readDigit {limit : Nat} (hdigits : ∀ c ∈ digits, c.isDigit = true)
    (hn : n ≤ limit) : digits.foldlM (readDigit limit) n =
      if limit < Nat.ofDigitChars 10 digits n then none
      else some (Nat.ofDigitChars 10 digits n) := by
  induction digits generalizing n with
  | nil => simp [hn]
  | cons c ds ih =>
    rw [List.forall_mem_cons] at hdigits
    rw [List.foldlM_cons, Nat.ofDigitChars_cons, readDigit]
    by_cases hnext : 10 * n + (c.toNat - '0'.toNat) ≤ limit
    · rw [if_pos ⟨hdigits.1, hnext⟩]
      exact ih hdigits.2 hnext
    · have hlt := Nat.lt_of_lt_of_le (Nat.not_le.mp hnext) (le_ofDigitChars ds _)
      rw [if_neg fun h => hnext h.2, if_pos hlt]
      rfl

/-- Digits give the number that they are, if it is within the limit. -/
theorem readDigits_eq {limit : Nat} (hdigits : ∀ c ∈ digits, c.isDigit = true) :
    readDigits limit digits =
      if digits.isEmpty ∨ limit < natOfDigits 10 digits then none
      else some (natOfDigits 10 digits) := by
  rw [readDigits, natOfDigits_eq hdigits, foldlM_readDigit hdigits (Nat.zero_le limit)]
  by_cases hnone : digits.isEmpty <;> simp [hnone]

end Number

/-! ## The first line -/

namespace Text

/-- **The first line of a text:** all of a text without a line feed, and what is in front of the
first line feed otherwise, without one carriage return at its end. -/
inductive IsFirstLine : List Char → List Char → Prop where
  | whole {line : List Char} (hline : '\n' ∉ line) : IsFirstLine line line
  | feed {line : List Char} (rest : List Char) (hline : '\n' ∉ line) (hend : '\r' ∉ line.getLast?) :
    IsFirstLine (line ++ '\n' :: rest) line
  | returnFeed {line : List Char} (rest : List Char) (hline : '\n' ∉ line) :
    IsFirstLine (line ++ '\r' :: '\n' :: rest) line

/-- **A text is cut in two at the first character without a property.** -/
theorem takeWhile_dropWhile_append (p : Char → Bool) {u v : List Char}
    (hu : ∀ c ∈ u, p c = true) (hv : ∀ c ∈ v.head?, p c = false) :
    (u ++ v).takeWhile p = u ∧ (u ++ v).dropWhile p = v := by
  rw [List.takeWhile_append_of_pos hu, List.dropWhile_append_of_pos hu]
  cases v with
  | nil => simp
  | cons c v =>
    have hc : ¬ p c = true := Bool.eq_false_iff.mp (hv c rfl)
    rw [List.takeWhile_cons_of_neg hc, List.dropWhile_cons_of_neg hc, List.append_nil]
    exact ⟨rfl, rfl⟩

section SplitFirst

variable {sep : Char} {s : List Char}

/-- A text without a separator is in front of it. -/
theorem splitFirst_of_not_mem (hs : sep ∉ s) : splitFirst sep s = (s, none) := by
  have hall : ∀ c ∈ s, (c != sep) = true := fun c hc => bne_iff_ne.mpr fun heq => hs (heq ▸ hc)
  obtain ⟨htake, hdrop⟩ := takeWhile_dropWhile_append (· != sep) hall (v := []) (by simp)
  rw [List.append_nil] at htake hdrop
  rw [splitFirst, htake, hdrop]
  rfl

/-- The text in front of the first separator, and the text behind it. -/
theorem splitFirst_append (hs : sep ∉ s) (rest : List Char) :
    splitFirst sep (s ++ sep :: rest) = (s, some rest) := by
  have hall : ∀ c ∈ s, (c != sep) = true := fun c hc => bne_iff_ne.mpr fun heq => hs (heq ▸ hc)
  obtain ⟨htake, hdrop⟩ := takeWhile_dropWhile_append (· != sep) hall (v := sep :: rest) (by simp)
  rw [splitFirst, htake, hdrop]
  rfl

end SplitFirst

end Text

namespace Lua

/-- A text without a line feed is its own first line. -/
theorem firstLine_of_not_mem {s : List Char} (h : '\n' ∉ s) : firstLine s = s := by
  rw [firstLine, Text.splitFirst_of_not_mem h]

/-- What stands in front of the first line feed, as a line. -/
theorem firstLine_append {s : List Char} (hs : '\n' ∉ s) (rest : List Char) :
    firstLine (s ++ '\n' :: rest) = dropReturn s := by
  rw [firstLine, Text.splitFirst_append hs]

/-- **The first line that a failure is reported with.** -/
theorem firstLine_eq_iff {text line : List Char} :
    firstLine text = line ↔ Text.IsFirstLine text line := by
  constructor
  · rintro rfl
    by_cases hfeed : '\n' ∈ text
    · obtain ⟨s, rest, rfl, hs⟩ := List.eq_append_cons_of_mem hfeed
      rw [firstLine_append hs, dropReturn]
      split_ifs with hend
      · obtain ⟨t, rfl⟩ := List.getLast?_eq_some_iff.mp hend
        rw [List.dropLast_concat, List.append_assoc]
        exact .returnFeed rest fun h => hs (List.mem_append_left _ h)
      · exact .feed rest hs hend
    · rw [firstLine_of_not_mem hfeed]
      exact .whole hfeed
  · rintro (hline | ⟨rest, hline, hend⟩ | ⟨rest, hline⟩)
    · exact firstLine_of_not_mem hline
    · rw [firstLine_append hline, dropReturn]
      exact if_neg hend
    · have hreturn : '\n' ∉ line ++ ['\r'] := by simp [hline]
      have hsplit := firstLine_append hreturn rest
      rw [dropReturn, if_pos (by simp), List.dropLast_concat, List.append_assoc] at hsplit
      exact hsplit

/-! ## Mentions of the program -/

/-- **A text that names a line,** in its parts. The first mention of the program is followed by the
numeral of a line; behind all of its digits stand colons and then blanks, and behind all of those
the rest. -/
structure Mention (text : List Char) (line : Nat) (rest : List Char) where
  before : List Char
  digits : List Char
  colons : List Char
  blanks : List Char
  text_eq : text = before ++ (chunkName.toList ++ [':']) ++ (digits ++ (colons ++ (blanks ++ rest)))
  /-- What is in front holds no mention. -/
  first : Text.FirstAt (chunkName.toList ++ [':']) before text
  numeral : Number.IsNumeral digits line
  line_lt : line < UInt64.size
  -- Digits, colons and blanks are taken as far as they go.
  digits_end : ∀ c ∈ (colons ++ (blanks ++ rest)).head?, c.isDigit = false
  colons_eq : ∀ c ∈ colons, c = ':'
  colons_end : ∀ c ∈ (blanks ++ rest).head?, c ≠ ':'
  blanks_blank : ∀ c ∈ blanks, Text.isBlank c = true
  blanks_end : ∀ c ∈ rest.head?, Text.isBlank c = false

variable {text rest : List Char} {line : Nat}

/-- A text that names a line has that line. -/
theorem Mention.splitLocation_eq (m : Mention text line rest) :
    splitLocation text = some (line, rest) := by
  obtain ⟨before, digits, colons, blanks, htext, hfirst, hnumeral, hline, hdigits, hcolons, hcolon,
    hblanks, hblank⟩ := m
  have hfind := Text.findText_eq_some_iff.mpr ⟨htext, hfirst⟩
  obtain ⟨hne, hall, hvalue⟩ := Number.isNumeral_iff.mp hnumeral
  obtain ⟨htake, hdrop⟩ := Text.takeWhile_dropWhile_append Char.isDigit hall hdigits
  have htail := (Text.takeWhile_dropWhile_append (· == ':')
    (fun c hc => beq_iff_eq.mpr (hcolons c hc))
    fun c hc => beq_eq_false_iff_ne.mpr (hcolon c hc)).2
  have hrest := (Text.takeWhile_dropWhile_append Text.isBlank hblanks hblank).2
  have hmax : ¬ maxLine < line := Nat.not_lt.mpr (Nat.le_sub_one_of_lt hline)
  rw [splitLocation, hfind]
  simp only [htake, hdrop, htail, Text.trimStart, hrest, hvalue]
  rw [if_neg (by simp [hne, hmax])]

/-- The parts of a text that has a line. -/
theorem exists_mention {before after : List Char}
    (hfind : Text.findText (chunkName.toList ++ [':']) text = some (before, after))
    (hdigits : after.takeWhile Char.isDigit ≠ [])
    (hmax : Number.natOfDigits 10 (after.takeWhile Char.isDigit) ≤ maxLine) :
    Nonempty (Mention text (Number.natOfDigits 10 (after.takeWhile Char.isDigit))
      (Text.trimStart ((after.dropWhile Char.isDigit).dropWhile (· == ':')))) := by
  obtain ⟨htext, hfirst⟩ := Text.findText_eq_some_iff.mp hfind
  have hall (p : Char → Bool) (s : List Char) : ∀ c ∈ s.takeWhile p, p c = true :=
    fun c hc => List.mem_takeWhile_imp hc
  have hend (p : Char → Bool) (s : List Char) : ∀ c ∈ (s.dropWhile p).head?, p c = false := by
    intro c hc
    simpa [Option.mem_def.mp hc] using List.head?_dropWhile_not p s
  let tail := after.dropWhile Char.isDigit
  let message := tail.dropWhile (· == ':')
  have hmessage : message.takeWhile Text.isBlank ++ Text.trimStart message = message :=
    List.takeWhile_append_dropWhile
  have htail : tail.takeWhile (· == ':') ++ message = tail := List.takeWhile_append_dropWhile
  exact ⟨{
    before := before
    digits := after.takeWhile Char.isDigit
    colons := tail.takeWhile (· == ':')
    blanks := message.takeWhile Text.isBlank
    text_eq := by
      rw [hmessage, htail, List.takeWhile_append_dropWhile]
      exact htext
    first := hfirst
    numeral := Number.isNumeral_iff.mpr ⟨hdigits, hall _ _, rfl⟩
    line_lt := Nat.lt_of_le_pred (by decide) hmax
    digits_end := by
      rw [hmessage, htail]
      exact hend _ _
    colons_eq := fun c hc => beq_iff_eq.mp (hall (· == ':') _ c hc)
    colons_end := by
      rw [hmessage]
      exact fun c hc => beq_eq_false_iff_ne.mp (hend (· == ':') _ c hc)
    blanks_blank := hall _ _
    blanks_end := hend _ _ }⟩

/-- **Which line a text names,** and what follows it. -/
theorem splitLocation_eq_some_iff :
    splitLocation text = some (line, rest) ↔ Nonempty (Mention text line rest) := by
  refine ⟨fun h => ?_, fun ⟨m⟩ => m.splitLocation_eq⟩
  unfold splitLocation at h
  split at h
  · cases h
  · rename_i before after hfind
    dsimp only at h
    split_ifs at h with hnone
    rw [not_or, Nat.not_lt] at hnone
    obtain ⟨rfl, rfl⟩ := Prod.mk.inj (Option.some.inj h)
    exact exists_mention hfind (by simpa using hnone.1) hnone.2

/-- **A text that may stand behind a line:** it does not begin with a colon or with a blank. -/
def BeginsPlainly (message : List Char) : Prop :=
  ∀ c ∈ message.head?, c ≠ ':' ∧ Text.isBlank c = false

/-- **A line comes back** with the text behind it, if the program is not mentioned in front. -/
theorem splitLocation_mention {before message : List Char} {line : Nat}
    (hbefore : ¬ chunkName.toList ++ [':'] <:+: before) (hline : line ≤ maxLine)
    (hmessage : BeginsPlainly message) :
    splitLocation (before ++ (chunkName.toList ++ [':']) ++
        ((toString line).toList ++ (':' :: ' ' :: message))) = some (line, message) := by
  have hnumeral : Number.IsNumeral (toString line).toList line := by
    refine ⟨0, ?_⟩
    rw [Nat.toString_eq_repr, Nat.toList_repr]
    rfl
  have hfind := Text.findText_append ((toString line).toList ++ (':' :: ' ' :: message))
    (by decide) hbefore
  exact Mention.splitLocation_eq {
    before := before
    digits := (toString line).toList
    colons := [':']
    blanks := [' ']
    text_eq := rfl
    first := (Text.findText_eq_some_iff.mp hfind).2
    numeral := hnumeral
    line_lt := Nat.lt_of_le_pred (by decide) hline
    digits_end := by simp
    colons_eq := by simp
    colons_end := by simp
    blanks_blank := by simp [Text.isBlank]
    blanks_end := fun c hc => (hmessage c hc).2 }

/-! ## Offsets in bytes -/

/-- **The line that a text names, by offsets in bytes.** The bytes of the program's name are looked
for in those of the text, which is then cut behind them, and before and behind the digits. There is
nothing, not even an answer that no line is named, if a cut falls into a character. -/
def cutLocation (text : List Char) : Option (Option (Nat × List Char)) :=
  let name := chunkName.toList ++ [':']
  match Text.findBytes (Bytes.ofChars name) (Bytes.ofChars text) with
  | none => some none
  | some start => do
    let after ← Text.dropBytes (start + Text.utf8Length name) text
    let stop := (Text.offsetWhere (fun c => !c.isDigit) after).getD (Text.utf8Length after)
    let digits ← Text.takeBytes stop after
    match Number.readDigits maxLine digits with
    | none => some none
    | some line =>
      let tail ← Text.dropBytes stop after
      return some (line, Text.trimStart (tail.dropWhile (· == ':')))

/-- **The offsets are those of characters,** so every text is cut, and comes to its line. -/
theorem cutLocation_eq (text : List Char) : cutLocation text = some (splitLocation text) := by
  have hname : chunkName.toList ++ [':'] ≠ [] := by simp
  rw [cutLocation, splitLocation]
  simp only [Text.findBytes_ofChars hname]
  cases hfind : Text.findText (chunkName.toList ++ [':']) text with
  | none => rfl
  | some found =>
    obtain ⟨before, after⟩ := found
    have hcut : Text.dropBytes
        (Text.utf8Length before + Text.utf8Length (chunkName.toList ++ [':'])) text = some after := by
      rw [(Text.findText_eq_some_iff.mp hfind).1, ← Text.utf8Length_append, Text.dropBytes_append]
    have hdigits : ∀ c ∈ after.takeWhile Char.isDigit, c.isDigit = true :=
      fun c hc => List.mem_takeWhile_imp hc
    have htake := Text.takeBytes_append (after.takeWhile Char.isDigit)
      (after.dropWhile Char.isDigit)
    have hdrop := Text.dropBytes_append (after.takeWhile Char.isDigit)
      (after.dropWhile Char.isDigit)
    rw [List.takeWhile_append_dropWhile] at htake hdrop
    simp only [Option.map_some, hcut, Option.bind_eq_bind, Option.bind_some, Text.getD_offsetWhere,
      htake, hdrop, Number.readDigits_eq hdigits]
    split_ifs <;> rfl

/-! ## The line of a failure -/

/-- **The line of a failure, and what is said behind it.** A line that is written behind the name of
the program, in front of a colon, a blank and a message, comes back with the message. Any text can
be cut by offsets in bytes; it names a line exactly if its first mention of the program is followed
by the numeral of one. A failure is reported with the line that the first line of its text names and
with what follows it, and with all of the first line if there is none. -/
theorem location_law :
    (∀ (before : List Char) (line : Nat) (message : List Char),
      ¬ chunkName.toList ++ [':'] <:+: before → line < UInt64.size → BeginsPlainly message →
      splitLocation (before ++ (chunkName.toList ++ [':']) ++
        ((toString line).toList ++ (':' :: ' ' :: message))) = some (line, message)) ∧
    (∀ text, cutLocation text = some (splitLocation text)) ∧
    (∀ text line rest, splitLocation text = some (line, rest) ↔ Nonempty (Mention text line rest)) ∧
    ∀ f : Failure, ∃ first, Text.IsFirstLine f.text.toList first ∧
      (∀ line rest, Nonempty (Mention first line rest) →
        f.diagnostic = .errorAt line (String.ofList rest)) ∧
      ((∀ line rest, IsEmpty (Mention first line rest)) →
        f.diagnostic = .error (String.ofList first)) := by
  refine ⟨fun before line message hbefore hline hmessage => ?_, cutLocation_eq,
    fun text line rest => splitLocation_eq_some_iff, fun f => ?_⟩
  · exact splitLocation_mention hbefore (Nat.le_sub_one_of_lt hline) hmessage
  refine ⟨firstLine f.text.toList, firstLine_eq_iff.mp rfl, fun line rest hmention => ?_,
    fun hnone => ?_⟩
  · rw [Failure.diagnostic, splitLocation_eq_some_iff.mpr hmention]
  · have hline : splitLocation (firstLine f.text.toList) = none := by
      rw [Option.eq_none_iff_forall_ne_some]
      rintro ⟨line, rest⟩ h
      exact (splitLocation_eq_some_iff.mp h).elim (hnone line rest).false
    rw [Failure.diagnostic, hline]

/-- The greatest line comes back behind letters of several bytes, with a message that mentions the
program again. Zeros, colons and a wide blank are passed over. Behind a number that is no line the
first line is left as it is, whatever the second one says. -/
theorem location_law_awkward :
    let name := chunkName.toList ++ [':']
    let before := "é template 7: ".toList
    let message := "'=' near 'template:3: ü'".toList
    let text := "é: template:007::\u3000ü".toList
    let failure := Failure.runtime "ü template:18446744073709551616: x\r\ntemplate:1: y"
    ¬ name <:+: before ∧ 18446744073709551615 < UInt64.size ∧ BeginsPlainly message ∧
    splitLocation (before ++ name ++
        ((toString 18446744073709551615).toList ++ (':' :: ' ' :: message))) =
      some (18446744073709551615, message) ∧
    Nonempty (Mention text 7 ['ü']) ∧ cutLocation text = some (some (7, ['ü'])) ∧
    failure.diagnostic = .error "runtime error: ü template:18446744073709551616: x" := by
  intro name before message text failure
  obtain ⟨hback, hcut, hnames, hfailure⟩ := location_law
  have hbefore : ¬ name <:+: before := by decide +kernel
  have hplainly : BeginsPlainly message := by
    intro c hc
    obtain rfl : '\'' = c := Option.some.inj hc
    decide
  have htext : splitLocation text = some (7, ['ü']) := by decide +kernel
  obtain ⟨first, hfirst, -, hnone⟩ := hfailure failure
  have hline : firstLine failure.text.toList =
      "runtime error: ü template:18446744073709551616: x".toList := by decide +kernel
  obtain rfl := (firstLine_eq_iff.mpr hfirst).symm.trans hline
  refine ⟨hbefore, by decide, hplainly, hback _ _ _ hbefore (by decide) hplainly,
    (hnames _ _ _).mp htext, (hcut text).trans (congrArg some htext),
    hnone fun line rest => ⟨fun m => ?_⟩⟩
  -- The number behind the mention is one more than the greatest line.
  have hbeyond :
      splitLocation "runtime error: ü template:18446744073709551616: x".toList = none := by
    decide +kernel
  exact absurd (hbeyond.symm.trans ((hnames _ _ _).mpr ⟨m⟩)) nofun

end Lua

end Stencil
