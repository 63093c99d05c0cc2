import Stencil.Proofs.Lua.Naming
set_option autoImplicit false

/-!
# Literals of a program

A text of the template stands in its program as a string literal. The literal is one token,
whatever follows it, and its value is the bytes of the text. It has no line break, so the statement
that writes the text takes one line of the program.

## Main results

* `Stencil.Lua.Bytes.ofText_eq_toUTF8` — the bytes of a text are its UTF-8 encoding.
* `Stencil.Lua.isBreak_quote` — a literal has no line break.
* `Stencil.Lua.bodyLines_literal` — the statement for a literal part is a line of its program.
* `Stencil.Lua.quote_readBack` — a literal is read back, and takes one line.
-/

namespace Stencil.Lua

/-! ## Bytes -/

/-- **The bytes of a text are its UTF-8 encoding.** -/
theorem Bytes.ofText_eq_toUTF8 (t : String) : Bytes.ofText t = t.toUTF8.data.toList := by
  obtain ⟨s, rfl⟩ : ∃ s, t = String.ofList s := ⟨t.toList, String.ofList_toList.symm⟩
  rw [Bytes.ofText, String.toList_ofList]
  show _ = (String.ofList s).toByteArray.data.toList
  rw [String.toByteArray_ofList]
  simp [Bytes.ofChars, List.utf8Encode]

/-! ## Lines -/

/-- A digit ends no line. -/
theorem isBreak_digitChar {n : Nat} (h : n < 10) : isBreak (Nat.digitChar n) = false := by
  have hall : ∀ m < 10, isBreak (Nat.digitChar m) = false := by decide
  exact hall n h

/-- No character of a literal ends a line. -/
theorem isBreak_quoteChar (c : Char) : ∀ d ∈ quoteChar c, isBreak d = false := by
  have hdigit (n : Nat) : isBreak (Nat.digitChar (n % 10)) = false :=
    isBreak_digitChar (Nat.mod_lt n (by decide))
  unfold quoteChar
  split_ifs with hslash hquote hn hr ht hcontrol
  all_goals simp only [List.mem_cons, List.not_mem_nil, or_false, threeDigits]
  all_goals rintro d hd
  · rcases hd with rfl | rfl <;> rfl
  · rcases hd with rfl | rfl <;> rfl
  · rcases hd with rfl | rfl <;> rfl
  · rcases hd with rfl | rfl <;> rfl
  · rcases hd with rfl | rfl <;> rfl
  · rcases hd with rfl | rfl | rfl | rfl
    · rfl
    all_goals exact hdigit _
  · subst hd
    simp [isBreak, hn, hr]

/-- **A literal has no line break.** -/
theorem isBreak_quote (t : String) : ∀ c ∈ (quote t).toList, isBreak c = false := by
  intro c hc
  rw [quote, String.toList_ofList, quoteText, List.cons_append, List.mem_cons, List.mem_append,
    List.mem_singleton, List.mem_flatMap] at hc
  rcases hc with rfl | ⟨d, -, hc⟩ | rfl
  · rfl
  · exact isBreak_quoteChar d c hc
  · rfl

/-- No character of the statement for a literal part ends a line. -/
theorem isBreak_writeStatement_quote (t : String) :
    ∀ c ∈ (writeStatement (quote t)).toList, isBreak c = false := by
  have hopen : ∀ c ∈ "  __write(".toList, isBreak c = false := by simp [isBreak]
  intro c hc
  rw [writeStatement, String.toList_append, String.toList_append, List.mem_append,
    List.mem_append] at hc
  rcases hc with (hc | hc) | hc
  · exact hopen c hc
  · exact isBreak_quote t c hc
  · obtain rfl : c = ')' := by simpa using hc
    rfl

/-- The lines of parts one behind the other. -/
theorem bodyLines_append {parts parts' body : List String} :
    bodyLines (parts ++ parts') = .ok body ↔ ∃ ls ls', bodyLines parts = .ok ls ∧
      bodyLines parts' = .ok ls' ∧ body = ls ++ ls' := by
  simp only [bodyLines, List.mapM_append]
  cases parts.mapM partStatement with
  | error e => simp [bind, Except.bind, Except.map]
  | ok statements =>
    cases parts'.mapM partStatement with
    | error e => simp [bind, Except.bind, Except.map]
    | ok statements' =>
      simp [bind, Except.bind, pure, Except.pure, Except.map, List.filterMap_append, eq_comm]

/-- The lines of a literal part and those behind it. -/
theorem bodyLines_literal {part : String} {parts body : List String}
    (hblock : isBlock part.toList = false) (hne : part ≠ "")
    (h : bodyLines (part :: parts) = .ok body) :
    ∃ ls, bodyLines parts = .ok ls ∧ body = writeStatement (quote part) :: ls := by
  have hempty : part.toList.isEmpty = false := by
    rw [List.isEmpty_eq_false_iff]
    exact fun h => hne (String.toList_eq_nil_iff.mp h)
  have hpart : partStatement part = .ok (some (writeStatement (quote part))) := by
    simp only [partStatement, hblock, hempty]
    rfl
  rw [← List.singleton_append, bodyLines_append] at h
  obtain ⟨first, ls, hfirst, hls, rfl⟩ := h
  refine ⟨ls, hls, ?_⟩
  have hsingle : bodyLines [part] = .ok [writeStatement (quote part)] := by
    rw [bodyLines, List.mapM_cons, hpart]
    rfl
  rw [hsingle] at hfirst
  rw [← Except.ok.inj hfirst]
  rfl

/-! ## Literals -/

/-- **A literal is read back, and takes one line.** In front of any text the literal of a text is
one token in quotes, which ends where the other text begins, and whose value is the UTF-8 encoding
of the text; the tokens behind it are those of the other text. It has no line break. So the
statement for a literal part stands on one line of its program, behind the lines of the parts before
it and in front of those of the parts behind it. -/
theorem quote_readBack (t : String) :
    (quote t).toList.head? = some '"' ∧
    (∀ line r, readToken line ((quote t).toList ++ r) =
      .ok ⟨.string t.toUTF8.data.toList, line, r⟩) ∧
    (∀ r, tokenize ((quote t).toList ++ r) = ⟨.string t.toUTF8.data.toList, 1⟩ :: tokenize r) ∧
    (∀ c ∈ (quote t).toList, c ≠ '\n' ∧ c ≠ '\r') ∧
    ∀ input program before after, generate input = .ok program →
      input.codeParts = before ++ t :: after → isBlock t.toList = false → t ≠ "" →
      ∃ ls ls', bodyLines before = .ok ls ∧ bodyLines after = .ok ls' ∧
        program = (Outline.ofInput input).text (header input)
          (ls ++ writeStatement (quote t) :: ls') ∧
        ∀ c ∈ (writeStatement (quote t)).toList, isBreak c = false := by
  have hbytes : Bytes.ofChars t.toList = t.toUTF8.data.toList := Bytes.ofText_eq_toUTF8 t
  have hchars : (quote t).toList = quoteText t.toList := String.toList_ofList
  rw [hchars, ← hbytes]
  refine ⟨rfl, fun line r => readToken_quoteText line t.toList r, fun r => ?_, fun c hc => ?_, ?_⟩
  · rw [tokenize_eq_lex, readsAs_quoteText t.toList 1 r trivial]
    rfl
  · have hbreak := isBreak_quote t c (hchars ▸ hc)
    simpa [isBreak] using hbreak
  · intro input program before after hgenerate hparts hblock hne
    obtain ⟨-, body, hbody, hprogram⟩ := generate_eq_ok_iff.mp hgenerate
    rw [hparts] at hbody
    obtain ⟨ls, more, hls, hmore, rfl⟩ := bodyLines_append.mp hbody
    obtain ⟨ls', hls', rfl⟩ := bodyLines_literal hblock hne hmore
    exact ⟨ls, ls', hls, hls', hprogram, isBreak_writeStatement_quote t⟩

/-- A quote, a digit behind a control character, and a line break, between two other parts. -/
def awkward : HandlerInput where
  language := "Lua5.4"
  imports := .ofList ["codet"]
  references := .empty
  codeParts := ["<% x = 1 %>", "\"\x011\n", "<%= x %>"]
  stateType := ⟨"S", "", []⟩
  parameterName := "s"

/-- The literal of that part is read back, and its statement is the second of three. -/
theorem quote_readBack_awkward :
    quote "\"\x011\n" = "\"\\\"\\0011\\n\"" ∧
    tokenize ((quote "\"\x011\n").toList ++ "1\"".toList) =
      ⟨.string [0x22, 0x01, 0x31, 0x0A], 1⟩ :: tokenize "1\"".toList ∧
    ∃ program, generate awkward = .ok program ∧
      program = (Outline.ofInput awkward).text (header awkward)
        ["  x = 1", "  __write(\"\\\"\\0011\\n\")", "  __write(x)"] := by
  have hquote : quote "\"\x011\n" = "\"\\\"\\0011\\n\"" := by decide
  have hbytes : "\"\x011\n".toUTF8.data.toList = [0x22, 0x01, 0x31, 0x0A] := by decide
  obtain ⟨-, -, htokens, -, hline⟩ := quote_readBack "\"\x011\n"
  refine ⟨hquote, hbytes ▸ htokens _, ?_⟩
  obtain ⟨program, hprogram⟩ : ∃ program, generate awkward = .ok program := by
    have hsignature : signature awkward = .ok ⟨["s"], ["__state"]⟩ := by cbv
    have himports : importLines awkward.imports = .ok [importStatement "codet" "codet"] := by cbv
    have hbody : bodyLines awkward.codeParts =
        .ok ["  x = 1", "  __write(\"\\\"\\0011\\n\")", "  __write(x)"] := by
      cbv
    rw [generate, hsignature, himports, hbody]
    exact ⟨_, rfl⟩
  obtain ⟨ls, ls', hls, hls', htext, -⟩ := hline awkward program ["<% x = 1 %>"] ["<%= x %>"]
    hprogram rfl (by decide) (by decide)
  have hfirst : bodyLines ["<% x = 1 %>"] = .ok ["  x = 1"] := by cbv
  have hlast : bodyLines ["<%= x %>"] = .ok ["  __write(x)"] := by cbv
  obtain rfl : ["  x = 1"] = ls := Except.ok.inj (hfirst.symm.trans hls)
  obtain rfl : ["  __write(x)"] = ls' := Except.ok.inj (hlast.symm.trans hls')
  rw [hquote] at htext
  exact ⟨program, hprogram, htext⟩

end Stencil.Lua
