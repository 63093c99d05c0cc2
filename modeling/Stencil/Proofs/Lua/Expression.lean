import Stencil.Proofs.Lua.Separation
set_option autoImplicit false

/-!
# The expression of a block

A block that begins with an equals sign is one statement, which writes the value of the expression
inside. What is written is that value as a string, and nothing for `nil`; a literal behind it
follows.

## Main definitions

* `Stencil.Lua.Calls` — a statement that writes an expression, at some line.

## Main results

* `Stencil.Template.parse_expression` — the parts of an expression and a literal behind it.
* `Stencil.Lua.ofTokens_generate_expression` — their statements, and what these write.
-/

namespace Stencil

open Text (FirstAt)

namespace Template

/-! ## The parts -/

/-- Where the closing marker does not occur inside, it ends a block. -/
theorem isBlock_blockText {body : List Char} (h : ¬ Mode.inside.marker <:+: body) :
    IsBlock (blockText body) := by
  refine ⟨body, rfl, List.prefix_refl _, fun u hu => Nat.le_of_not_lt fun hlt => ?_⟩
  rcases List.prefix_concat_iff.mp
    (show u ++ ['%', '>'] <+: (body ++ ['%']) ++ ['>'] by simpa [Mode.marker] using hu)
    with heq | hu
  · have hlength := congrArg List.length heq
    simp at hlength
    omega
  · rcases List.prefix_concat_iff.mp hu with heq | hu
    · have hlast := congrArg List.getLast? heq
      simp at hlast
    · exact h ((List.suffix_append u _).isInfix.trans hu.isInfix)

/-- The text of a block with an expression. -/
theorem toList_expression (e : String) :
    ("<%=" ++ e ++ "%>").toList = blockText ('=' :: e.toList) := by
  simp [blockText, Mode.marker]

/-- The block of an expression, inside of which the closing marker does not occur. -/
theorem isBlock_expression {e : String} (he : ¬ Mode.inside.marker <:+: e.toList) :
    IsBlock ("<%=" ++ e ++ "%>").toList := by
  rw [toList_expression]
  refine isBlock_blockText fun h => ?_
  rcases List.infix_cons_iff.mp h with hp | h
  · have hfirst := (List.cons_prefix_cons.mp hp).1
    simp at hfirst
  · exact he h

/-- A block with an expression is no directive. -/
theorem classify_expression (e : String) : classify ("<%=" ++ e ++ "%>").toList = none := by
  rw [toList_expression, classify]
  simp [directiveStart, blockText, Mode.marker, List.isPrefixOf]

/-- A literal is no directive. -/
theorem IsLiteral.classify_eq {t : List Char} (h : IsLiteral t) : classify t = none := by
  have hprefix : directiveStart.isPrefixOf t = false := by
    refine Bool.eq_false_iff.mpr fun hp => h.2 ?_
    exact (List.prefix_append ['<', '%'] ['@']).isInfix.trans
      (List.isPrefixOf_iff_prefix.mp hp).isInfix
  rw [classify, hprefix]
  rfl

/-- **The parts of an expression and a literal behind it.** -/
theorem parse_expression (config : ParserConfig) {e lit : String}
    (he : ¬ Mode.inside.marker <:+: e.toList) (hlit : IsLiteral lit.toList) :
    ∃ unit, parse config ("<%=" ++ e ++ "%>" ++ lit) = .ok unit ∧
      unit.codeParts = ["<%=" ++ e ++ "%>", lit] := by
  let block : Segment := ⟨blockText ('=' :: e.toList), none⟩
  let literal : Segment := ⟨lit.toList, none⟩
  have hblock : IsBlock (blockText ('=' :: e.toList)) := toList_expression e ▸ isBlock_expression he
  have hc : Canonical [block, literal] := by
    refine canonical_cons.mpr ⟨.inr hblock, fun h => absurd h hblock.not_isLiteral, ?_, ?_⟩
    · rw [expectedBreak_blockText]
      rfl
    · exact canonical_cons.mpr ⟨.inl hlit, by simp, (hlit.expectedBreak_eq _).symm, canonical_nil⟩
  have hsource : ("<%=" ++ e ++ "%>" ++ lit).toList = rawText [block, literal] := by
    simp [block, literal, Segment.raw, blockText, Mode.marker]
  obtain ⟨parts, hparts, hsegments, -⟩ := split_of_canonical hc hsource
  obtain ⟨p, q, rfl, hp, hq⟩ :
      ∃ p q, parts = [p, q] ∧ p.segment = block ∧ q.segment = literal := by
    rcases parts with _ | ⟨p, _ | ⟨q, _ | ⟨r, rest⟩⟩⟩
    · simp at hsegments
    · simp at hsegments
    · exact ⟨p, q, rfl, by simpa using hsegments⟩
    · simp at hsegments
  have hptext : p.text = "<%=" ++ e ++ "%>" := by
    rw [← String.toList_inj, toList_expression]
    exact congrArg Segment.text hp
  have hqtext : q.text = lit := String.toList_inj.mp (congrArg Segment.text hq)
  have hkinds : ∀ r ∈ [p, q], r.kind ≠ some .configuration := by
    have hpkind : p.kind = none := by
      rw [Part.kind, hptext]
      exact classify_expression e
    have hqkind : q.kind = none := by
      rw [Part.kind, hqtext]
      exact hlit.classify_eq
    simp [hpkind, hqkind]
  obtain ⟨unit, hunit, hcode, -⟩ := parse_of_split config hparts hkinds
  exact ⟨unit, hunit, by rw [hcode, List.map_cons, List.map_cons, hptext, hqtext]; rfl⟩

end Template

namespace Lua

open Template (IsLiteral IsBlock)
open Juncture (SameBlock SameStat SameExp)

/-! ## The statements -/

/-- What stands between the markers of a block. -/
theorem blockInside_blockText (body : List Char) :
    blockInside (Template.blockText body) = body := by
  simp [blockInside, Template.blockText, Template.Mode.marker]

/-- **A statement that writes an expression,** at some line. -/
def Calls (x : Exp) (s : Stat) : Prop :=
  ∃ n, s = .call (.call n (.var "__write".toList) [x])

/-- A statement that is the same without its lines writes the same expression. -/
theorem exists_calls {x : Exp} {s : Stat} (h : SameStat (writeStat x) s) :
    ∃ y, SameExp x y ∧ Calls y s := by
  cases s with
  | call e =>
    simp only [SameStat, writeStat, Stat.shape, Stat.call.injEq] at h
    cases e with
    | call n g args =>
      simp only [Exp.shape, Exp.shapes_eq_map, Exp.call.injEq, true_and, List.map_cons,
        List.map_nil] at h
      obtain ⟨hg, hargs⟩ := h
      obtain ⟨y, rfl⟩ : ∃ y, args = [y] := by
        rw [← List.length_eq_one_iff]
        simpa using (congrArg List.length hargs).symm
      cases g with
      | var name =>
        simp only [Exp.shape, Exp.var.injEq] at hg
        exact ⟨y, by simpa [SameExp] using hargs, n, by rw [hg]⟩
      | _ => simp [Exp.shape] at hg
    | _ => simp [Exp.shape] at h
  | _ => simp [SameStat, writeStat, Stat.shape] at h

/-! ## What they write -/

section Write

variable {fuel out : Nat} {m m₁ : Machine} {texts : List Bytes} {includes : Option Resolver}
  {f : Frame}

/-- **A run that leaves the program's own variables** and what has been written as they are. -/
structure Undisturbed (includes : Option Resolver) (out : Nat) (m m₁ : Machine) (env : Env)
    (texts : List Bytes) : Prop where
  writing : Writing includes out m₁ env texts
  writer : ∀ n c, Writer m n out c → Writer m₁ n out c

/-- **The statement that writes an expression** writes its first value. -/
theorem execute_calls (fuel : Nat) {y : Exp} {s : Stat} {vs : Arguments} (hs : Calls y s)
    (h : Writing includes out m f.env texts)
    (hvalue : evaluateList (fuel + 18) f [y] m = .done vs m₁)
    (hm₁ : Undisturbed includes out m m₁ f.env texts) (hdepth : f.trace.depth + 1 < maxDepth)
    (hcrossings : f.trace.crossings < maxCrossings) (hlength : texts.length + 1 < 2 ^ 63) :
    ∃ m', execute (fuel + 20) f s m = .done (.next f.env) m' ∧
      Writing includes out m' f.env (texts ++ written (vs.headD .nil)) := by
  obtain ⟨n, rfl⟩ := hs
  obtain ⟨k, c, hwrite, hc⟩ := h.write
  obtain ⟨m', hexecute, hwrites, htable⟩ := execute_write fuel n hwrite hvalue (hm₁.writer k c hc)
    hdepth hcrossings hm₁.writing.table hlength
  exact ⟨m', hexecute, hm₁.writing.step hwrites htable⟩

/-- **Statements that write the value of an expression and then a text,** in any machine that is
at writing, if the expression has values and leaves the program's own variables as they are. -/
def WritesThen (x : Exp) (text : String) (b : Block) : Prop :=
  ∃ y, SameExp x y ∧ ∀ (fuel base out : Nat) (f : Frame) (whole rest : Block) (m m₁ : Machine)
    (vs : Arguments) (includes : Option Resolver) (texts : List Bytes),
    Writing includes out m f.env texts → f.trace.depth + 1 < maxDepth →
    f.trace.crossings < maxCrossings → texts.length + 2 < 2 ^ 63 →
    evaluateList (fuel + 19) f [y] m = .done vs m₁ →
    Undisturbed includes out m m₁ f.env texts →
    ∃ m', executeBlock (fuel + 22) f base whole (b ++ rest) m =
        executeBlock (fuel + 20) f base whole rest m' ∧
      Writing includes out m' f.env (texts ++ written (vs.headD .nil) ++ [Bytes.ofText text])

/-- **The statements for an expression and a literal** write the value and then the literal. -/
theorem writesThen {x : Exp} {text : String} {b : Block}
    (h : SameBlock [writeStat x, writeStat (.string (Bytes.ofText text))] b) :
    WritesThen x text b := by
  obtain ⟨s, t, rfl, hs, ht⟩ : ∃ s t, b = [s, t] ∧ SameStat (writeStat x) s ∧
      SameStat (writeStat (.string (Bytes.ofText text))) t := by
    rcases b with _ | ⟨s, _ | ⟨t, _ | ⟨u, rest⟩⟩⟩
    · simp [SameBlock] at h
    · simp [SameBlock] at h
    · exact ⟨s, t, rfl, by simpa [SameBlock, SameStat] using h⟩
    · simp [SameBlock] at h
  obtain ⟨y, hy, hs⟩ := exists_calls hs
  obtain ⟨z, hz, ht⟩ := exists_calls ht
  obtain rfl : z = .string (Bytes.ofText text) := by
    cases z with
    | string b => exact hz.symm
    | _ => simp [SameExp, Exp.shape] at hz
  refine ⟨y, hy, ?_⟩
  intro fuel base out f whole rest m m₁ vs includes texts hm hdepth hcrossings hlength hvalue hm₁
  obtain ⟨m₂, hfirst, hm₂⟩ := execute_calls (fuel + 1) hs hm hvalue hm₁ hdepth hcrossings (by omega)
  have hliteral : evaluateList (fuel + 18) f [.string (Bytes.ofText text)] m₂ =
      .done [.string (Bytes.ofText text)] m₂ :=
    evaluateList_value rfl (by simp) evaluate_string
  have hcount : (texts ++ written (vs.headD .nil)).length + 1 < 2 ^ 63 := by
    rw [List.length_append, written]
    split <;> simp <;> omega
  obtain ⟨m₃, hsecond, hm₃⟩ := execute_calls fuel ht hm₂ hliteral ⟨hm₂, fun _ _ h => h⟩ hdepth
    hcrossings hcount
  exact ⟨m₃, (executeBlock_next hfirst).trans (executeBlock_next hsecond), hm₃⟩

end Write

/-! ## The program -/

/-- **The statement of an expression** is the one that writes it. -/
theorem sameBlock_expression {e : String} {x : Exp} {b : Block}
    (he : ¬ Template.Mode.inside.marker <:+: e.toList) (hx : Expresses (Text.trim e.toList) x)
    (hsemicolon : ¬ EndsInSemicolon (Text.trim e.toList))
    (hcomment : endsInComment (Text.trim e.toList) = false)
    (hread : ReadsAlone ("<%=" ++ e ++ "%>") b) : SameBlock [writeStat x] b := by
  obtain ⟨text, line, hstatement, hb⟩ := hread
  have hinside : blockInside ("<%=" ++ e ++ "%>").toList = '=' :: e.toList := by
    rw [Template.toList_expression, blockInside_blockText]
  rw [partStatement_expression (Template.isBlock_expression he) (Template.classify_expression e)
    hinside] at hstatement
  obtain rfl := Option.some.inj (Except.ok.inj hstatement)
  obtain ⟨c, hc, hsame⟩ := complete_write hx hsemicolon (closable_of_not_endsInComment hcomment)
  obtain ⟨line', hc⟩ := hc.reads
  have htext : (writeStatement (String.ofList (Text.trim e.toList))).toList =
      "  __write(".toList ++ (Text.trim e.toList ++ [')']) := by
    simp [writeStatement]
  rw [htext, hc] at hb
  obtain rfl : c = b := congrArg Prod.fst (Except.ok.inj hb)
  exact hsame

/-- The statement of a literal is the one that writes it. -/
theorem sameBlock_literal {lit : String} {b : Block} (hlit : IsLiteral lit.toList)
    (hread : ReadsAlone lit b) : SameBlock [writeStat (.string (Bytes.ofText lit))] b := by
  obtain ⟨text, line, hstatement, hb⟩ := hread
  have hplain : Template.IsPlain lit := fun h => by
    rw [hlit.isBlockText] at h
    cases h
  have hpiece : Piece.ofPart lit = .literal lit := by
    rw [Piece.ofPart, hlit.isBlockText]
    rfl
  rw [partStatement_plain hplain (.inl hlit), hpiece] at hstatement
  obtain rfl := Option.some.inj (Except.ok.inj hstatement)
  obtain ⟨c, hc, hsame⟩ := complete_literal lit
  obtain ⟨line', hc⟩ := hc.reads
  rw [Piece.line, hc] at hb
  obtain rfl : c = b := congrArg Prod.fst (Except.ok.inj hb)
  exact hsame

/-- **An expression and a literal behind it** are two statements of the program, each of which is
one call of the function that writes. They write the first value of the expression as a string, or
nothing for `nil`, and then the literal.

**Proof sketch.** The parts are the block and the literal. The expression stands on its own, so the
text around it is the call that writes it, and both calls are read one after the other. -/
theorem ofTokens_generate_expression (config : Template.ParserConfig) {e lit : String} {x : Exp}
    (he : ¬ Template.Mode.inside.marker <:+: e.toList) (hlit : IsLiteral lit.toList)
    (hx : Expresses (Text.trim e.toList) x) (hsemicolon : ¬ EndsInSemicolon (Text.trim e.toList))
    (hcomment : endsInComment (Text.trim e.toList) = false) :
    ∃ unit, Template.parse config ("<%=" ++ e ++ "%>" ++ lit) = .ok unit ∧
      unit.codeParts = ["<%=" ++ e ++ "%>", lit] ∧
      ∀ (input : HandlerInput) (program : String), input.codeParts = unit.codeParts →
        (∀ c ∈ input.language.toList, isBreak c = false) →
        (∀ c ∈ input.stateType.name.toList, isBreak c = false) →
        generate input = .ok program →
        ∃ (s : Signature) (imports : List Import) (as : List Passed) (body b : Block)
          (line : Nat), signature input = .ok s ∧
          Block.ofTokens (tokenize program.toList) = .ok (b, line) ∧
          SameBlock (framed (s.parameters.map String.toList) imports body
            (as.map Passed.value)) b ∧
          SameBlock [writeStat x, writeStat (.string (Bytes.ofText lit))] body ∧
          WritesThen x lit body := by
  obtain ⟨unit, hunit, hcode⟩ := Template.parse_expression config he hlit
  refine ⟨unit, hunit, hcode, ?_⟩
  intro input program hparts hlanguage hname hgenerate
  have hself : ∀ part ∈ input.codeParts, SelfContained part := by
    have hexpression : SelfContained ("<%=" ++ e ++ "%>") := by
      intro _ _
      rw [Template.toList_expression, blockInside_blockText]
      exact ⟨⟨x, hx⟩, hsemicolon, hcomment⟩
    have hliteral : SelfContained lit := by
      intro h
      have hprefix : ['<', '%'].isPrefixOf lit.toList = false := hlit.isBlockText
      rw [isBlock, hprefix] at h
      cases h
    rw [hparts, hcode]
    simpa using ⟨hexpression, hliteral⟩
  obtain ⟨s, imports, as, bs, b, line, hs, -, -, hread, hb, hsame⟩ := exists_framed
    (fun _ hp => Template.isLiteral_or_isBlock_of_mem_codeParts hunit (hparts ▸ hp))
    (fun _ hp => Template.classify_ne_of_mem_codeParts hunit (hparts ▸ hp)) hlanguage hname
    hself hgenerate
  rw [hparts, hcode] at hread
  obtain ⟨b₁, b₂, rfl, h₁, h₂⟩ : ∃ b₁ b₂, bs = [b₁, b₂] ∧ ReadsAlone ("<%=" ++ e ++ "%>") b₁ ∧
      ReadsAlone lit b₂ := by
    rcases hread with _ | ⟨h₁, _ | ⟨h₂, _ | _⟩⟩
    exact ⟨_, _, rfl, h₁, h₂⟩
  have hboth : SameBlock [writeStat x, writeStat (.string (Bytes.ofText lit))]
      [b₁, b₂].flatten := by
    have hfirst := sameBlock_expression he hx hsemicolon hcomment h₁
    have hsecond := sameBlock_literal hlit h₂
    simp only [SameBlock, List.flatten_cons, List.flatten_nil, List.append_nil, List.map_append,
      List.map_cons, List.map_nil] at hfirst hsecond ⊢
    rw [← hfirst, ← hsecond]
    rfl
  exact ⟨s, imports, as, _, b, line, hs, hb, hsame, hboth, writesThen hboth⟩

/-- A sum in front of a literal. -/
def adding : HandlerInput where
  language := "Lua5.4"
  imports := .ofList ["codet"]
  references := .empty
  codeParts := ["<%=" ++ " 1 + 2 " ++ "%>", "!"]
  stateType := ⟨"S", "", []⟩
  parameterName := "s"

/-- The expression of the sum. -/
def onePlusTwo : Exp := .binary 1 .add (.number (.int 1)) (.number (.int 2))

/-- The sum is written, and then the literal. -/
theorem ofTokens_generate_expression_sum :
    ∃ program, generate adding = .ok program ∧
      ∃ (s : Signature) (imports : List Import) (as : List Passed) (body b : Block)
        (line : Nat), signature adding = .ok s ∧
        Block.ofTokens (tokenize program.toList) = .ok (b, line) ∧
        SameBlock (framed (s.parameters.map String.toList) imports body
          (as.map Passed.value)) b ∧
        SameBlock [writeStat onePlusTwo,
          writeStat (.string (Bytes.ofText "!"))] body ∧
        WritesThen onePlusTwo "!" body := by
  have hclosing : ¬ Template.Mode.inside.marker <:+: " 1 + 2 ".toList := by decide
  have hliteral : IsLiteral "!".toList := ⟨by decide, by decide⟩
  have hvalue : Expresses (Text.trim " 1 + 2 ".toList) onePlusTwo := ⟨1, by cbv⟩
  have hsemicolon : ¬ EndsInSemicolon (Text.trim " 1 + 2 ".toList) := by
    have htokens : kinds (tokenize (Text.trim " 1 + 2 ".toList)) =
        [.number (.int 1), .symbol .plus, .number (.int 2), .finish] := by cbv
    rintro ⟨ts, hts⟩
    rw [htokens] at hts
    have hlast := congrArg (fun us => us.reverse[1]?) hts
    simp at hlast
  obtain ⟨unit, -, hcode, hprogram⟩ := ofTokens_generate_expression {} hclosing hliteral hvalue
    hsemicolon rfl
  obtain ⟨program, hgenerate⟩ : ∃ program, generate adding = .ok program := by
    have hsignature : signature adding = .ok ⟨["s"], ["__state"]⟩ := by cbv
    have himports : importLines adding.imports = .ok [importStatement "codet" "codet"] := by cbv
    have hbody : bodyLines adding.codeParts = .ok ["  __write(1 + 2)", "  __write(\"!\")"] := by cbv
    rw [generate, hsignature, himports, hbody]
    exact ⟨_, rfl⟩
  exact ⟨program, hgenerate, hprogram adding program hcode.symm (by simp [adding, isBreak])
    (by simp [adding, isBreak]) hgenerate⟩

end Lua

end Stencil
