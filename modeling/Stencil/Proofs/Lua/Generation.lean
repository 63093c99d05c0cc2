import Stencil.Proofs.Lua.Compiling
import Stencil.Proofs.Template.CodePart
set_option autoImplicit false

/-!
# Programs for literals and includes

A template that has no code gives a program whose statements are those of its pieces: one for
each literal and one for each include.

## Main definitions

* `Stencil.Lua.Piece.ofPart` — the piece for a part.
* `Stencil.Template.IsPlain` — a part that is no code.

## Main results

* `Stencil.Lua.partStatement_plain`, `partStatement_expression`, `partStatement_code` — the
  statement for each kind of part.
* `Stencil.Lua.lineReads_header` — the first line of a program has no tokens.
-/

namespace Stencil

/-- **A part that is no code:** if it is a block at all, it is an include. -/
def Template.IsPlain (part : String) : Prop :=
  Template.Part.isBlockText part = true → Template.classify part.toList = some .inclusion

instance (part : String) : Decidable (Template.IsPlain part) :=
  inferInstanceAs (Decidable (_ → _))

namespace Lua

open Template (IsPlain IsLiteral IsBlock)

/-! ## Pieces for parts -/

/-- **The piece for a part.** A block is taken for an include. -/
def Piece.ofPart (part : String) : Piece :=
  if Template.Part.isBlockText part then
    .inclusion (String.ofList ((Template.includeName part.toList).getD []))
  else .literal part

/-- **The statement for a part** is that of its piece. -/
theorem partStatement_plain {part : String} (hplain : IsPlain part)
    (hkind : IsLiteral part.toList ∨ IsBlock part.toList) :
    partStatement part = .ok (some (Piece.ofPart part).line) := by
  rcases hkind with hlit | hblock
  · have hprefix : ['<', '%'].isPrefixOf part.toList = false := hlit.isBlockText
    have hempty : part.toList.isEmpty = false := by
      rw [List.isEmpty_eq_false_iff]
      exact hlit.1
    have hisBlock : isBlock part.toList = false := by
      rw [isBlock, hprefix, Bool.false_and]
    simp only [partStatement, hisBlock, hempty, Piece.ofPart, hlit.isBlockText]
    rfl
  · have hprefix : ['<', '%'].isPrefixOf part.toList = true := hblock.isBlockText
    have hisBlock : isBlock part.toList = true := by
      rw [isBlock, hprefix, hblock.isSuffixOf, Bool.true_and]
    simp only [partStatement, hisBlock, hplain hblock.isBlockText, Piece.ofPart,
      hblock.isBlockText]
    rfl

/-- A block has both its markers. -/
theorem isBlock_eq_true {part : List Char} (h : IsBlock part) : isBlock part = true := by
  obtain ⟨body, rfl, -⟩ := id h
  rw [isBlock, h.isSuffixOf, Bool.and_true]
  simp [Template.blockText, Template.Mode.marker]

/-- A block has room for both its markers. -/
theorem IsBlock.four_le_length {text : List Char} (h : IsBlock text) : ¬ text.length < 4 := by
  obtain ⟨body, rfl, -⟩ := h
  simp [Template.blockText, Template.Mode.marker]

/-- **The statement for a block with an expression.** -/
theorem partStatement_expression {part : String} {e : List Char} (hblock : IsBlock part.toList)
    (hclass : Template.classify part.toList = none)
    (hinside : blockInside part.toList = '=' :: e) :
    partStatement part = .ok (some (writeStatement (String.ofList (Text.trim e)))) := by
  simp only [partStatement, isBlock_eq_true hblock, hclass, if_true,
    if_neg (IsBlock.four_le_length hblock), hinside]

/-- **The statement for a block of other code.** -/
theorem partStatement_code {part : String} (hblock : IsBlock part.toList)
    (hclass : Template.classify part.toList = none)
    (hinside : ∀ e, blockInside part.toList ≠ '=' :: e) :
    partStatement part =
      .ok (some ("  " ++ String.ofList (Text.trim (blockInside part.toList)))) := by
  simp only [partStatement, isBlock_eq_true hblock, hclass, if_true,
    if_neg (IsBlock.four_le_length hblock)]

/-- A part that is code is a block without a directive in it. -/
theorem isBlock_of_not_isPlain {part : String} (hplain : ¬ IsPlain part)
    (hkind : IsLiteral part.toList ∨ IsBlock part.toList)
    (hclass : Template.classify part.toList ≠ some .configuration) :
    IsBlock part.toList ∧ Template.classify part.toList = none := by
  obtain ⟨htext, hinclusion⟩ := Classical.not_imp.mp hplain
  refine ⟨hkind.resolve_left fun hlit => ?_, ?_⟩
  · rw [hlit.isBlockText] at htext
    cases htext
  · cases hc : Template.classify part.toList with
    | none => rfl
    | some kind => cases kind <;> contradiction

/-! ## The program -/

/-- A usable name is not blank. -/
theorem isBlankString_of_isUsable {name : String}
    (h : isUsable (Text.trimString name) = true) : Text.isBlankString name = false := by
  refine Bool.eq_false_iff.mpr fun hblank => ?_
  have htrim : Text.trimString name = "" := by
    rw [Text.trimString, (Text.trim_eq_nil_iff _).mpr hblank]
  rw [htrim] at h
  revert h
  decide

/-- The characters of five texts one behind the other. -/
theorem toList_append_append (a b c d e : String) :
    (a ++ b ++ c ++ d ++ e).toList = a.toList ++ b.toList ++ c.toList ++ d.toList ++ e.toList := by
  simp only [String.toList_append]

/-- **The first line of a program is a comment,** when the names in it have no line breaks. -/
theorem isComment_header {input : HandlerInput}
    (hlanguage : ∀ c ∈ input.language.toList, isBreak c = false)
    (hname : ∀ c ∈ input.stateType.name.toList, isBreak c = false) :
    IsComment (header input) := by
  let comment (language name : List Char) : List Char :=
    " codet template program (".toList ++ language ++ ", state ".toList ++ name ++ ")".toList
  have hopen : "-- codet template program (".toList =
      '-' :: '-' :: " codet template program (".toList := by cbv
  have htext : (header input).toList =
      '-' :: '-' :: comment input.language.toList input.stateType.name.toList := by
    refine (toList_append_append _ _ _ _ _).trans ?_
    rw [hopen]
    rfl
  have hbreak : ∀ c ∈ comment input.language.toList input.stateType.name.toList,
      isBreak c = false := by
    have hfixed (text : String) (h : text.toList.all (fun c => !isBreak c) = true) :
        ∀ c ∈ text.toList, isBreak c = false := by
      simpa using h
    intro c hc
    simp only [comment, List.mem_append] at hc
    obtain (((hc | hc) | hc) | hc) | hc := hc
    · exact hfixed _ (by decide) c hc
    · exact hlanguage c hc
    · exact hfixed _ (by decide) c hc
    · exact hname c hc
    · exact hfixed _ (by decide) c hc
  refine ⟨_, htext, ?_, hbreak⟩
  have hspace : " codet template program (".toList = ' ' :: "codet template program (".toList := by
    cbv
  simp only [comment, hspace, List.cons_append, List.head?_cons]
  decide

/-- The first line of a program has no tokens then. -/
theorem lineReads_header {input : HandlerInput}
    (hlanguage : ∀ c ∈ input.language.toList, isBreak c = false)
    (hname : ∀ c ∈ input.stateType.name.toList, isBreak c = false) :
    LineReads (header input) [] := (isComment_header hlanguage hname).lineReads

end Lua

end Stencil
