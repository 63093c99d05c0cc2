import Stencil.Proofs.Lua.Expression
set_option autoImplicit false

/-!
# Forms

A form is a template of literals, includes and blocks with the value of one key each. When the keys
are spelled in another way, nothing else about the template changes: its parts are the same, each
with its key in the other spelling.

## Main definitions

* `Stencil.Json.shown?` — the text of a value.
* `Stencil.Template.valueBlock` — the block with the value of an expression.
* `Stencil.Template.IsFormPart` — the parts of a form.
* `Stencil.Template.respell`, `respellSource` — a form with the keys spelled in another way.

## Main results

* `Stencil.Template.IsDotted.partStatement` — the statement for the block of a dotted name.
* `Stencil.Template.split_respellSource` — the parts of a form with other spellings.
-/

namespace Stencil

/-! ## Texts of values -/

namespace Json

/-- **The text of a value.** Null has an empty one; lists and tables have none. -/
def shown? : Json → Option String
  | null => some ""
  | bool b => some (if b then "true" else "false")
  | int n => match Lua.Number.ofInt? n with
    | some i => some (String.ofList (Lua.Number.int i).text)
    | none => some (String.ofList (Lua.Number.float (Float.ofInt n)).text)
  | float x => some (String.ofList (Lua.Number.float x).text)
  | string s => some s
  | array _ | object _ => none

/-- The text of the value under a key. -/
def shownAt? (state : Json) (key : String) : Option String := (state.field? key).bind shown?

/-- There is a text only for a key of the table. -/
theorem mem_keys_of_shownAt? {state : Json} {key text : String}
    (h : state.shownAt? key = some text) : key ∈ state.keys := by
  obtain ⟨value, hvalue, -⟩ := Option.bind_eq_some_iff.mp h
  obtain ⟨before, after, hentries, -⟩ := List.lookup_eq_some_iff.mp hvalue
  rw [keys, hentries]
  simp

end Json

/-! ## Forms -/

namespace Template

/-- **The block that writes the value of an expression,** with a blank on either side. -/
def valueBlock (e : String) : String := "<%= " ++ e ++ " %>"

/-- **A dotted name:** of letters, digits, underscores and dots. -/
def IsDotted (e : String) : Prop := ∀ c ∈ e.toList, Lua.isNameChar c = true ∨ c = '.'

/-- The block of an expression between blanks. -/
theorem valueBlock_eq (e : String) : valueBlock e = "<%=" ++ (" " ++ e ++ " ") ++ "%>" := by
  rw [← String.toList_inj]
  simp [valueBlock]

/-- A block tells the expression that it writes the value of. -/
theorem valueBlock_inj {e f : String} : valueBlock e = valueBlock f ↔ e = f := by
  refine ⟨fun h => ?_, congrArg _⟩
  have hlist := congrArg String.toList h
  simpa [valueBlock, String.toList_inj] using hlist

/-- The block of an expression is no directive. -/
theorem classify_valueBlock (e : String) : classify (valueBlock e).toList = none := by
  rw [valueBlock_eq]
  exact classify_expression _

/-- The characters of names are between the digits and the small letters. -/
theorem toNat_of_isNameChar {c : Char} (h : Lua.isNameChar c = true) :
    0x30 ≤ c.toNat ∧ c.toNat ≤ 0x7A := by
  simp only [Lua.isNameChar, Char.isAlphanum, Char.isAlpha, Char.isUpper, Char.isLower,
    Char.isDigit, Bool.or_eq_true, Bool.and_eq_true, decide_eq_true_eq, beq_iff_eq,
    UInt32.le_iff_toNat_le, ge_iff_le] at h
  have hbetween {m n : Nat} (hm : 0x30 ≤ m) (hn : n ≤ 0x7A) (hc : m ≤ c.toNat ∧ c.toNat ≤ n) :
      0x30 ≤ c.toNat ∧ c.toNat ≤ 0x7A := ⟨hm.trans hc.1, hc.2.trans hn⟩
  rcases h with ((hupper | hlower) | hdigit) | rfl
  · exact hbetween (by decide) (by decide) hupper
  · exact hbetween (by decide) (by decide) hlower
  · exact hbetween (by decide) (by decide) hdigit
  · decide

/-- A usable name is a dotted one. -/
theorem isDotted_of_usable {name : String} (h : Lua.Usable name) : IsDotted name := by
  obtain ⟨c, s, hname, hc, hs⟩ := h.spelling
  have hchar (d : Char) : Lua.isNameChar d = true ↔ Lua.IsLetter d ∨ Lua.IsDigit d ∨ d = '_' := by
    simp [Lua.isNameChar, Char.isAlphanum, Lua.isAlpha_iff, Lua.isDigit_iff, or_assoc]
  intro d hd
  rw [hname] at hd
  rcases List.mem_cons.mp hd with rfl | hd
  · exact .inl ((hchar d).mpr (hc.imp_right .inr))
  · exact .inl ((hchar d).mpr (hs d hd))

/-- A dotted name behind another. -/
theorem IsDotted.append {e f : String} (he : IsDotted e) (hf : IsDotted f) :
    IsDotted (e ++ "." ++ f) := by
  intro c hc
  simp only [String.toList_append, List.mem_append] at hc
  rcases hc with (hc | hc) | hc
  · exact he c hc
  · exact .inr (by simpa using hc)
  · exact hf c hc

namespace IsDotted

variable {e : String}

/-- A dotted name has no blanks. -/
theorem isBlank_eq (h : IsDotted e) : ∀ c ∈ e.toList, Text.isBlank c = false := by
  intro c hc
  obtain ⟨hlow, hhigh⟩ : 0x2E ≤ c.toNat ∧ c.toNat ≤ 0x7A := by
    rcases h c hc with hname | rfl
    · exact (toNat_of_isNameChar hname).imp_left (Nat.le_trans (by decide))
    · decide
  simp [Text.isBlank]
  omega

/-- The closing marker does not occur in the block of a dotted name. -/
theorem not_marker (h : IsDotted e) : ¬ Mode.inside.marker <:+: (" " ++ e ++ " ").toList := by
  intro hmarker
  have hmem : '%' ∈ (" " ++ e ++ " ").toList := hmarker.subset (by decide)
  simp only [String.toList_append, List.mem_append] at hmem
  rcases hmem with (hmem | hmem) | hmem
  · simp at hmem
  · rcases h _ hmem with hname | hdot
    · exact absurd hname (by decide)
    · cases hdot
  · simp at hmem

/-- The block of a dotted name is one. -/
theorem isBlock (h : IsDotted e) : IsBlock (valueBlock e).toList := by
  rw [valueBlock_eq]
  exact isBlock_expression h.not_marker

/-- The statement for the block of a dotted name. -/
theorem partStatement (h : IsDotted e) :
    Lua.partStatement (valueBlock e) = .ok (some (Lua.writeStatement e)) := by
  have hinside : Lua.blockInside (valueBlock e).toList = '=' :: ([' '] ++ e.toList ++ [' ']) := by
    rw [valueBlock_eq, toList_expression, Lua.blockInside_blockText]
    simp
  have hspace : ∀ c ∈ [' '], Text.isBlank c = true := by simp [Text.isBlank]
  have htrim : Text.trim ([' '] ++ e.toList ++ [' ']) = e.toList :=
    Text.trim_between hspace h.isBlank_eq hspace
  rw [Lua.partStatement_expression h.isBlock (classify_valueBlock e) hinside, htrim,
    String.ofList_toList]

end IsDotted

end Template

/-- **The key whose value a part writes,** if it is a block of one. -/
def Json.keyIn? (state : Json) (part : String) : Option String :=
  state.keys.find? fun key => part == Template.valueBlock key

namespace Template

/-- **A part of a form:** a literal, an include, or a block with the value of a key that has a
text. -/
def IsFormPart (state : Json) (part : String) : Prop :=
  IsPlain part ∨ ∃ key text, state.shownAt? key = some text ∧ part = valueBlock key

/-- **A part of a form with the keys spelled in another way.** -/
def respell (state : Json) (spell : String → String) (part : String) : String :=
  match state.keyIn? part with
  | some key => valueBlock (spell key)
  | none => part

/-- **The source of a form with the keys spelled in another way.** All else stays as it is. -/
def respellSource (state : Json) (spell : String → String) (parts : List Part) : String :=
  String.join (parts.map fun p => respell state spell p.text ++ p.skippedBreak.getD "")

/-- A part of a form is without code, or a block with the value of a key. -/
theorem IsFormPart.cases {state : Json} {part : String} (h : IsFormPart state part) :
    (state.keyIn? part = none ∧ IsPlain part) ∨
      ∃ key text, state.keyIn? part = some key ∧ state.shownAt? key = some text ∧
        part = valueBlock key := by
  rcases h with hplain | ⟨key, text, htext, rfl⟩
  · refine .inl ⟨List.find?_eq_none.mpr fun key _ hkey => ?_, hplain⟩
    obtain rfl := eq_of_beq hkey
    have hnone := classify_valueBlock key
    rw [hplain (by simp [Part.isBlockText, valueBlock])] at hnone
    cases hnone
  · refine .inr ⟨key, text, ?_, htext, rfl⟩
    have hmem := Json.mem_keys_of_shownAt? htext
    cases hfind : state.keyIn? (valueBlock key) with
    | none => exact absurd (List.find?_eq_none.mp hfind key hmem) (by simp)
    | some key' =>
      have hkey := List.find?_some hfind
      rw [valueBlock_inj.mp (eq_of_beq hkey)]

/-! ## The parts of a form with other spellings -/

section Respell

variable {state : Json} (spell : String → String)

/-- A segment of a form with the key spelled in another way. -/
def Segment.respell (state : Json) (g : Segment) : Segment :=
  ⟨(Template.respell state spell (String.ofList g.text)).toList, g.dropped⟩

/-- **A segment of a form** stays as it is, or is a block with another spelling of its key. -/
theorem IsFormPart.segment_cases {g : Segment} (h : IsFormPart state (String.ofList g.text)) :
    g.respell spell state = g ∨
      ∃ key ∈ state.keys, g.text = (valueBlock key).toList ∧
        g.respell spell state = ⟨(valueBlock (spell key)).toList, g.dropped⟩ := by
  rw [Segment.respell, Template.respell]
  rcases h.cases with ⟨hnone, -⟩ | ⟨key, text, hkey, htext, hg⟩
  · refine .inl ?_
    rw [hnone]
    simp
  · refine .inr ⟨key, Json.mem_keys_of_shownAt? htext, ?_, ?_⟩
    · rw [← hg, String.toList_ofList]
    · rw [hkey]

/-- **A form and the form with other spellings** are the same up to a block, or as a whole. -/
theorem rawText_respell {gs : List Segment}
    (h : ∀ g ∈ gs, IsFormPart state (String.ofList g.text)) :
    ∃ front rest rest', rawText gs = front ++ rest ∧
      rawText (gs.map (Segment.respell spell state)) = front ++ rest' ∧
      (∀ c ∈ rest.head?, isBreakChar c = false) ∧ ∀ c ∈ rest'.head?, isBreakChar c = false := by
  induction gs with
  | nil => exact ⟨[], [], [], rfl, rfl, by simp, by simp⟩
  | cons g gs ih =>
    have hopen (e : String) (s : List Char) :
        ∀ c ∈ ((valueBlock e).toList ++ s).head?, isBreakChar c = false := by
      simp [valueBlock, isBreakChar]
    rw [List.map_cons, rawText_cons, rawText_cons]
    rcases (h g (by simp)).segment_cases spell with hg | ⟨key, -, hg, hrespell⟩
    · obtain ⟨front, rest, rest', hrest, hrest', hbreak⟩ := ih fun g hg => h g (by simp [hg])
      rw [hg, hrest, hrest']
      exact ⟨g.raw ++ front, rest, rest', by simp, by simp, hbreak⟩
    · refine ⟨[], g.raw ++ rawText gs, (g.respell spell state).raw ++
        rawText (gs.map (Segment.respell spell state)), rfl, rfl, ?_, ?_⟩
      · rw [Segment.raw, hg, List.append_assoc]
        exact hopen _ _
      · rw [hrespell, Segment.raw, List.append_assoc]
        exact hopen _ _

/-- The break behind a text is the same in front of a form with other spellings. -/
theorem expectedBreak_respell {gs : List Segment}
    (h : ∀ g ∈ gs, IsFormPart state (String.ofList g.text)) (t d : List Char) :
    expectedBreak t (d ++ rawText (gs.map (Segment.respell spell state))) =
      expectedBreak t (d ++ rawText gs) := by
  obtain ⟨front, rest, rest', hrest, hrest', hbreak, hbreak'⟩ := rawText_respell spell h
  rw [hrest, hrest', ← List.append_assoc, ← List.append_assoc, expectedBreak, expectedBreak,
    breakAt_append hbreak, breakAt_append hbreak']

/-- Behind the block of an expression no break is dropped. -/
theorem expectedBreak_valueBlock (e : String) (follow : List Char) :
    expectedBreak (valueBlock e).toList follow = none := by
  rw [valueBlock_eq, toList_expression, expectedBreak_blockText]
  rfl

variable {spell}

/-- **A form with other spellings** is cut at the same places. -/
theorem canonical_respell {gs : List Segment} (hc : Canonical gs)
    (h : ∀ g ∈ gs, IsFormPart state (String.ofList g.text))
    (hspell : ∀ key ∈ state.keys, IsDotted (spell key)) :
    Canonical (gs.map (Segment.respell spell state)) := by
  induction gs with
  | nil => exact canonical_nil
  | cons g gs ih =>
    obtain ⟨hkind, hapart, hbreak, hrest⟩ := canonical_cons.mp hc
    have hmore : ∀ g ∈ gs, IsFormPart state (String.ofList g.text) := fun g hg => h g (by simp [hg])
    rw [List.map_cons]
    rcases (h g (by simp)).segment_cases spell with hg | ⟨key, hkey, hg, hrespell⟩
    · rw [hg]
      refine canonical_cons.mpr ⟨hkind, fun hlit k hk => ?_, ?_, ih hrest hmore⟩
      · obtain ⟨l, hl, rfl⟩ : ∃ l ∈ gs.head?, l.respell spell state = k := by
          simpa [List.head?_map] using hk
        rcases (hmore l (List.mem_of_mem_head? hl)).segment_cases spell with
          hsame | ⟨key, hkey, -, hrespell⟩
        · rw [hsame]
          exact hapart hlit l hl
        · rw [hrespell]
          exact (hspell key hkey).isBlock.not_isLiteral
      · rw [expectedBreak_respell spell hmore]
        exact hbreak
    · have hblock := (hspell key hkey).isBlock
      rw [hg, expectedBreak_valueBlock] at hbreak
      rw [hrespell]
      refine canonical_cons.mpr ⟨.inr hblock, fun hlit => absurd hlit hblock.not_isLiteral, ?_,
        ih hrest hmore⟩
      rw [expectedBreak_valueBlock]
      exact hbreak

/-- **The parts of a form with other spellings** are those of the form, each in its spelling. -/
theorem split_respellSource {source : String} {parts : List Part}
    (hsplit : split source = .ok parts) (h : ∀ p ∈ parts, IsFormPart state p.text)
    (hspell : ∀ key ∈ state.keys, IsDotted (spell key)) :
    ∃ qs, split (respellSource state spell parts) = .ok qs ∧
      qs.map Part.text = (parts.map Part.text).map (Template.respell state spell) := by
  obtain ⟨hc, -⟩ := canonical_of_split hsplit
  have hform : ∀ g ∈ parts.map Part.segment, IsFormPart state (String.ofList g.text) := by
    simpa [Part.segment] using h
  have hsource : (respellSource state spell parts).toList =
      rawText ((parts.map Part.segment).map (Segment.respell spell state)) := by
    rw [respellSource]
    clear hsplit h hc hform
    induction parts with
    | nil => rfl
    | cons p parts ih =>
      rw [List.map_cons, String.join_cons, String.toList_append, ih]
      cases hbreak : p.skippedBreak <;>
        simp [Segment.raw, Segment.respell, Part.segment, hbreak]
  obtain ⟨qs, hqs, hsegments, -⟩ := split_of_canonical (canonical_respell hc hform hspell) hsource
  refine ⟨qs, hqs, ?_⟩
  have htexts := congrArg (List.map fun g : Segment => String.ofList g.text) hsegments
  simpa [Part.segment, Segment.respell, Function.comp_def] using htexts

end Respell

end Template

end Stencil
