import Stencil.Proofs.Template.Grammar
import Stencil.Template.Unit
set_option autoImplicit false

/-!
# Where parsing fails

A source is not parsed for one of two causes: a block is never closed, or a configuration
directive is malformed or unknown. The first cause counts before the second, and of the directives
the first in the source counts.

## Main definitions

* `Stencil.Template.Offends` — the error that a text is when it stands as a part at a place.
* `Stencil.Template.FirstOffence` — the error of the first such segment of a list.

## Main results

* `Stencil.Template.foldlM_addPart_eq_error_iff` — a list of parts fails at the first that offends.
* `Stencil.Template.parse_eq_error_iff` — when a source is not parsed, and with which error.
-/

namespace Stencil.Template

open Stencil.Text

/-! ## Directives that offend -/

/-- The keys that a configuration directive may have. -/
def settingKeys : List String :=
  ["use", "using", "import", "language", "ref", "reference", "references"]

/-- **The error that a configuration directive is** at a place: it has not exactly two words, or
the first of the two is no key. -/
inductive Offends (text : List Char) (position line : Nat) : SyntaxError → Prop where
  | malformed (hkind : classify text = some .configuration)
      (hwords : (words (interior text)).length ≠ 2) :
      Offends text position line
        (.invalidDirective (String.ofList (interior text)) position line)
  | unknown (key value : List Char) (hkind : classify text = some .configuration)
      (hwords : words (interior text) = [key, value]) (hkey : String.ofList key ∉ settingKeys) :
      Offends text position line (.unknownDirective (String.ofList key)
        (String.ofList (interior text)) position line)

/-- **The error of the first segment that offends,** behind segments that do not. -/
def FirstOffence (gs : List Segment) (e : SyntaxError) : Prop :=
  ∃ before g after, gs = before ++ g :: after ∧
    (∀ h ∈ before, ∀ position line e', ¬ Offends h.text position line e') ∧
    Offends g.text (utf8Length (rawText before)) (1 + lineBreaks (rawText before)) e

/-- The keys that mean something are the keys that a directive may have. -/
theorem setting_eq_none_iff (d : Directive) : d.setting = none ↔ d.key ∉ settingKeys := by
  unfold Directive.setting settingKeys
  grind

/-- A text is one error at most at a place. -/
theorem Offends.unique {text : List Char} {position line : Nat} {e e' : SyntaxError}
    (h : Offends text position line e) (h' : Offends text position line e') : e = e' := by
  cases h with
  | malformed hkind hwords =>
    cases h' with
    | malformed _ _ => rfl
    | unknown key value _ hwords' _ => simp [hwords'] at hwords
  | unknown key value hkind hwords hkey =>
    cases h' with
    | malformed _ hwords' => simp [hwords] at hwords'
    | unknown key' value' _ hwords' _ =>
      obtain ⟨rfl, -⟩ : key = key' ∧ value = value' := by simpa [hwords] using hwords'
      rfl

/-- Whether a text offends does not depend on its place. -/
theorem Offends.move {text : List Char} {position line : Nat} {e : SyntaxError}
    (h : Offends text position line e) (position' line' : Nat) :
    ∃ e', Offends text position' line' e' := by
  cases h with
  | malformed hkind hwords => exact ⟨_, .malformed hkind hwords⟩
  | unknown key value hkind hwords hkey => exact ⟨_, .unknown key value hkind hwords hkey⟩

/-- No text is an error about a token. -/
theorem Offends.ne_unexpectedToken {text : List Char} {position line : Nat} {e : SyntaxError}
    (h : Offends text position line e) (t : String) (p l : Nat) : e ≠ .unexpectedToken t p l := by
  cases h <;> simp

/-! ## Parts that fail -/

/-- **Adding a part** fails with the error that the part is, or the part offends nowhere. -/
theorem addPart_cases (config : ParserConfig) (unit : CompilationUnit) (p : Part) :
    (∃ e, unit.addPart config p = .error e ∧ Offends p.text.toList p.position p.line e) ∨
    ((∃ unit', unit.addPart config p = .ok unit') ∧
      ∀ e, ¬ Offends p.text.toList p.position p.line e) := by
  unfold CompilationUnit.addPart
  by_cases hkind : p.kind = some .configuration
  · rw [if_pos hkind]
    unfold Directive.ofPart
    by_cases hwords : (words (interior p.text.toList)).length = 2
    · obtain ⟨key, value, hkv⟩ : ∃ key value, words (interior p.text.toList) = [key, value] := by
        match h : words (interior p.text.toList) with
        | [key, value] => exact ⟨key, value, rfl⟩
        | [] | [_] | _ :: _ :: _ :: _ => simp [h] at hwords
      simp only [hkv]
      cases hset : Directive.setting ⟨String.ofList key, String.ofList value⟩ with
      | none =>
        have hkey := (setting_eq_none_iff _).mp hset
        exact .inl ⟨_, rfl, .unknown key value hkind hkv hkey⟩
      | some setting =>
        refine .inr ⟨⟨_, rfl⟩, fun e he => ?_⟩
        cases he with
        | malformed _ hlen => exact hlen hwords
        | unknown key' value' _ hkv' hkey =>
          obtain ⟨rfl, rfl⟩ : key = key' ∧ value = value' := by simpa [hkv] using hkv'
          rw [(setting_eq_none_iff _).mpr hkey] at hset
          cases hset
    · refine .inl ⟨_, ?_, .malformed hkind hwords⟩
      dsimp only
      split
      · rename_i e he
        split at he
        · cases he
        · exact congrArg Except.error (Except.error.inj he).symm
      · rename_i d hd
        split at hd
        · rename_i hkv
          simp [hkv] at hwords
        · cases hd
  · rw [if_neg hkind]
    refine .inr ⟨⟨_, rfl⟩, fun e he => hkind ?_⟩
    cases he with
    | malformed h _ => exact h
    | unknown _ _ h _ _ => exact h

/-- **A list of parts fails at the first that offends.**

**Proof sketch.** Induction on the parts: the first fails itself, or it is added and the others
decide. -/
theorem foldlM_addPart_eq_error_iff (config : ParserConfig) (parts : List Part)
    (unit : CompilationUnit) (e : SyntaxError) :
    parts.foldlM (CompilationUnit.addPart config) unit = .error e ↔
      ∃ before p after, parts = before ++ p :: after ∧
        (∀ q ∈ before, ∀ position line e', ¬ Offends q.text.toList position line e') ∧
        Offends p.text.toList p.position p.line e := by
  induction parts generalizing unit with
  | nil =>
    constructor
    · intro h
      cases h
    · rintro ⟨before, p, after, h, -⟩
      simp at h
  | cons p parts ih =>
    rw [List.foldlM_cons]
    rcases addPart_cases config unit p with ⟨e', hadd, hoff⟩ | ⟨⟨unit', hadd⟩, hnone⟩
    · rw [hadd]
      constructor
      · intro h
        obtain rfl : e' = e := Except.error.inj h
        exact ⟨[], p, parts, rfl, by simp, hoff⟩
      · rintro ⟨before, q, after, heq, hbefore, hq⟩
        cases before with
        | nil =>
          obtain ⟨rfl, rfl⟩ : p = q ∧ parts = after := by simpa using heq
          rw [hoff.unique hq]
          rfl
        | cons b before =>
          obtain ⟨rfl, -⟩ : p = b ∧ parts = before ++ q :: after := by simpa using heq
          exact absurd hoff (hbefore p (List.mem_cons_self ..) _ _ _)
    · rw [hadd]
      refine Iff.trans (ih unit') ?_
      constructor
      · rintro ⟨before, q, after, rfl, hbefore, hq⟩
        refine ⟨p :: before, q, after, rfl, fun r hr => ?_, hq⟩
        rcases List.mem_cons.mp hr with rfl | hr
        · intro position line e' he'
          obtain ⟨e'', he''⟩ := he'.move r.position r.line
          exact hnone e'' he''
        · exact hbefore r hr
      · rintro ⟨before, q, after, heq, hbefore, hq⟩
        cases before with
        | nil =>
          obtain ⟨rfl, rfl⟩ : p = q ∧ parts = after := by simpa using heq
          exact absurd hq (hnone e)
        | cons b before =>
          obtain ⟨rfl, rfl⟩ : p = b ∧ parts = before ++ q :: after := by simpa using heq
          exact ⟨before, q, after, rfl, fun r hr => hbefore r (List.mem_cons_of_mem _ hr), hq⟩

/-- Parts at their places fail with the error of the first segment that offends. -/
theorem ofParts_eq_error_iff (config : ParserConfig) {parts : List Part}
    (hplaced : Placed 0 1 parts) (e : SyntaxError) :
    CompilationUnit.ofParts config parts = .error e ↔
      FirstOffence (parts.map Part.segment) e := by
  unfold CompilationUnit.ofParts FirstOffence
  rw [foldlM_addPart_eq_error_iff]
  constructor
  · rintro ⟨before, p, after, rfl, hbefore, hp⟩
    obtain ⟨hposition, hline⟩ := hplaced before p after rfl
    rw [Nat.zero_add] at hposition
    rw [hposition, hline] at hp
    refine ⟨before.map Part.segment, p.segment, after.map Part.segment, by simp, ?_, hp⟩
    intro h hh
    obtain ⟨q, hq, rfl⟩ := List.mem_map.mp hh
    exact hbefore q hq
  · rintro ⟨before, g, after, heq, hbefore, hg⟩
    obtain ⟨pre, rest, rfl, rfl, hrest⟩ := List.map_eq_append_iff.mp heq
    obtain ⟨p, post, rfl, rfl, rfl⟩ := List.map_eq_cons_iff.mp hrest
    obtain ⟨hposition, hline⟩ := hplaced pre p post rfl
    rw [Nat.zero_add] at hposition
    rw [← hposition, ← hline] at hg
    exact ⟨pre, p, post, rfl, fun q hq => hbefore q.segment (List.mem_map_of_mem hq), hg⟩

/-! ## Sources that fail -/

/-- **When a source is not parsed, and with which error.** Either a block is left open behind
segments that are cut off in front of it: then the error is at the end of these, whatever their
directives are. Or the source is made of segments, and one of them is the first that offends: then
the error is that of this segment. A token is never unexpected.

**Proof sketch.** A source is that of a canonical list or leaves a block open behind one, and
never both. In the first case the parts are at their places, and adding them fails at the first
that offends; in the second, splitting fails. -/
theorem parse_eq_error_iff (config : ParserConfig) (source : String) :
    (∀ e, parse config source = .error e ↔
      (∃ gs, Canonical gs ∧ LeftOpen gs source.toList ∧
        e = .unterminatedBlock (utf8Length (rawText gs)) (1 + lineBreaks (rawText gs))) ∨
      (∃ gs, Canonical gs ∧ source.toList = rawText gs ∧ FirstOffence gs e)) ∧
    ∀ token position line, parse config source ≠ .error (.unexpectedToken token position line) := by
  have hiff : ∀ e, parse config source = .error e ↔
      (∃ gs, Canonical gs ∧ LeftOpen gs source.toList ∧
        e = .unterminatedBlock (utf8Length (rawText gs)) (1 + lineBreaks (rawText gs))) ∨
      (∃ gs, Canonical gs ∧ source.toList = rawText gs ∧ FirstOffence gs e) := by
    intro e
    obtain ⟨gs, hc, hsource | hopen⟩ := exists_canonical source.toList
    · obtain ⟨parts, hparts, rfl, hplaced⟩ := split_of_canonical hc hsource
      unfold parse
      rw [hparts]
      refine Iff.trans (ofParts_eq_error_iff config hplaced e) ?_
      constructor
      · exact fun h => .inr ⟨_, hc, hsource, h⟩
      · rintro (⟨hs, hhs, hopen, -⟩ | ⟨hs, hhs, hsource', h⟩)
        · exact absurd hsource (hopen.ne_rawText hhs hc)
        · rwa [hc.unique hhs (hsource.symm.trans hsource')]
    · unfold parse
      rw [split_of_leftOpen hc hopen]
      constructor
      · intro h
        exact .inl ⟨gs, hc, hopen, (Except.error.inj h).symm⟩
      · rintro (⟨hs, hhs, hopen', rfl⟩ | ⟨hs, hhs, hsource', -⟩)
        · have hsame := split_of_leftOpen hhs hopen'
          rw [split_of_leftOpen hc hopen] at hsame
          exact congrArg Except.error (Except.error.inj hsame)
        · exact absurd hsource' (hopen.ne_rawText hc hhs)
  refine ⟨hiff, fun token position line h => ?_⟩
  rcases (hiff _).mp h with ⟨gs, -, -, heq⟩ | ⟨gs, -, -, before, g, after, -, -, hoff⟩
  · cases heq
  · exact hoff.ne_unexpectedToken token position line rfl

end Stencil.Template
