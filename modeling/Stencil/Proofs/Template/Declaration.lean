import Stencil.Proofs.Template.Failure
import Mathlib.Data.List.Forall2
set_option autoImplicit false

/-!
# What a template declares

Each part of a template is either a configuration directive, which is taken out and applied, or a
code part, which is kept as it is. The unit of a template is determined by the two lists: nothing
is lost, and each setting comes from the directives that have its key.

## Main definitions

* `Stencil.Template.IsConfiguration` — the directives that are taken out.
* `Stencil.Template.Declares` — the key and the value of a directive.
* `Stencil.Template.Directive.values` — the values that are given to some keys.
* `Stencil.Template.DrawnFrom` — a unit that has what its parts declare.

## Main results

* `Stencil.Template.classify_eq_configuration_iff` — which directives are taken out.
* `Stencil.Template.foldlM_addPart_eq_ok_iff` — what a list of parts adds to a unit.
* `Stencil.Template.parse_eq_ok_iff` — the unit of a source, and when there is one.
-/

namespace Stencil

/-- Sets of names with the same members are the same. -/
theorem NameSet.eq_of_mem_iff {s t : NameSet} (h : ∀ name, name ∈ s.toList ↔ name ∈ t.toList) :
    s = t := by
  obtain ⟨entries, hs⟩ := s
  obtain ⟨entries', ht⟩ := t
  have hkeys : entries.map Prod.fst = entries'.map Prod.fst := by
    have hasymm : ∀ a b : String, a ∈ entries.map Prod.fst → b ∈ entries'.map Prod.fst → a < b →
        b < a → a = b := fun a b _ _ hab hba => absurd hba (String.lt_asymm hab)
    refine List.Perm.eq_of_pairwise hasymm hs ht ?_
    · have hnodup {l : List String} (hl : l.Pairwise (· < ·)) : l.Nodup :=
        hl.imp fun {a b} hlt => by
          rintro rfl
          exact String.lt_irrefl a hlt
      exact (List.perm_ext_iff_of_nodup (hnodup hs) (hnodup ht)).mpr h
  obtain rfl : entries = entries' :=
    List.map_injective_iff.mpr (fun _ _ h => Prod.ext h rfl) hkeys
  rfl

namespace Template

open Stencil.Text

/-! ## Configuration directives -/

/-- **A configuration directive:** a directive that does not go on with the word of an include and
a blank, in whatever letter case. -/
def IsConfiguration (text : List Char) : Prop :=
  directiveStart <+: text ∧
    ∀ word rest, interior text = word ++ rest → lowerAscii word ≠ includeWord

/-- A text begins with a word in some letter case if as many of its characters are that word. -/
theorem eqIgnoringCase_take_iff {s word : List Char} (hword : lowerAscii word = word) :
    eqIgnoringCase (s.take word.length) word = true ↔
      ∃ u rest, s = u ++ rest ∧ lowerAscii u = word := by
  rw [eqIgnoringCase, beq_iff_eq, hword]
  constructor
  · exact fun h => ⟨_, _, (List.take_append_drop _ _).symm, h⟩
  · rintro ⟨u, rest, rfl, hu⟩
    have hlength : word.length = u.length := by
      rw [← hu, lowerAscii, List.length_map]
    rw [hlength, List.take_left, hu]

/-- **The directives that are taken out** are the configuration directives. -/
theorem classify_eq_configuration_iff (text : List Char) :
    classify text = some .configuration ↔ IsConfiguration text := by
  have hlower : lowerAscii includeWord = includeWord := by decide
  have hinclude := eqIgnoringCase_take_iff (s := interior text) hlower
  unfold classify IsConfiguration
  rw [← List.isPrefixOf_iff_prefix]
  by_cases hstart : directiveStart.isPrefixOf text = true
  · rw [if_pos hstart]
    by_cases hword : eqIgnoringCase ((interior text).take includeWord.length) includeWord = true
    · obtain ⟨u, rest, heq, hu⟩ := hinclude.mp hword
      rw [if_pos hword]
      simpa [hstart] using ⟨u, ⟨rest, heq⟩, hu⟩
    · rw [if_neg hword]
      have hnone : ∀ u rest, interior text = u ++ rest → lowerAscii u ≠ includeWord :=
        fun u rest heq hu => hword (hinclude.mpr ⟨u, rest, heq, hu⟩)
      simpa [hstart] using hnone
  · simp [hstart]

/-- The kind of a part tells whether it is a configuration directive. -/
theorem kind_eq_configuration_iff (p : Part) :
    p.kind = some .configuration ↔ IsConfiguration p.text.toList :=
  classify_eq_configuration_iff _

instance : DecidablePred IsConfiguration :=
  fun text => decidable_of_iff _ (classify_eq_configuration_iff text)

/-- **A part declares a key and a value:** these are its only words. -/
def Declares (p : Part) (d : Directive) : Prop :=
  words (interior p.text.toList) = [d.key.toList, d.value.toList]

/-- The key and the value of a part are the ones that it declares. -/
theorem ofPart_eq_ok_iff (p : Part) (d : Directive) :
    Directive.ofPart p = .ok d ↔ Declares p d := by
  unfold Directive.ofPart Declares
  dsimp only
  split
  · rename_i key value hwords
    rw [hwords]
    constructor
    · rintro ⟨⟩
      simp
    · intro h
      obtain ⟨rfl, rfl⟩ : key = d.key.toList ∧ value = d.value.toList := by simpa using h
      simp
  · rename_i hwords
    constructor
    · intro h
      cases h
    · exact fun h => absurd h (hwords _ _)

/-! ## What directives set -/

/-- The keys that name an import. -/
def importKeys : List String := ["use", "using", "import"]

/-- The keys that name a library. -/
def referenceKeys : List String := ["ref", "reference", "references"]

/-- The key that names the language. -/
def languageKeys : List String := ["language"]

/-- **The values that are given to some keys,** in order. -/
def Directive.values (keys : List String) (ds : List Directive) : List String :=
  (ds.filter fun d => d.key ∈ keys).map Directive.value

/-- **The language that values name:** the last of them in its one spelling, or the one there
was. -/
def languageOf (values : List String) (language : String) : String :=
  (values.getLast?.map normalizeLanguage).getD language

/-- **The unit with more parts behind it,** of which the configuration directives are given. -/
def CompilationUnit.extend (config : ParserConfig) (unit : CompilationUnit) (parts : List Part)
    (ds : List Directive) : CompilationUnit where
  language := languageOf (Directive.values languageKeys ds) unit.language
  imports := (Directive.values importKeys ds).foldl NameSet.insert unit.imports
  references := ((Directive.values referenceKeys ds).map
    (withLibrarySuffix · config.librarySuffix)).foldl NameSet.insert unit.references
  codeParts := unit.codeParts ++
    (parts.filter fun p => ¬ IsConfiguration p.text.toList).map Part.text
  directives := unit.directives ++ ds
  parts := unit.parts ++ parts

/-- **A unit that has what its parts declare,** and nothing else: each part is a code part or a
configuration directive, and each setting is what the directives with its keys say. -/
structure DrawnFrom (config : ParserConfig) (parts : List Part) (unit : CompilationUnit) :
    Prop where
  codeParts : unit.codeParts =
    (parts.filter fun p => ¬ IsConfiguration p.text.toList).map Part.text
  directives : List.Forall₂ Declares (parts.filter fun p => IsConfiguration p.text.toList)
    unit.directives
  keys : ∀ d ∈ unit.directives, d.key ∈ settingKeys
  imports : ∀ name, name ∈ unit.imports.toList ↔
    name ∈ config.defaultImports ∨ name ∈ Directive.values importKeys unit.directives
  references : ∀ name, name ∈ unit.references.toList ↔
    ∃ value ∈ Directive.values referenceKeys unit.directives,
      withLibrarySuffix value config.librarySuffix = name
  language : unit.language =
    languageOf (Directive.values languageKeys unit.directives) config.defaultLanguage
  parts : unit.parts = parts

/-! ## Adding parts -/

/-- The values of directives, the first of which has one of the keys. -/
theorem Directive.values_cons_of_mem {keys : List String} {d : Directive} (ds : List Directive)
    (h : d.key ∈ keys) : values keys (d :: ds) = d.value :: values keys ds := by
  simp [values, h]

/-- The values of directives, the first of which has none of the keys. -/
theorem Directive.values_cons_of_not_mem {keys : List String} {d : Directive}
    (ds : List Directive) (h : d.key ∉ keys) : values keys (d :: ds) = values keys ds := by
  simp [values, h]

/-- The last of the values behind another. -/
theorem languageOf_cons (value : String) (values : List String) (language : String) :
    languageOf (value :: values) language = languageOf values (normalizeLanguage value) := by
  rw [languageOf, languageOf, List.getLast?_cons]
  cases values.getLast? <;> rfl

/-- A key means something if it is one of the keys of a setting. -/
theorem setting_cases {d : Directive} (h : d.key ∈ settingKeys) :
    (d.key ∈ importKeys ∧ d.key ∉ referenceKeys ∧ d.key ∉ languageKeys ∧
      d.setting = some (.use d.value)) ∨
    (d.key ∉ importKeys ∧ d.key ∉ referenceKeys ∧ d.key ∈ languageKeys ∧
      d.setting = some (.language d.value)) ∨
    (d.key ∉ importKeys ∧ d.key ∈ referenceKeys ∧ d.key ∉ languageKeys ∧
      d.setting = some (.reference d.value)) := by
  simp only [settingKeys, List.mem_cons, List.not_mem_nil, or_false] at h
  rcases h with h | h | h | h | h | h | h <;>
    simp [Directive.setting, importKeys, referenceKeys, languageKeys, h]

namespace CompilationUnit

variable {config : ParserConfig} {unit unit' : CompilationUnit} {p : Part} {parts : List Part}

/-- A setting changes no part. -/
@[simp] theorem apply_parts (setting : Setting) :
    (unit.apply config setting).parts = unit.parts := by
  cases setting <;> rfl

/-- A setting changes no directive. -/
@[simp] theorem apply_directives (setting : Setting) :
    (unit.apply config setting).directives = unit.directives := by
  cases setting <;> rfl

/-- The unit with no more parts. -/
theorem extend_nil : unit.extend config [] [] = unit := by
  simp [extend, Directive.values, languageOf]

/-- A code part in front of other parts. -/
theorem extend_code (h : ¬ IsConfiguration p.text.toList) (ds : List Directive) :
    unit.extend config (p :: parts) ds =
      extend config
        { unit with codeParts := unit.codeParts ++ [p.text], parts := unit.parts ++ [p] }
        parts ds := by
  simp [extend, h]

/-- **A configuration directive in front of other parts** is applied before them. -/
theorem extend_directive (h : IsConfiguration p.text.toList) {d : Directive} {setting : Setting}
    (hsetting : d.setting = some setting) (ds : List Directive) :
    unit.extend config (p :: parts) (d :: ds) =
      extend config { unit.apply config setting with
        directives := unit.directives ++ [d], parts := unit.parts ++ [p] } parts ds := by
  have hkey : d.key ∈ settingKeys := by
    by_contra hkey
    rw [(setting_eq_none_iff d).mpr hkey] at hsetting
    cases hsetting
  rcases setting_cases hkey with ⟨hi, hr, hl, hset⟩ | ⟨hi, hr, hl, hset⟩ | ⟨hi, hr, hl, hset⟩
  all_goals
    obtain rfl := Option.some.inj (hsetting.symm.trans hset)
    simp [extend, apply, h, hi, hr, hl, Directive.values_cons_of_mem,
      Directive.values_cons_of_not_mem, languageOf_cons]

/-- **Adding a part:** its text is a code part, or what it declares is applied. -/
theorem addPart_eq_ok_iff :
    addPart config unit p = .ok unit' ↔
      (¬ IsConfiguration p.text.toList ∧ unit' =
        { unit with codeParts := unit.codeParts ++ [p.text], parts := unit.parts ++ [p] }) ∨
      (IsConfiguration p.text.toList ∧ ∃ d setting, Declares p d ∧ d.setting = some setting ∧
        unit' = { unit.apply config setting with
          directives := unit.directives ++ [d], parts := unit.parts ++ [p] }) := by
  have hkind := kind_eq_configuration_iff p
  unfold addPart
  by_cases h : IsConfiguration p.text.toList
  · rw [if_pos (hkind.mpr h)]
    cases hd : Directive.ofPart p with
    | error e =>
      have hnone : ∀ d, ¬ Declares p d := fun d hdeclares => by
        rw [(ofPart_eq_ok_iff p d).mpr hdeclares] at hd
        cases hd
      simp [h, hnone]
    | ok d =>
      have hdeclares (d' : Directive) : Declares p d' ↔ d = d' := by
        rw [← ofPart_eq_ok_iff, hd, Except.ok.injEq]
      cases hs : d.setting with
      | none => simp [h, hdeclares, hs]
      | some setting => simp [h, hdeclares, hs, eq_comm]
  · rw [if_neg (mt hkind.mp h)]
    simp [h, eq_comm]

/-- **What a list of parts adds to a unit.** They are added if and only if each configuration
directive among them declares a value for a key of a setting.

**Proof sketch.** Induction on the parts. A code part is behind the code parts that there are, and
a directive behind the directives; what it sets is the beginning of what the others set. -/
theorem foldlM_addPart_eq_ok_iff :
    parts.foldlM (addPart config) unit = .ok unit' ↔
      ∃ ds, List.Forall₂ Declares (parts.filter fun p => IsConfiguration p.text.toList) ds ∧
        (∀ d ∈ ds, d.key ∈ settingKeys) ∧ unit' = unit.extend config parts ds := by
  induction parts generalizing unit with
  | nil => simp [extend_nil, pure, Except.pure, eq_comm]
  | cons p parts ih =>
    have hbind : (p :: parts).foldlM (addPart config) unit = .ok unit' ↔
        ∃ next, addPart config unit p = .ok next ∧
          parts.foldlM (addPart config) next = .ok unit' := by
      rw [List.foldlM_cons]
      cases addPart config unit p <;> simp [bind, Except.bind]
    rw [hbind]
    by_cases h : IsConfiguration p.text.toList
    · constructor
      · rintro ⟨next, hnext, hrest⟩
        obtain ⟨hcode, -⟩ | ⟨-, d, setting, hd, hsetting, rfl⟩ := addPart_eq_ok_iff.mp hnext
        · exact absurd h hcode
        obtain ⟨ds, hds, hkeys, rfl⟩ := ih.mp hrest
        refine ⟨d :: ds, by simpa [h] using ⟨hd, hds⟩, ?_, (extend_directive h hsetting ds).symm⟩
        refine List.forall_mem_cons.mpr ⟨?_, hkeys⟩
        by_contra hkey
        rw [(setting_eq_none_iff d).mpr hkey] at hsetting
        cases hsetting
      · rintro ⟨ds, hds, hkeys, rfl⟩
        rw [List.filter_cons_of_pos (by simpa using h)] at hds
        obtain ⟨d, ds, hd, hmore, rfl⟩ := List.forall₂_cons_left_iff.mp hds
        rw [List.forall_mem_cons] at hkeys
        obtain ⟨setting, hsetting⟩ := Option.ne_none_iff_exists'.mp
          fun hnone => (setting_eq_none_iff d).mp hnone hkeys.1
        exact ⟨_, addPart_eq_ok_iff.mpr (.inr ⟨h, d, setting, hd, hsetting, rfl⟩),
          ih.mpr ⟨ds, hmore, hkeys.2, extend_directive h hsetting ds⟩⟩
    · rw [List.filter_cons_of_neg (by simpa using h)]
      simp [addPart_eq_ok_iff, h, ih, extend_code h]

/-- **The unit of a list of parts** is the one that has what they declare. -/
theorem ofParts_eq_ok_iff : ofParts config parts = .ok unit ↔ DrawnFrom config parts unit := by
  have hempty (name : String) : name ∉ NameSet.toList .empty := List.not_mem_nil
  unfold ofParts
  rw [foldlM_addPart_eq_ok_iff]
  constructor
  · rintro ⟨ds, hds, hkeys, rfl⟩
    refine ⟨rfl, hds, hkeys, fun name => ?_, fun name => ?_, rfl, rfl⟩
    · rw [extend, initial, NameSet.mem_foldl_insert, NameSet.mem_ofList]
      exact or_comm
    · rw [extend, initial, NameSet.mem_foldl_insert, or_iff_left (hempty name)]
      exact List.mem_map
  · intro h
    have himports : unit.imports = (Directive.values importKeys unit.directives).foldl
        NameSet.insert (.ofList config.defaultImports) := by
      refine NameSet.eq_of_mem_iff fun name => ?_
      rw [h.imports, NameSet.mem_foldl_insert, NameSet.mem_ofList]
      exact or_comm
    have hreferences : unit.references = ((Directive.values referenceKeys unit.directives).map
        (withLibrarySuffix · config.librarySuffix)).foldl NameSet.insert .empty := by
      refine NameSet.eq_of_mem_iff fun name => ?_
      rw [h.references, NameSet.mem_foldl_insert, or_iff_left (hempty name)]
      exact List.mem_map.symm
    refine ⟨unit.directives, h.directives, h.keys, ?_⟩
    calc unit
      _ = ⟨unit.language, unit.imports, unit.references, unit.codeParts, unit.directives,
            unit.parts⟩ := rfl
      _ = (initial config).extend config parts unit.directives := by
        rw [h.language, himports, hreferences, h.codeParts, h.parts]
        rfl

end CompilationUnit

/-! ## The unit of a source -/

/-- There are as many directives as parts that are none of the code parts. -/
theorem DrawnFrom.length_add_length {config : ParserConfig} {parts : List Part}
    {unit : CompilationUnit} (h : DrawnFrom config parts unit) :
    unit.codeParts.length + unit.directives.length = parts.length := by
  rw [h.codeParts, List.length_map, ← h.directives.length_eq, Nat.add_comm]
  simpa using (List.length_eq_length_filter_add fun p : Part =>
    decide (IsConfiguration p.text.toList)).symm

/-- No code part is a configuration directive. -/
theorem DrawnFrom.not_isConfiguration {config : ParserConfig} {parts : List Part}
    {unit : CompilationUnit} (h : DrawnFrom config parts unit) :
    ∀ text ∈ unit.codeParts, ¬ IsConfiguration text.toList := by
  intro text htext
  rw [h.codeParts] at htext
  obtain ⟨p, hp, rfl⟩ := List.mem_map.mp htext
  simpa using (List.mem_filter.mp hp).2

/-- A source whose configuration directives have values for keys of settings is parsed to the unit
with these directives. -/
theorem parse_eq_extend (config : ParserConfig) {source : String} {parts : List Part}
    (hsplit : split source = .ok parts) {ds : List Directive}
    (hds : List.Forall₂ Declares (parts.filter fun p => IsConfiguration p.text.toList) ds)
    (hkeys : ∀ d ∈ ds, d.key ∈ settingKeys) :
    parse config source = .ok ((CompilationUnit.initial config).extend config parts ds) := by
  rw [parse, hsplit]
  exact CompilationUnit.foldlM_addPart_eq_ok_iff.mpr ⟨ds, hds, hkeys, rfl⟩

/-- **The unit of a source** is the one that has what the parts of the source declare. There is one
if and only if the source is split into parts, and each configuration directive among them has a
value for one of the keys. The code parts and the directives are then all the parts, and no code
part is a configuration directive.

**Proof sketch.** The unit is made by adding one part after another. What a list of parts adds is
known by induction, and it starts from the defaults. -/
theorem parse_eq_ok_iff (config : ParserConfig) (source : String) (unit : CompilationUnit) :
    parse config source = .ok unit ↔
      ∃ parts, split source = .ok parts ∧ DrawnFrom config parts unit ∧
        unit.codeParts.length + unit.directives.length = parts.length ∧
        ∀ text ∈ unit.codeParts, ¬ IsConfiguration text.toList := by
  unfold parse
  cases hsplit : split source with
  | error e => simp
  | ok parts =>
    constructor
    · intro h
      have hdrawn := CompilationUnit.ofParts_eq_ok_iff.mp h
      exact ⟨parts, rfl, hdrawn, hdrawn.length_add_length, hdrawn.not_isConfiguration⟩
    · rintro ⟨_, ⟨⟩, hdrawn, -⟩
      exact CompilationUnit.ofParts_eq_ok_iff.mpr hdrawn

end Template

end Stencil
