import Stencil.Proofs.Lua.Generation
import Stencil.Proofs.Lua.Spelling
set_option autoImplicit false

/-!
# The names that a program takes from its input

Parameters, properties of the state and imports all become local variables of the program, so each
of them must be a name that the program does not keep for itself. Here is which names these are,
and which error the first other name gives.

## Main definitions

* `Stencil.Lua.Usable` — the names that an input may bring.
* `Stencil.Lua.Importable` — the paths that end in such a name.
* `Stencil.Lua.Frame` — what a program has around the statements of its parts.
* `Stencil.Lua.Refused` — the errors of an input.

## Main results

* `Stencil.Lua.isUsable_iff`, `importable_iff` — the names and paths that are accepted.
* `Stencil.Lua.generate_eq_ok_iff` — the text of a program, from the names and the parts.
* `Stencil.Lua.generate_eq_error_iff` — when there is no program, and why.
-/

namespace Stencil.Lua

open Template (IsLiteral IsBlock)

/-! ## Lists of results -/

section Results

variable {ε α β : Type} {f : α → Except ε β} {as : List α}

/-- What was done before something else. -/
theorem exists_of_bind_eq_ok {x : Except ε α} {b : β} (h : (x >>= f) = .ok b) :
    ∃ a, x = .ok a ∧ f a = .ok b := by
  cases x with
  | error e => cases h
  | ok a => exact ⟨a, rfl, h⟩

/-- What fails of two things, one after the other. -/
theorem bind_eq_error_iff {x : Except ε α} {e : ε} :
    (x >>= f) = .error e ↔ x = .error e ∨ ∃ a, x = .ok a ∧ f a = .error e := by
  cases x with
  | error e' => simp [bind, Except.bind]
  | ok a => simp [bind, Except.bind]

/-- An error stays as it is under a map. -/
theorem map_eq_error_iff {g : α → β} {x : Except ε α} {e : ε} :
    x.map g = .error e ↔ x = .error e := by
  cases x with
  | error e' => simp [Except.map]
  | ok a => simp [Except.map]

/-- A list of results, each of which is one. -/
theorem mapM_eq_ok {bs : List β} (h : as.mapM f = .ok bs) :
    List.Forall₂ (fun a b => f a = .ok b) as bs := by
  induction as generalizing bs with
  | nil =>
    cases h
    exact .nil
  | cons a as ih =>
    rw [List.mapM_cons] at h
    obtain ⟨b, hb, h⟩ := exists_of_bind_eq_ok h
    obtain ⟨bs, hbs, h⟩ := exists_of_bind_eq_ok h
    cases h
    exact .cons hb (ih hbs)

/-- A list has results if each of its members has one. -/
theorem mapM_of_forall₂ {bs : List β} (h : List.Forall₂ (fun a b => f a = .ok b) as bs) :
    as.mapM f = .ok bs := by
  induction h with
  | nil => rfl
  | cons hb _ ih =>
    rw [List.mapM_cons, hb, ih]
    rfl

/-- **A check of each member of a list.** The first one that fails it gives the error. -/
theorem mapM_of_check {P : α → Prop} [DecidablePred P] {g : α → β} {err : α → ε}
    (hf : ∀ a, f a = if P a then .ok (g a) else .error (err a)) :
    as.mapM f = match as.find? fun a => ¬ P a with
      | none => .ok (as.map g)
      | some a => .error (err a) := by
  induction as with
  | nil => rfl
  | cons a as ih =>
    rw [List.mapM_cons, hf, ih]
    by_cases ha : P a
    · rw [if_pos ha, List.find?_cons_of_neg (by simpa using ha)]
      cases as.find? fun a => ¬ P a <;> rfl
    · rw [if_neg ha, List.find?_cons_of_pos (by simpa using ha)]
      rfl

/-- All members pass a check. -/
theorem mapM_check_eq_ok_iff {P : α → Prop} [DecidablePred P] {g : α → β} {err : α → ε}
    (hf : ∀ a, f a = if P a then .ok (g a) else .error (err a)) {bs : List β} :
    as.mapM f = .ok bs ↔ (∀ a ∈ as, P a) ∧ bs = as.map g := by
  rw [mapM_of_check hf]
  cases hfind : as.find? fun a => ¬ P a with
  | none =>
    have hall : ∀ a ∈ as, P a := by simpa using List.find?_eq_none.mp hfind
    exact ⟨fun h => ⟨hall, (Except.ok.inj h).symm⟩, fun h => congrArg Except.ok h.2.symm⟩
  | some a =>
    have hmem := List.mem_of_find?_eq_some hfind
    have hfails : ¬ P a := by simpa using List.find?_some hfind
    simp only [reduceCtorEq, false_iff]
    exact fun h => hfails (h.1 a hmem)

/-- **The first member that fails a check.** -/
theorem mapM_check_eq_error_iff {P : α → Prop} [DecidablePred P] {g : α → β} {err : α → ε}
    (hf : ∀ a, f a = if P a then .ok (g a) else .error (err a)) {e : ε} :
    as.mapM f = .error e ↔ ∃ before a after, as = before ++ a :: after ∧
      (∀ b ∈ before, P b) ∧ ¬ P a ∧ err a = e := by
  have hfirst (a : α) : as.find? (fun a => ¬ P a) = some a ↔ ∃ before after,
      as = before ++ a :: after ∧ (∀ b ∈ before, P b) ∧ ¬ P a := by
    rw [List.find?_eq_some_iff_append]
    simp
    grind
  rw [mapM_of_check hf]
  cases hfind : as.find? fun a => ¬ P a with
  | none =>
    have hall : ∀ a ∈ as, P a := by simpa using List.find?_eq_none.mp hfind
    simp only [reduceCtorEq, false_iff]
    rintro ⟨before, a, after, rfl, -, hfails, -⟩
    exact hfails (hall a (by simp))
  | some a =>
    constructor
    · intro h
      obtain ⟨before, after, has, hbefore, hfails⟩ := (hfirst a).mp hfind
      exact ⟨before, a, after, has, hbefore, hfails, Except.error.inj h⟩
    · rintro ⟨before, a', after, has, hbefore, hfails, rfl⟩
      have hsome := (hfirst a').mpr ⟨before, after, has, hbefore, hfails⟩
      rw [hfind] at hsome
      rw [Option.some.inj hsome]

end Results

/-! ## Usable names -/

/-- A letter of ASCII. -/
def IsLetter (c : Char) : Prop := 'A' ≤ c ∧ c ≤ 'Z' ∨ 'a' ≤ c ∧ c ≤ 'z'

/-- A decimal digit. -/
def IsDigit (c : Char) : Prop := '0' ≤ c ∧ c ≤ '9'

/-- The words of the language. -/
def reservedWords : List String :=
  ["and", "break", "do", "else", "elseif", "end", "false", "for", "function", "goto", "if", "in",
   "local", "nil", "not", "or", "repeat", "return", "then", "true", "until", "while"]

/-- **The names that an input may bring into a program:** variables of the language that the
program does not keep for itself. -/
structure Usable (name : String) : Prop where
  spelling : ∃ c s, name.toList = c :: s ∧ (IsLetter c ∨ c = '_') ∧
    ∀ d ∈ s, IsLetter d ∨ IsDigit d ∨ d = '_'
  notWord : name ∉ reservedWords
  notHelper : ¬ ['_', '_'] <+: name.toList
  notEnvironment : name ≠ "_ENV"
  notSupport : name ≠ "codet"

/-- The letters. -/
theorem isAlpha_iff (c : Char) : c.isAlpha = true ↔ IsLetter c := by
  simp only [Char.isAlpha, Char.isUpper, Char.isLower, IsLetter, Bool.or_eq_true, Bool.and_eq_true,
    decide_eq_true_eq]
  exact Iff.rfl

/-- The digits. -/
theorem isDigit_iff (c : Char) : c.isDigit = true ↔ IsDigit c := by
  simp only [Char.isDigit, IsDigit, Bool.and_eq_true, decide_eq_true_eq]
  exact Iff.rfl

/-- The texts that have the form of a name. -/
theorem isNameText_iff (s : List Char) :
    isNameText s = true ↔ ∃ c t, s = c :: t ∧ (IsLetter c ∨ c = '_') ∧
      ∀ d ∈ t, IsLetter d ∨ IsDigit d ∨ d = '_' := by
  cases s with
  | nil => simp [isNameText]
  | cons c t =>
    simp [isNameText, isNameStart, isNameChar, Char.isAlphanum, isAlpha_iff, isDigit_iff, or_assoc]

/-- The texts that are words of the language. -/
theorem ofText?_eq_none_iff (name : String) :
    Keyword.ofText? name.toList = none ↔ name ∉ reservedWords := by
  have hwords : keywords.map Prod.fst = reservedWords.map String.toList := rfl
  have hmem : name ∈ reservedWords ↔ name.toList ∈ keywords.map Prod.fst := by
    rw [hwords, List.mem_map]
    exact ⟨fun h => ⟨name, h, rfl⟩, fun ⟨word, h, heq⟩ => String.toList_inj.mp heq ▸ h⟩
  rw [hmem, Keyword.ofText?, List.lookup_eq_none_iff, List.mem_map]
  grind

/-- **The names that are accepted.** -/
theorem isUsable_iff (name : String) : isUsable name = true ↔ Usable name := by
  have hreserved : (!isReserved name) = true ↔
      ¬ ['_', '_'] <+: name.toList ∧ name ≠ "_ENV" ∧ name ≠ "codet" := by
    rw [← List.isPrefixOf_iff_prefix, Bool.not_eq_true]
    simp [isReserved, supportName, and_assoc]
  have hword : (Keyword.ofText? name.toList).isNone = true ↔ name ∉ reservedWords := by
    rw [Option.isNone_iff_eq_none, ofText?_eq_none_iff]
  rw [isUsable, isIdentifier, Bool.and_eq_true, Bool.and_eq_true, isNameText_iff, hword, hreserved]
  constructor
  · rintro ⟨⟨hspelling, hword⟩, hhelper, henvironment, hsupport⟩
    exact ⟨hspelling, hword, hhelper, henvironment, hsupport⟩
  · intro h
    exact ⟨⟨h.spelling, h.notWord⟩, h.notHelper, h.notEnvironment, h.notSupport⟩

/-- A usable name is an identifier. -/
theorem Usable.isIdentifier {name : String} (h : Usable name) : isIdentifier name = true :=
  (Bool.and_eq_true_iff.mp ((isUsable_iff name).mpr h)).1

/-! ## Paths -/

/-- **The last segment of a dotted path.** -/
def IsLastSegment (path segment : String) : Prop :=
  '.' ∉ segment.toList ∧ (path = segment ∨ ∃ front, path = front ++ "." ++ segment)

/-- **The paths that can be imported** end in a usable name, and so can the support table. -/
def Importable (path : String) : Prop :=
  path = "codet" ∨ ∃ segment, IsLastSegment path segment ∧ Usable segment

/-- A text of pieces ends in the last of them. -/
theorem intercalate_concat (sep : Char) (ps : List (List Char)) (p : List Char) (hne : ps ≠ []) :
    [sep].intercalate (ps ++ [p]) = [sep].intercalate ps ++ sep :: p := by
  induction ps with
  | nil => exact absurd rfl hne
  | cons q ps ih =>
    cases ps with
    | nil => simp [List.intercalate]
    | cons q' ps =>
      have hmore := ih (by simp)
      rw [List.cons_append, List.cons_append, List.intercalate_cons_cons, ← List.cons_append, hmore,
        List.intercalate_cons_cons]
      simp

/-- The last of the pieces of a path is its last segment. -/
theorem isLastSegment_lastSegment (path : String) : IsLastSegment path (lastSegment path) := by
  obtain ⟨ps, p, hps⟩ : ∃ ps p, Text.splitOn '.' path.toList = ps ++ [p] :=
    ⟨_, _, (List.dropLast_append_getLast (Text.splitOn_ne_nil '.' path.toList)).symm⟩
  have hpath := Text.intercalate_splitOn '.' path.toList
  have hsegment : lastSegment path = String.ofList p := by
    rw [lastSegment, hps, List.getLast?_concat, Option.getD_some]
  have hdot : '.' ∉ p := Text.not_mem_of_mem_splitOn (by rw [hps]; simp)
  rw [hps] at hpath
  refine ⟨by rwa [hsegment, String.toList_ofList], ?_⟩
  rw [hsegment]
  cases ps with
  | nil =>
    rw [List.nil_append] at hpath
    refine .inl (String.toList_inj.mp ?_)
    rw [String.toList_ofList, ← hpath]
    simp [List.intercalate]
  | cons q ps =>
    rw [intercalate_concat _ _ _ (by simp)] at hpath
    refine .inr ⟨String.ofList (['.'].intercalate (q :: ps)), String.toList_inj.mp ?_⟩
    simp [← hpath]

/-- A path has one last segment. -/
theorem IsLastSegment.eq_lastSegment {path segment : String} (h : IsLastSegment path segment) :
    segment = lastSegment path := by
  have hends {p q : List Char} (hp : '.' ∉ p) (hq : '.' ∉ q) {s t : List Char}
      (hs : s = [] ∨ ∃ f, s = f ++ ['.']) (ht : t = [] ∨ ∃ f, t = f ++ ['.'])
      (heq : s ++ p = t ++ q) : p = q := by
    have htake (r : List Char) (hr : '.' ∉ r) {u : List Char} (hu : u = [] ∨ ∃ f, u = f ++ ['.']) :
        (u ++ r).reverse.takeWhile (· ≠ '.') = r.reverse := by
      have hall : ∀ c ∈ r.reverse, decide (c ≠ '.') = true := by
        intro c hc
        rw [List.mem_reverse] at hc
        exact decide_eq_true fun hdot => hr (hdot ▸ hc)
      rw [List.reverse_append, List.takeWhile_append_of_pos hall]
      rcases hu with rfl | ⟨f, rfl⟩ <;> simp
    rw [← List.reverse_inj, ← htake p hp hs, ← htake q hq ht, heq]
  have hfront {segment : String} (h : IsLastSegment path segment) :
      ∃ s, (s = [] ∨ ∃ f, s = f ++ ['.']) ∧ path.toList = s ++ segment.toList := by
    rcases h.2 with rfl | ⟨front, rfl⟩
    · exact ⟨[], .inl rfl, rfl⟩
    · exact ⟨front.toList ++ ['.'], .inr ⟨_, rfl⟩, by simp⟩
  have hlast := isLastSegment_lastSegment path
  obtain ⟨s, hs, hpath⟩ := hfront h
  obtain ⟨t, ht, hpath'⟩ := hfront hlast
  exact String.toList_inj.mp (hends h.1 hlast.1 hs ht (hpath.symm.trans hpath'))

/-- The paths that can be imported, by their last segments. -/
theorem importable_iff (path : String) :
    Importable path ↔ path = "codet" ∨ Usable (lastSegment path) := by
  unfold Importable
  refine or_congr Iff.rfl ⟨?_, fun h => ⟨_, isLastSegment_lastSegment path, h⟩⟩
  rintro ⟨segment, hsegment, h⟩
  rwa [← hsegment.eq_lastSegment]

instance : DecidablePred Usable := fun name => decidable_of_iff _ (isUsable_iff name)

instance : DecidablePred Importable := fun path => decidable_of_iff _ (importable_iff path).symm

/-- What is bound to an import is an identifier. -/
theorem Importable.isIdentifier {path : String} (h : Importable path) :
    isIdentifier (lastSegment path) = true := by
  rcases (importable_iff path).mp h with rfl | husable
  · decide
  · exact husable.isIdentifier

/-- **The line of an import** binds its last segment, if the path can be imported. -/
theorem importLine_eq (path : String) :
    importLine path = if Importable path then .ok (importStatement (lastSegment path) path)
      else .error (.invalidArgument "imports"
        s!"import '{path}' does not end in a usable Lua name") := by
  have hcond : (Lua.isIdentifier (lastSegment path) &&
      (!isReserved (lastSegment path) || path == supportName)) = true ↔ Importable path := by
    rw [importable_iff, ← isUsable_iff, isUsable, Bool.and_or_distrib_left, Bool.or_eq_true,
      Bool.and_eq_true (Lua.isIdentifier _) (path == supportName), beq_iff_eq, or_comm]
    refine or_congr ⟨fun h => h.2, ?_⟩ Iff.rfl
    rintro rfl
    exact ⟨by decide, rfl⟩
  unfold importLine importBinding
  dsimp only
  split
  · rename_i h
    rw [if_pos (hcond.mp h)]
    rfl
  · rename_i h
    rw [if_neg fun hi => h (hcond.mpr hi)]
    rfl

/-! ## What a program has around its parts -/

namespace Outline

/-- The outline for an input. The support table is always among the imports. -/
def ofInput (input : HandlerInput) : Outline where
  parameters :=
    if input.isPropertyMode then input.stateType.properties
    else [Text.trimString input.parameterName]
  imports := input.imports.toList.map (fun path => (lastSegment path, path)) ++
    if input.imports.contains supportName then [] else [(supportName, supportName)]
  arguments :=
    if input.isPropertyMode then input.stateType.properties.map .property else [.state]

end Outline

/-- **The errors of an input.** The parameters come before the imports, and of each the first that
is not usable counts. -/
inductive Refused (input : HandlerInput) : Error → Prop
  | parameter (hmode : Text.isBlankString input.parameterName = false)
      (hname : ¬ Usable (Text.trimString input.parameterName)) :
      Refused input (.invalidArgument "parameter_name"
        s!"'{Text.trimString input.parameterName}' is not a usable Lua identifier")
  | property (hmode : Text.isBlankString input.parameterName = true)
      (before : List String) (name : String) (after : List String)
      (hproperties : input.stateType.properties = before ++ name :: after)
      (hbefore : ∀ p ∈ before, Usable p) (hname : ¬ Usable name) :
      Refused input (.invalidArgument "state_type"
        s!"property '{name}' of {input.stateType.name} is not a usable Lua identifier")
  | path (hparameters : ∀ p ∈ (Outline.ofInput input).parameters, Usable p)
      (before : List String) (name : String) (after : List String)
      (himports : input.imports.toList = before ++ name :: after)
      (hbefore : ∀ p ∈ before, Importable p) (hname : ¬ Importable name) :
      Refused input (.invalidArgument "imports"
        s!"import '{name}' does not end in a usable Lua name")

/-- **Inputs whose names are all usable.** -/
structure Accepted (input : HandlerInput) : Prop where
  parameters : ∀ p ∈ (Outline.ofInput input).parameters, Usable p
  imports : ∀ path ∈ input.imports.toList, Importable path

/-! ## Parameters and imports -/

/-- A property becomes a parameter if it is usable. -/
theorem propertyParameter_eq (typeName property : String) :
    propertyParameter typeName property = if Usable property then .ok property
      else .error (.invalidArgument "state_type"
        s!"property '{property}' of {typeName} is not a usable Lua identifier") := by
  unfold propertyParameter
  simp only [isUsable_iff]

/-- **The parameters and the arguments,** if all names are usable. -/
theorem signature_eq_ok_iff {input : HandlerInput} {s : Signature} :
    signature input = .ok s ↔ (∀ p ∈ (Outline.ofInput input).parameters, Usable p) ∧
      s = ⟨(Outline.ofInput input).parameters,
        (Outline.ofInput input).arguments.map Passed.text⟩ := by
  unfold signature Outline.ofInput
  by_cases hmode : input.isPropertyMode = true
  · have hcheck (ps : List String) :
        input.stateType.properties.mapM (propertyParameter input.stateType.name) = .ok ps ↔
          (∀ p ∈ input.stateType.properties, Usable p) ∧ ps = input.stateType.properties := by
      rw [mapM_check_eq_ok_iff (propertyParameter_eq input.stateType.name), List.map_id']
    simp only [if_pos hmode, List.map_map]
    constructor
    · intro h
      obtain ⟨ps, hps, rfl⟩ := exists_of_map_eq_ok h
      obtain ⟨husable, rfl⟩ := (hcheck ps).mp hps
      exact ⟨husable, rfl⟩
    · rintro ⟨husable, rfl⟩
      rw [propertySignature, (hcheck _).mpr ⟨husable, rfl⟩]
      rfl
  · simp only [if_neg hmode, namedSignature, isUsable_iff, List.mem_singleton, forall_eq]
    split
    · rename_i h
      simp [h, Passed.text, eq_comm]
    · rename_i h
      simp [h]

/-- **The first parameter that is not usable** is the error. -/
theorem signature_eq_error_iff {input : HandlerInput} {e : Error} :
    signature input = .error e ↔
      (¬ ∀ p ∈ (Outline.ofInput input).parameters, Usable p) ∧ Refused input e := by
  unfold signature
  by_cases hmode : input.isPropertyMode = true
  · have hparameters : (Outline.ofInput input).parameters = input.stateType.properties := by
      simp [Outline.ofInput, hmode]
    rw [if_pos hmode, propertySignature, map_eq_error_iff,
      mapM_check_eq_error_iff (propertyParameter_eq input.stateType.name), hparameters]
    constructor
    · rintro ⟨before, name, after, hall, hbefore, hname, rfl⟩
      exact ⟨fun h => hname (h name (by simp [hall])),
        .property hmode before name after hall hbefore hname⟩
    · rintro ⟨hnot, hrefused⟩
      cases hrefused with
      | parameter hnamed => exact absurd hmode (Bool.eq_false_iff.mp hnamed)
      | property _ _ _ _ hall hbefore hname => exact ⟨_, _, _, hall, hbefore, hname, rfl⟩
      | path hall => exact absurd (hparameters ▸ hall) hnot
  · have hparameters : (Outline.ofInput input).parameters =
        [Text.trimString input.parameterName] := by
      simp [Outline.ofInput, hmode]
    rw [if_neg hmode, hparameters, namedSignature]
    simp only [isUsable_iff, List.mem_singleton, forall_eq]
    split
    · rename_i h
      simp [h]
    · rename_i h
      constructor
      · intro he
        obtain rfl := Except.error.inj he
        exact ⟨h, .parameter (Bool.eq_false_iff.mpr hmode) h⟩
      · rintro ⟨-, hrefused⟩
        cases hrefused with
        | parameter => rfl
        | property hblank => exact absurd hblank hmode
        | path hall => exact absurd (hall _ (by simp [hparameters])) h

/-- **The lines of the imports,** if all paths can be imported. -/
theorem importLines_eq_ok_iff {input : HandlerInput} {ls : List String} :
    importLines input.imports = .ok ls ↔ (∀ path ∈ input.imports.toList, Importable path) ∧
      ls = (Outline.ofInput input).imports.map fun i => importStatement i.1 i.2 := by
  have hcheck (ls : List String) : input.imports.toList.mapM importLine = .ok ls ↔
      (∀ path ∈ input.imports.toList, Importable path) ∧
        ls = input.imports.toList.map fun path => importStatement (lastSegment path) path :=
    mapM_check_eq_ok_iff importLine_eq
  have hlines : ((Outline.ofInput input).imports.map fun i => importStatement i.1 i.2) =
      if input.imports.contains supportName then
        input.imports.toList.map fun path => importStatement (lastSegment path) path
      else (input.imports.toList.map fun path => importStatement (lastSegment path) path) ++
        [importStatement supportName supportName] := by
    rw [Outline.ofInput, List.map_append, List.map_map]
    split
    · exact List.append_nil _
    · rfl
  rw [hlines]
  constructor
  · intro h
    obtain ⟨ls', hls, rfl⟩ := exists_of_map_eq_ok h
    obtain ⟨hall, rfl⟩ := (hcheck ls').mp hls
    exact ⟨hall, rfl⟩
  · rintro ⟨hall, rfl⟩
    rw [importLines, (hcheck _).mpr ⟨hall, rfl⟩]
    rfl

/-- **The first path that cannot be imported** is the error. -/
theorem importLines_eq_error_iff {imports : NameSet} {e : Error} :
    importLines imports = .error e ↔ ∃ before path after, imports.toList = before ++ path :: after ∧
      (∀ p ∈ before, Importable p) ∧ ¬ Importable path ∧
        .invalidArgument "imports" s!"import '{path}' does not end in a usable Lua name" = e := by
  rw [importLines, map_eq_error_iff, mapM_check_eq_error_iff importLine_eq]

/-! ## Parts -/

/-- **Each part of a template has a statement,** on a line that begins with a blank. -/
theorem exists_partStatement {part : String} (hkind : IsLiteral part.toList ∨ IsBlock part.toList)
    (hclass : Template.classify part.toList ≠ some .configuration) :
    ∃ l, partStatement part = .ok (some l) ∧ l.toList.head? = some ' ' := by
  by_cases hplain : Template.IsPlain part
  · refine ⟨_, partStatement_plain hplain hkind, ?_⟩
    cases Piece.ofPart part <;> simp [Piece.line, writeStatement]
  · obtain ⟨hblock, hnone⟩ := isBlock_of_not_isPlain hplain hkind hclass
    by_cases hinside : ∃ e, blockInside part.toList = '=' :: e
    · obtain ⟨e, he⟩ := hinside
      exact ⟨_, partStatement_expression hblock hnone he, by simp [writeStatement]⟩
    · exact ⟨_, partStatement_code hblock hnone (not_exists.mp hinside), by simp⟩

/-- The lines of parts that have a statement each. -/
theorem bodyLines_of_forall₂ {parts body : List String}
    (h : List.Forall₂ (fun part l => partStatement part = .ok (some l)) parts body) :
    bodyLines parts = .ok body := by
  have hstatements : parts.mapM partStatement = .ok (body.map some) := by
    refine mapM_of_forall₂ ?_
    rwa [List.forall₂_map_right_iff]
  rw [bodyLines, hstatements, Except.map, List.filterMap_map]
  exact congrArg Except.ok (List.filterMap_some)

/-- The statements for the parts are the lines of the pieces. -/
theorem bodyLines_plain {parts : List String} (hplain : ∀ part ∈ parts, Template.IsPlain part)
    (hkind : ∀ part ∈ parts, IsLiteral part.toList ∨ IsBlock part.toList) :
    bodyLines parts = .ok ((parts.map Piece.ofPart).map Piece.line) := by
  refine bodyLines_of_forall₂ ?_
  rw [List.map_map, List.forall₂_map_right_iff, List.forall₂_same]
  exact fun part hpart => partStatement_plain (hplain part hpart) (hkind part hpart)

/-- **The lines of the parts:** one for each of them, which begins with a blank. -/
theorem exists_bodyLines {parts : List String}
    (hkind : ∀ part ∈ parts, IsLiteral part.toList ∨ IsBlock part.toList)
    (hclass : ∀ part ∈ parts, Template.classify part.toList ≠ some .configuration) :
    ∃ body, bodyLines parts = .ok body ∧
      List.Forall₂ (fun part l => partStatement part = .ok (some l)) parts body ∧
      ∀ l ∈ body, l.toList.head? = some ' ' := by
  obtain ⟨body, hbody, hblank⟩ : ∃ body,
      List.Forall₂ (fun part l => partStatement part = .ok (some l)) parts body ∧
      ∀ l ∈ body, l.toList.head? = some ' ' := by
    induction parts with
    | nil => exact ⟨[], .nil, by simp⟩
    | cons part parts ih =>
      obtain ⟨l, hl, hhead⟩ := exists_partStatement (hkind part (by simp)) (hclass part (by simp))
      obtain ⟨body, hbody, hblank⟩ := ih (fun p hp => hkind p (by simp [hp]))
        fun p hp => hclass p (by simp [hp])
      exact ⟨l :: body, .cons hl hbody, by simpa using ⟨hhead, hblank⟩⟩
  exact ⟨body, bodyLines_of_forall₂ hbody, hbody, hblank⟩

/-! ## Programs -/

/-- **The text of a program,** from the names of its input and the lines of its parts. -/
theorem generate_eq_ok_iff {input : HandlerInput} {program : String} :
    generate input = .ok program ↔ Accepted input ∧ ∃ body, bodyLines input.codeParts = .ok body ∧
      program = (Outline.ofInput input).text (header input) body := by
  constructor
  · intro h
    rw [generate] at h
    obtain ⟨s, hs, h⟩ := exists_of_bind_eq_ok h
    obtain ⟨ls, hls, h⟩ := exists_of_bind_eq_ok h
    obtain ⟨body, hbody, h⟩ := exists_of_bind_eq_ok h
    obtain ⟨hparameters, rfl⟩ := signature_eq_ok_iff.mp hs
    obtain ⟨himports, rfl⟩ := importLines_eq_ok_iff.mp hls
    refine ⟨⟨hparameters, himports⟩, body, hbody, ?_⟩
    rw [← Except.ok.inj h, Outline.text, Outline.opening]
    simp only [List.append_assoc]
    rfl
  · rintro ⟨⟨hparameters, himports⟩, body, hbody, rfl⟩
    rw [generate, signature_eq_ok_iff.mpr ⟨hparameters, rfl⟩,
      importLines_eq_ok_iff.mpr ⟨himports, rfl⟩, hbody, Outline.text, Outline.opening]
    simp only [List.append_assoc]
    rfl

/-- **When there is no program,** and why: the first name that is not usable. -/
theorem generate_eq_error_iff {input : HandlerInput}
    (hkind : ∀ part ∈ input.codeParts, IsLiteral part.toList ∨ IsBlock part.toList)
    (hclass : ∀ part ∈ input.codeParts, Template.classify part.toList ≠ some .configuration)
    (e : Error) : generate input = .error e ↔ Refused input e := by
  obtain ⟨body, hbody, -, -⟩ := exists_bodyLines hkind hclass
  have hgenerate : generate input = .error e ↔ signature input = .error e ∨
      (∀ p ∈ (Outline.ofInput input).parameters, Usable p) ∧
        importLines input.imports = .error e := by
    rw [generate, bind_eq_error_iff]
    refine or_congr Iff.rfl ?_
    simp only [signature_eq_ok_iff, bind_eq_error_iff, hbody]
    simp [pure, Except.pure]
  rw [hgenerate, signature_eq_error_iff, importLines_eq_error_iff]
  constructor
  · rintro (⟨-, h⟩ | ⟨hparameters, before, path, after, hall, hbefore, hpath, rfl⟩)
    · exact h
    · exact .path hparameters before path after hall hbefore hpath
  · intro h
    by_cases hparameters : ∀ p ∈ (Outline.ofInput input).parameters, Usable p
    · refine .inr ⟨hparameters, ?_⟩
      cases h with
      | parameter hmode hname =>
        refine absurd (hparameters _ ?_) hname
        simp [Outline.ofInput, HandlerInput.isPropertyMode, hmode]
      | property hmode _ _ _ hall _ hname =>
        refine absurd (hparameters _ ?_) hname
        simp [Outline.ofInput, HandlerInput.isPropertyMode, hmode, hall]
      | path _ _ _ _ hall hbefore hpath => exact ⟨_, _, _, hall, hbefore, hpath, rfl⟩
    · exact .inl ⟨hparameters, h⟩

end Stencil.Lua
