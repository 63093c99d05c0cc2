import Stencil.Proofs.Ending
import Stencil.Proofs.LibraryName
import Stencil.Proofs.Lua.Resolution
import Stencil.Proofs.Template.CodePart
set_option autoImplicit false

/-!
# Libraries under their own names

A template declares a library by the path of its file, with or without the suffix, and imports it by
its name. On the way the name gets the suffix, is looked for in a directory, and loses both again
when its module is named. It comes out as it went in, so the local of the name is what the file
gave; a global of that name does not count.

## Main definitions

* `Stencil.Path.LeadsIn` — what may stand in front of a name.
* `Stencil.Template.Names` — a name as a template may declare it.
* `Stencil.Lua.Staged` — a template whose files have been run.

## Main results

* `Stencil.Path.stem_eq` — the stem of a name with an extension, in any directory.
* `Stencil.Lua.moduleName_resolvePath` — the module of a declared library has its name.
* `Stencil.Lua.reference_importable` — the local of the name is what the file gave.
* `Stencil.Lua.exists_reference_hidden` — it is not if a greater path has that last segment.
-/

namespace Stencil

open Text (eqIgnoringCase)

/-! ## Names behind directories -/

namespace Path

/-- **What may stand in front of a name:** nothing, or a directory with a slash behind it. -/
def LeadsIn (front : List Char) : Prop := front = [] ∨ ∃ dir, front = dir ++ ['/']

section Names

variable {front front' piece name t : List Char} {p : Path}

/-- One directory behind another. -/
theorem LeadsIn.append (h : LeadsIn front) (h' : LeadsIn front') : LeadsIn (front ++ front') := by
  rcases h' with rfl | ⟨dir, rfl⟩
  · rwa [List.append_nil]
  · exact .inr ⟨front ++ dir, (List.append_assoc ..).symm⟩

/-- What stands behind a directory is the last piece. -/
theorem lastPiece_of_leadsIn (h : LeadsIn front) (hpiece : '/' ∉ piece) :
    lastPiece (front ++ piece) = piece := by
  rw [lastPiece_append front hpiece]
  rcases h with rfl | ⟨dir, rfl⟩
  · rfl
  · rw [lastPiece_slash, List.nil_append]

/-- A name without dots has no extension. -/
theorem cutAtLastDot_of_not_mem (h : '.' ∉ name) : cutAtLastDot name = (name, none) := by
  have hall : name.rtakeWhile (· != '.') = name := by
    rw [List.rtakeWhile_eq_self_iff]
    intro c hc
    rw [bne_iff_ne]
    rintro rfl
    exact h hc
  rw [cutAtLastDot_eq hall]
  simp

/-- A piece that begins with a name is one. -/
theorem isName_append (hne : name ≠ []) (hdot : '.' ∉ name) (t : List Char) :
    IsName (name ++ t) := by
  obtain ⟨c, s, rfl⟩ := List.exists_cons_of_ne_nil hne
  have hc : c ≠ '.' := fun heq => hdot (heq ▸ List.mem_cons_self)
  refine ⟨by simp, ?_, ?_⟩ <;> intro heq <;> exact hc (List.cons.inj heq).1

/-- **The stem of a name with an extension** is the name, in any directory. -/
theorem stem_eq (htext : p.text.toList = front ++ (name ++ '.' :: t)) (hfront : LeadsIn front)
    (hne : name ≠ []) (hdot : '.' ∉ name) (hslash : '/' ∉ name) (ht : '.' ∉ t) (ht' : '/' ∉ t) :
    p.stem = some name := by
  have hlast : lastPiece p.text.toList = name ++ '.' :: t := by
    rw [htext]
    exact lastPiece_of_leadsIn hfront (by simp [hslash, ht'])
  have hname : IsName (lastPiece p.text.toList) := by
    rw [hlast]
    exact isName_append hne hdot _
  rw [stem, fileName_eq_lastPiece hname, hlast, Option.map_some, cutAtLastDot_append hne ht]

/-- A name without an extension has none in any directory. -/
theorem extension_eq_none (htext : p.text.toList = front ++ name) (hfront : LeadsIn front)
    (hne : name ≠ []) (hdot : '.' ∉ name) (hslash : '/' ∉ name) : p.extension = none := by
  have hlast : lastPiece p.text.toList = name := by
    rw [htext]
    exact lastPiece_of_leadsIn hfront hslash
  have hname : IsName (lastPiece p.text.toList) := by
    rw [hlast, ← List.append_nil name]
    exact isName_append hne hdot []
  rw [extension, fileName_eq_lastPiece hname, hlast, Option.bind_some, cutAtLastDot_of_not_mem hdot]

/-- A path taken relative to another stands behind it. -/
theorem exists_join (base : Path) (h : p.isAbsolute = false) :
    ∃ front, (base.join p).text.toList = front ++ p.text.toList ∧ LeadsIn front := by
  unfold join
  rw [h]
  simp only [Bool.false_eq_true, if_false]
  split
  · rename_i hlast
    exact ⟨[], by simp [List.getLast?_eq_none_iff.mp hlast], .inl rfl⟩
  · rename_i hlast
    obtain ⟨dir, hdir⟩ := List.getLast?_eq_some_iff.mp hlast
    exact ⟨base.text.toList, by simp, .inr ⟨dir, hdir⟩⟩
  · exact ⟨base.text.toList ++ ['/'], by simp, .inr ⟨_, rfl⟩⟩

end Names

end Path

/-- **A declared library is behind a directory,** wherever it is looked for. -/
theorem exists_resolvePath (fs : FileSystem) (runtimeDir : Option Path) (name : String) :
    ∃ front, (resolvePath fs runtimeDir name).text.toList = front ++ name.toList ∧
      Path.LeadsIn front := by
  have hlocated := located_resolvePath fs runtimeDir name
  generalize resolvePath fs runtimeDir name = path at hlocated ⊢
  cases hlocated with
  | absolute => exact ⟨[], rfl, .inl rfl⟩
  | asDeclared => exact ⟨[], rfl, .inl rfl⟩
  | inDirectory dir habsolute => exact Path.exists_join dir habsolute

/-! ## Names and suffixes -/

namespace Template

open Stencil.Path (LeadsIn)

/-- **A name as a template may declare it:** in a directory or in none, and with the suffix in any
letter case or without it. -/
def Names (value name suffix : String) : Prop :=
  ∃ front t, value.toList = front ++ (name.toList ++ t) ∧ LeadsIn front ∧
    (t = [] ∨ eqIgnoringCase t suffix.toList = true)

/-- **With its suffix, a name has an extension.** -/
theorem exists_withLibrarySuffix {value name suffix : String} (h : Names value name suffix)
    (hsuffix : IsExtension suffix.toList) (hne : name.toList ≠ []) (hdot : '.' ∉ name.toList)
    (hslash : '/' ∉ name.toList) :
    ∃ front t, (withLibrarySuffix value suffix).toList = front ++ (name.toList ++ '.' :: t) ∧
      LeadsIn front ∧ '.' ∉ t ∧ '/' ∉ t := by
  have hlong : suffix ≠ "" := by
    rintro rfl
    obtain ⟨ext, hext, -⟩ := hsuffix
    cases hext
  obtain ⟨front, t, hvalue, hfront, rfl | ht⟩ := h
  · -- Without an extension the name gets the suffix.
    rw [List.append_nil] at hvalue
    have hnone : (Path.mk value).extension = none :=
      Path.extension_eq_none hvalue hfront hne hdot hslash
    have happend : withLibrarySuffix value suffix ≠ value := by
      rw [Ne, withLibrarySuffix_eq_self_iff hlong, hnone]
      simp
    obtain ⟨ext, hext, -, hdots, hslashes⟩ := hsuffix
    refine ⟨front, ext, ?_, hfront, hdots, hslashes⟩
    rw [withLibrarySuffix_eq_append happend, String.toList_append, hvalue, hext, List.append_assoc]
  · -- With the suffix it is left as it is.
    have hcarries : Carries value.toList suffix.toList := by
      have hlength := Text.length_eq_of_eqIgnoringCase ht
      have hslashes : '/' ∉ t := by
        obtain ⟨ext, hext, -, -, hslashes⟩ := hsuffix
        rw [Text.mem_iff_of_eqIgnoringCase ht (by decide), hext]
        simp [hslashes]
      refine ⟨?_, ?_⟩
      · rw [hvalue, ← List.append_assoc]
        exact endsLike_append ht _
      · have hpos := List.length_pos_of_ne_nil hne
        rw [hvalue, Path.lastPiece_of_leadsIn hfront (by simp [hslash, hslashes]),
          List.length_append]
        omega
    rw [withLibrarySuffix_of_carries hsuffix hcarries]
    obtain ⟨ext, hext, -, hdots, hslashes⟩ := hsuffix
    rw [hext] at ht
    obtain ⟨t, rfl, hcase⟩ := Text.exists_of_eqIgnoringCase_cons ht (by decide)
    refine ⟨front, t, hvalue, hfront, ?_, ?_⟩ <;>
      rwa [Text.mem_iff_of_eqIgnoringCase hcase (by decide)]

end Template

namespace Lua

open Template (Names IsExtension withLibrarySuffix Directive referenceKeys importKeys)

/-- **The module of a declared library has its name,** wherever the library is looked for. -/
theorem moduleName_resolvePath {value name suffix : String} (h : Names value name suffix)
    (hsuffix : IsExtension suffix.toList) (hname : isIdentifier name = true) (fs : FileSystem)
    (runtimeDir : Option Path) :
    moduleName (resolvePath fs runtimeDir (withLibrarySuffix value suffix)) = name := by
  obtain ⟨c, s, hchars, -⟩ := exists_of_isIdentifier hname
  have hne : name.toList ≠ [] := by simp [hchars]
  have hdot : '.' ∉ name.toList := not_mem_of_isIdentifier hname (by decide)
  have hslash : '/' ∉ name.toList := not_mem_of_isIdentifier hname (by decide)
  obtain ⟨front, t, hvalue, hfront, ht, ht'⟩ :=
    Template.exists_withLibrarySuffix h hsuffix hne hdot hslash
  obtain ⟨front', hpath, hfront'⟩ :=
    exists_resolvePath fs runtimeDir (withLibrarySuffix value suffix)
  rw [hvalue, ← List.append_assoc] at hpath
  rw [moduleName, Path.stem_eq hpath (hfront'.append hfront) hne hdot hslash ht ht']
  exact String.ofList_toList

/-! ## Templates whose files have been run -/

/-- The last segment of a name is the name. -/
theorem lastSegment_of_isIdentifier {name : String} (h : isIdentifier name = true) :
    lastSegment name = name := by
  have hlast : IsLastSegment name name := ⟨not_mem_of_isIdentifier h (by decide), .inl rfl⟩
  exact hlast.eq_lastSegment.symm

/-- **A template whose files have been run:** it is parsed and served by the handler of the
language, a well-formed program is written for it, and each file that it refers to gives a value. -/
structure Staged (job : Job Session) (config : Template.ParserConfig) (programDir : Path)
    (settings : HandlerConfig) (unit : Template.CompilationUnit) (program : String) (b : Block)
    (loaded : List (LibraryReference × Value)) (m : Machine) : Prop where
  served : job.Served config unit (.lua programDir settings)
  generated : generate (job.input unit) = .ok program
  wellFormed : (Chunk.template program).read = .ok b
  files : loaded.map Prod.fst =
    referencedFiles (job.requestFor unit (.lua programDir settings) program)
  loads : Loads job.fs (stepLimit program) 6 Machine.loaded loaded m

/-- **An import of the name of a file comes to what the file gave,** if no later file has that name.
The globals are not looked at. -/
theorem Loads.importValue_eq {fs : FileSystem} {steps : Nat} {m : Machine} {r : LibraryReference}
    {value : Value} {before after : List (LibraryReference × Value)}
    (h : Loads fs steps 6 Machine.loaded (before ++ (r, value) :: after) m)
    (hafter : ∀ e ∈ after, moduleName e.1.path ≠ moduleName r.path) :
    importValue m 6 (Bytes.ofText (moduleName r.path)) = value.asModule := by
  have hvalue : (m.tables.getD 6 {}).get (.string (Bytes.ofText (moduleName r.path))) =
      value.asModule := by
    rw [h.modules_eq]
    exact Table.get_withModules before value hafter
  rw [importValue, hvalue]
  simp

section Staged

variable {job : Job Session} {config : Template.ParserConfig} {programDir : Path}
  {settings : HandlerConfig} {unit : Template.CompilationUnit} {program : String} {b : Block}
  {loaded : List (LibraryReference × Value)} {m : Machine} {name : String} {value : Value}

/-- **A file gives a value** if its name is declared and is not that of a library of the host. No
other file has its name. -/
theorem Staged.exists_of_mem (h : Staged job config programDir settings unit program b loaded m)
    (hname : name ∈ unit.references.toList) (hhost : name ∉ hostLibraries job.stateType) :
    ∃ value before after, loaded = before ++
        (.directive job.fs (some (settings.runtimeDir programDir)) name, value) :: after ∧
      ∀ e ∈ before ++ after, e.1.name ≠ name := by
  have hmem : .directive job.fs (some (settings.runtimeDir programDir)) name ∈
      loaded.map Prod.fst := by
    rw [h.files]
    refine List.mem_filter.mpr ⟨mem_resolveReferences_iff.mpr (.inr ⟨hhost, hname, rfl⟩), rfl⟩
  obtain ⟨⟨_, value⟩, he, rfl⟩ := List.mem_map.mp hmem
  obtain ⟨before, after, rfl⟩ := List.append_of_mem he
  have hnodup : ((before ++ (.directive job.fs (some (settings.runtimeDir programDir)) name, value)
      :: after).map fun e => e.1.name).Nodup := by
    have hsublist : ((referencedFiles (job.requestFor unit (.lua programDir settings) program)).map
        LibraryReference.name).Sublist
          ((resolveReferences job.fs (some (settings.runtimeDir programDir)) job.stateType
            unit.references.toList).map LibraryReference.name) := List.filter_sublist.map _
    rw [← h.files, List.map_map] at hsublist
    exact (nodup_map_name_dropRepeated _ _).sublist hsublist
  rw [List.map_append, List.map_cons, List.nodup_middle, List.nodup_cons, ← List.map_append]
    at hnodup
  exact ⟨value, before, after, rfl, fun e he heq => hnodup.1 (List.mem_map.mpr ⟨e, he, heq⟩)⟩

end Staged

/-! ## A template with two files -/

/-- **Files that do nothing but give a text** are run, and leave all tables but the modules as they
are. -/
theorem exists_loads_of_texts {fs : FileSystem} {steps modules : Nat} {source : String} {b : Bytes}
    {rs : List LibraryReference} (hsource : ∀ r ∈ rs, fs.readText r.path = .ok source)
    (hread : ∀ r ∈ rs, (Chunk.file r.path source).read = .ok [.yields [.string b]]) (m : Machine) :
    ∃ m', Loads fs (steps + 6) modules m (rs.map (·, .string b)) m' ∧
      ∀ n ≠ modules, m'.tables[n]? = m.tables[n]? := by
  induction rs generalizing m with
  | nil => exact ⟨m, .nil m, fun _ _ => rfl⟩
  | cons r rs ih =>
    rw [List.forall_mem_cons] at hsource hread
    obtain ⟨m₁, hrun, htables⟩ := runChunk_string steps hread.1 [] m
    obtain ⟨m', hloads, hothers⟩ := ih hsource.2 hread.2 (m₁.withModule modules (r, .string b))
    refine ⟨m', .cons hsource.1 hrun hloads, fun n hn => ?_⟩
    rw [hothers n hn, Machine.withModule, Array.getElem?_modify, if_neg (Ne.symm hn), htables]

/-- A template that declares two files with the names of a library and of a function, and imports
both, and then the function. -/
def sharedSource : String :=
  "<%@ ref math.LUA %><%@ ref len %><%@ use math %><%@ use len %><%@ use string.len %>"

/-- Its parts. -/
def sharedParts : List Template.Part :=
  [⟨"<%@ ref math.LUA %>", none, 0, 1⟩, ⟨"<%@ ref len %>", none, 19, 1⟩,
    ⟨"<%@ use math %>", none, 33, 1⟩, ⟨"<%@ use len %>", none, 48, 1⟩,
    ⟨"<%@ use string.len %>", none, 62, 1⟩]

/-- What they declare. -/
def sharedDirectives : List Directive :=
  [⟨"ref", "math.LUA"⟩, ⟨"ref", "len"⟩, ⟨"use", "math"⟩, ⟨"use", "len"⟩, ⟨"use", "string.len"⟩]

/-- A parser without imports of its own. -/
def bareConfig : Template.ParserConfig := { defaultImports := [] }

/-- The unit of the template. -/
def sharedUnit : Template.CompilationUnit :=
  (Template.CompilationUnit.initial bareConfig).extend bareConfig sharedParts sharedDirectives

/-- The template next to its files, each of which gives a text. -/
def sharedJob : Job Session where
  fs := (FileSystem.empty.insert ["len.lua"] (.file "return 'own'".toUTF8)).insert ["math.LUA"]
    (.file "return 'own'".toUTF8)
  registry := NameMap.empty.insert "Lua5.4" (.lua ⟨""⟩ {})
  content := sharedSource
  stateType := ⟨"S", "app", []⟩
  parameterName := "p"

/-- What its files give. -/
def sharedLoaded : List (LibraryReference × Value) :=
  [fileReference "len.lua", fileReference "math.LUA"].map (·, .text "own")

/-- The template is served. -/
theorem served_shared : sharedJob.Served bareConfig sharedUnit (.lua ⟨""⟩ {}) where
  named := by decide
  parsed := by
    have hsplit : Template.split sharedSource = .ok sharedParts := by cbv
    refine Template.parse_eq_extend bareConfig hsplit ?_ (by decide)
    have hall : sharedParts.filter (fun p => Template.IsConfiguration p.text.toList) =
        sharedParts := by decide
    rw [hall]
    unfold sharedParts sharedDirectives Template.Declares
    simp only [List.forall₂_cons, List.Forall₂.nil, and_true]
    decide
  registered := rfl

/-- What it imports. -/
theorem imports_shared {path : String} : Imports (sharedJob.input sharedUnit) path ↔
    path = "len" ∨ path = "math" ∨ path = "string.len" ∨ path = "codet" := by
  have hpaths : (sharedJob.input sharedUnit).imports.toList = ["len", "math", "string.len"] := by
    decide
  rw [Imports, hpaths]
  simp [supportName, or_assoc]

/-- Its program is that of an input without references. -/
theorem generate_shared : ∃ program b, generate (sharedJob.input sharedUnit) = .ok program ∧
    (Chunk.template program).read = .ok b := by
  have hinput : sharedJob.input sharedUnit = { importing ["math", "len", "string.len"] with
      references := sharedUnit.references } := rfl
  obtain ⟨hprogram, b, hread, -⟩ := generate_importing ["math", "len", "string.len"]
    [("len", "len"), ("math", "math"), ("len", "string.len"), ("codet", "codet")]
    (by cbv) (by decide) (by simp)
  rw [hinput]
  exact ⟨_, b, hprogram, hread⟩

/-- Its files are run, and leave the libraries as they are. -/
theorem exists_loads_shared (program : String) :
    ∃ m, Loads sharedJob.fs (stepLimit program) 6 Machine.loaded sharedLoaded m ∧
      Grows Machine.fresh.tables m.tables := by
  obtain ⟨steps, hsteps⟩ : ∃ steps, stepLimit program = steps + 6 :=
    Nat.exists_eq_add_of_le' (Nat.le_trans (by decide) (Nat.le_add_right (1 <<< 40) _))
  have hsource : ∀ r ∈ [fileReference "len.lua", fileReference "math.LUA"],
      sharedJob.fs.readText r.path = .ok "return 'own'" := by decide +kernel
  have hread : ∀ r ∈ [fileReference "len.lua", fileReference "math.LUA"],
      (Chunk.file r.path "return 'own'").read = .ok [.yields [.string (Bytes.ofText "own")]] := by
    simp only [List.forall_mem_cons]
    exact ⟨by cbv, by cbv, by simp⟩
  obtain ⟨m, hloads, htables⟩ := exists_loads_of_texts hsource hread Machine.loaded
  refine ⟨m, hsteps ▸ hloads, fun n t ht => ?_⟩
  have hn : n < 5 := (Array.getElem?_eq_some_iff.mp ht).1
  rw [htables n (by omega)]
  exact libraries_loaded n t ht

section Shared

variable {steps : Nat} {m : Machine}

/-- No file has the name of the function. -/
theorem importValue_shared (hloads : Loads sharedJob.fs steps 6 Machine.loaded sharedLoaded m)
    (hlibraries : Grows Machine.fresh.tables m.tables) :
    importValue m 6 (Bytes.ofText "string.len") = .builtin (.string .len) := by
  have hnone : (m.tables.getD 6 {}).get (.text "string.len") = .nil := by
    rw [hloads.modules_eq, Table.get_withModules_of_forall_ne (by decide)]
    cbv
  rw [importValue_member_of_get "string" "len" hlibraries hnone (by cbv) (by cbv) rfl]
  cbv

/-- All of its imports are found. -/
theorem found_shared (hloads : Loads sharedJob.fs steps 6 Machine.loaded sharedLoaded m)
    (hlibraries : Grows Machine.fresh.tables m.tables) {path : String}
    (hpath : Imports (sharedJob.input sharedUnit) path) : Found m 6 path := by
  have hown (r : LibraryReference) (before after : List (LibraryReference × Value))
      (hsplit : sharedLoaded = before ++ (r, .text "own") :: after)
      (hafter : ∀ e ∈ after, moduleName e.1.path ≠ moduleName r.path) :
      Found m 6 (moduleName r.path) := by
    rw [hsplit] at hloads
    rw [Found, hloads.importValue_eq hafter]
    exact Value.isNil_asModule _
  rcases imports_shared.mp hpath with rfl | rfl | rfl | rfl
  · exact hown (fileReference "len.lua") [] _ rfl (by decide)
  · exact hown (fileReference "math.LUA") [_] [] rfl (by simp)
  · rw [Found, importValue_shared hloads hlibraries]
    rfl
  · exact hloads.found_support

end Shared

/-- **The template is staged.** -/
theorem exists_staged_shared : ∃ program b m,
    Staged sharedJob bareConfig ⟨""⟩ {} sharedUnit program b sharedLoaded m ∧
      Grows Machine.fresh.tables m.tables := by
  obtain ⟨program, b, hgenerate, hread⟩ := generate_shared
  obtain ⟨m, hloads, hlibraries⟩ := exists_loads_shared program
  have hfiles : sharedLoaded.map Prod.fst =
      (resolveReferences sharedJob.fs (some (HandlerConfig.runtimeDir ⟨""⟩ {}))
        sharedJob.stateType sharedUnit.references.toList).filter fun r => !r.isHost := by
    decide +kernel
  exact ⟨program, b, m, ⟨served_shared, hgenerate, hread, hfiles, hloads⟩, hlibraries⟩

/-! ## Imports of declared libraries -/

/-- **A declared library is imported under its own name.** A library that a template declares by a
name in a directory, with or without the suffix, has that name among the modules, wherever it is
looked for. So if the files of a template are run, no other file has the name, and the template
imports the name, then the import comes to what the file gave, or to `true` if it gave nothing. If
the files leave the functions that find imports in their places, each import is found, and no
greater path has the name for its last segment, the program comes to the end of its imports with
that value in the local of the name.

**Proof sketch.** The suffix rule and the module name cut at the same dot, since the name has no dot
and the suffix only one; a directory in front changes neither. The file of the name is the only one
with its module, so nothing overwrites it. -/
theorem reference_importable {config : Template.ParserConfig} {name declared : String}
    (hsuffix : IsExtension config.librarySuffix.toList) (hname : isIdentifier name = true)
    (hdeclared : Names declared name config.librarySuffix) :
    (∀ fs runtimeDir, moduleName (resolvePath fs runtimeDir
      (withLibrarySuffix declared config.librarySuffix)) = name) ∧
    ∀ {job : Job Session} {programDir : Path} {settings : HandlerConfig}
      {unit : Template.CompilationUnit} {program : String} {b : Block}
      {loaded : List (LibraryReference × Value)} {m : Machine},
      Staged job config programDir settings unit program b loaded m →
      declared ∈ Directive.values referenceKeys unit.directives →
      name ∈ Directive.values importKeys unit.directives →
      withLibrarySuffix declared config.librarySuffix ∉ hostLibraries job.stateType →
      (∀ e ∈ loaded, e.1.name ≠ withLibrarySuffix declared config.librarySuffix →
        moduleName e.1.path ≠ name) →
      ∃ value, (.directive job.fs (some (settings.runtimeDir programDir))
          (withLibrarySuffix declared config.librarySuffix), value) ∈ loaded ∧
        importValue m 6 (Bytes.ofText name) = value.asModule ∧
        ((∀ c ∈ unit.language.toList ++ job.stateType.name.toList, isBreak c = false) →
          Furnished m → (∀ path, Imports (job.input unit) path → Found m 6 path) →
          (∀ path, Imports (job.input unit) path → lastSegment path = name → path ≤ name) →
          ∃ rest m' env,
            b = preambleTree (Outline.ofInput (job.input unit)).imports ++ rest ∧
            Comes ((Chunk.template program).frame b [.table 6] m) 1 b
              (preambleTree (Outline.ofInput (job.input unit)).imports)
              ((Chunk.template program).machine b m) m' env ∧
            Binds m' env name.toList value.asModule) := by
  have hmodule (fs : FileSystem) (runtimeDir : Option Path) :=
    moduleName_resolvePath hdeclared hsuffix hname fs runtimeDir
  refine ⟨hmodule, ?_⟩
  intro job programDir settings unit program b loaded m h href himport hhost hothers
  have hdrawn := (Template.drawnFrom_of_parse h.served.parsed).2
  obtain ⟨value, before, after, rfl, hnames⟩ :=
    h.exists_of_mem ((hdrawn.references _).mpr ⟨declared, href, rfl⟩) hhost
  -- Nothing overwrites what the file gave.
  have hvalue : importValue m 6 (Bytes.ofText name) = value.asModule := by
    have hown := hmodule job.fs (some (settings.runtimeDir programDir))
    have hafter : ∀ e ∈ after, moduleName e.1.path ≠ moduleName (resolvePath job.fs
        (some (settings.runtimeDir programDir))
          (withLibrarySuffix declared config.librarySuffix)) := by
      intro e he
      rw [hown]
      exact hothers e (by simp [he]) (hnames e (by simp [he]))
    rw [← h.loads.importValue_eq hafter]
    exact congrArg (fun n => importValue m 6 (Bytes.ofText n)) hown.symm
  refine ⟨value, by simp, hvalue, fun hbreaks hm hfound hgreatest => ?_⟩
  obtain ⟨haccepted, body, -, rfl⟩ := generate_eq_ok_iff.mp h.generated
  obtain ⟨rest, hrest⟩ := haccepted.exists_rest hbreaks h.wellFormed
  obtain ⟨bound, hbound, -⟩ := (Outline.ofInput (job.input unit)).exists_segments_le "" []
  obtain ⟨m', env, hcomes, hleft⟩ :=
    haccepted.exists_comesIn (.template _) b 6 hm hbound hfound
  have hlast : lastSegment name = name := lastSegment_of_isIdentifier hname
  have hcounts : Counts (job.input unit) name := by
    refine ⟨.inl ((hdrawn.imports name).mpr (.inr himport)), fun path hpath heq => ?_⟩
    exact hgreatest path hpath (heq.trans hlast)
  have hbinds := hleft.bound name hcounts
  rw [hlast, hvalue] at hbinds
  exact ⟨rest, m', env, hrest, hcomes.comes, hbinds⟩

/-- Of the two files that the template declares, the one with the name of a library is found under
it, though there is a global of that name. -/
theorem reference_importable_shared :
    IsExtension bareConfig.librarySuffix.toList ∧ isIdentifier "math" = true ∧
      Names "math.LUA" "math" bareConfig.librarySuffix ∧
      ∃ program b m, Staged sharedJob bareConfig ⟨""⟩ {} sharedUnit program b sharedLoaded m ∧
        (m.global "math").isNil = false ∧
        ∃ rest m' env,
          b = preambleTree (Outline.ofInput (sharedJob.input sharedUnit)).imports ++ rest ∧
          Comes ((Chunk.template program).frame b [.table 6] m) 1 b
            (preambleTree (Outline.ofInput (sharedJob.input sharedUnit)).imports)
            ((Chunk.template program).machine b m) m' env ∧
          Binds m' env "math".toList (.text "own") := by
  have hsuffix : IsExtension bareConfig.librarySuffix.toList :=
    ⟨"lua".toList, rfl, by decide, by decide, by decide⟩
  have hnames : Names "math.LUA" "math" bareConfig.librarySuffix :=
    ⟨[], ".LUA".toList, rfl, .inl rfl, .inr (by decide)⟩
  obtain ⟨program, b, m, hstaged, hlibraries⟩ := exists_staged_shared
  have hglobal : (m.global "math").isNil = false := by
    rw [global_library hlibraries]
    cbv
  refine ⟨hsuffix, by decide, hnames, program, b, m, hstaged, hglobal, ?_⟩
  obtain ⟨value, hmem, -, hbinds⟩ := (reference_importable hsuffix (by decide) hnames).2 hstaged
    (by decide) (by decide) (by decide) (by decide)
  obtain rfl : value = .text "own" := by
    obtain ⟨r, -, heq⟩ := List.mem_map.mp hmem
    exact (Prod.mk.inj heq).2.symm
  refine hbinds isBreak_clashing (.of_libraries hlibraries)
    (fun path => found_shared hstaged.loads hlibraries) fun path hpath hlast => ?_
  rcases imports_shared.mp hpath with rfl | rfl | rfl | rfl
  · exact absurd hlast (by decide)
  · exact le_refl _
  · exact absurd hlast (by decide)
  · exact absurd hlast (by decide)

/-- **A greater path with the same last segment hides a declared library.** The other file of the
template is the only one of its name, and all is found; but at the end of the imports the local of
the name is not what the file gave. -/
theorem exists_reference_hidden :
    "len" ∈ Directive.values referenceKeys sharedUnit.directives ∧
      "len" ∈ Directive.values importKeys sharedUnit.directives ∧
      (fileReference (withLibrarySuffix "len" bareConfig.librarySuffix), .text "own") ∈
        sharedLoaded ∧
      (∀ e ∈ sharedLoaded, e.1.name ≠ withLibrarySuffix "len" bareConfig.librarySuffix →
        moduleName e.1.path ≠ "len") ∧
      ∃ program b m rest m' env,
        Staged sharedJob bareConfig ⟨""⟩ {} sharedUnit program b sharedLoaded m ∧
          b = preambleTree (Outline.ofInput (sharedJob.input sharedUnit)).imports ++ rest ∧
          Comes ((Chunk.template program).frame b [.table 6] m) 1 b
            (preambleTree (Outline.ofInput (sharedJob.input sharedUnit)).imports)
            ((Chunk.template program).machine b m) m' env ∧
          ¬ Binds m' env "len".toList (.text "own") := by
  obtain ⟨program, b, m, hstaged, hlibraries⟩ := exists_staged_shared
  have hsuffix : withLibrarySuffix "len" bareConfig.librarySuffix = "len.lua" := by decide
  have hmem : (fileReference (withLibrarySuffix "len" bareConfig.librarySuffix), .text "own") ∈
      sharedLoaded := by
    rw [hsuffix]
    exact List.mem_map_of_mem (List.mem_cons_self ..)
  refine ⟨by decide, by decide, hmem, by decide, program, b, m, ?_⟩
  obtain ⟨haccepted, body, -, hprogram⟩ := generate_eq_ok_iff.mp hstaged.generated
  obtain ⟨rest, hrest⟩ := haccepted.exists_rest isBreak_clashing (hprogram ▸ hstaged.wellFormed)
  obtain ⟨bound, hbound, -⟩ :=
    (Outline.ofInput (sharedJob.input sharedUnit)).exists_segments_le "" []
  obtain ⟨m', env, hcomes, hleft⟩ := haccepted.exists_comesIn (.template program) b 6
    (.of_libraries hlibraries) hbound fun path => found_shared hstaged.loads hlibraries
  refine ⟨rest, m', env, hstaged, hrest, hcomes.comes, fun hown => ?_⟩
  -- The path of the function is the greatest of its last segment.
  have hcounts : Counts (sharedJob.input sharedUnit) "string.len" := by
    refine ⟨imports_shared.mpr (by simp), fun path hpath hlast => ?_⟩
    rcases imports_shared.mp hpath with rfl | rfl | rfl | rfl <;> decide
  have hlast : lastSegment "string.len" = "len" := by decide
  have hkept := hleft.bound _ hcounts
  rw [hlast, importValue_shared hstaged.loads hlibraries] at hkept
  cases hown.unique hkept

end Lua

end Stencil
