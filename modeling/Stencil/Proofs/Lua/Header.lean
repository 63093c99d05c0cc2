import Stencil.Proofs.Lua.Naming
set_option autoImplicit false

/-!
# The first line of a program

The first line of a program is a comment that names the language and the type of the state. What is
behind it depends on neither of them. The names are written as they are, so the line stays a comment
only as long as none of them has a line break.

## Main definitions

* `Stencil.Lua.Agrees` — inputs that differ in these names only.
* `Stencil.Lua.load` — what comes of a program in a given number of steps.

## Main results

* `Stencil.Lua.generate_agrees` — the programs of two such inputs.
-/

namespace Stencil.Lua

/-! ## Inputs that agree -/

/-- **Inputs that differ in the names of the language and of the type of the state only,** among
what a program is made from. -/
structure Agrees (input input' : HandlerInput) : Prop where
  imports : input.imports = input'.imports
  codeParts : input.codeParts = input'.codeParts
  parameterName : input.parameterName = input'.parameterName
  properties : input.stateType.properties = input'.stateType.properties

variable {input input' : HandlerInput}

/-- What their programs have around the parts is the same. -/
theorem Agrees.ofInput_eq (h : Agrees input input') :
    Outline.ofInput input = Outline.ofInput input' := by
  unfold Outline.ofInput HandlerInput.isPropertyMode
  rw [h.imports, h.parameterName, h.properties]

/-- They are accepted together. -/
theorem Agrees.accepted_iff (h : Agrees input input') : Accepted input ↔ Accepted input' := by
  have hiff (i : HandlerInput) : Accepted i ↔ (∀ p ∈ (Outline.ofInput i).parameters, Usable p) ∧
      ∀ path ∈ i.imports.toList, Importable path :=
    ⟨fun hi => ⟨hi.parameters, hi.imports⟩, fun hi => ⟨hi.1, hi.2⟩⟩
  rw [hiff, hiff, h.ofInput_eq, h.imports]

/-- The text of a program behind its first line. -/
def Outline.rest (o : Outline) (body : List String) : String :=
  lines (o.opening ++ body ++ endLines (o.arguments.map Passed.text))

/-- The text of a program, from its first line and what is behind it. -/
theorem Outline.text_eq (o : Outline) (first : String) (body : List String) :
    o.text first body = first ++ "\n" ++ o.rest body := by
  rw [text, rest, List.append_assoc, List.append_assoc, List.append_assoc, List.singleton_append,
    lines, List.map_cons, String.join_cons]
  rfl

/-! ## What a program does -/

/-- **What comes of a program** in a given number of steps: what is wrong with it or with the files
that it refers to, or else the function that renders, and the support table. -/
def load (steps : Nat) (fs : FileSystem) (references : List LibraryReference) (program : Chunk) :
    Run (Except (List Diagnostic) (Value × Nat)) := do
  let support ← newSupport
  let modules := (← Run.get).tables.size
  let _ ← Run.newTable { entries := [(.text supportName, .table support)] }
  let wrong ← loadReferences fs steps modules (references.filter fun r => !r.isHost)
  match program.read with
  | .error e => return .error (wrong ++ [e.diagnostic])
  | .ok b =>
    if wrong.isEmpty then
      return (← runProgram program b steps modules).map fun entry => (entry, support)
    else return .error wrong

/-- Programs with the same statements do the same. -/
theorem load_eq_of_read_eq {p q : String} (h : (Chunk.template p).read = (Chunk.template q).read)
    (steps : Nat) (fs : FileSystem) (references : List LibraryReference) :
    load steps fs references (.template p) = load steps fs references (.template q) := by
  unfold load
  rw [h]
  rfl

/-- **The first line of a program does not matter** as long as it is a comment. -/
theorem read_eq_of_isComment {first first' rest : String} (h : IsComment first)
    (h' : IsComment first') (hrest : rest.toList.head? ≠ some '\r') :
    (Chunk.template (first ++ "\n" ++ rest)).read =
      (Chunk.template (first' ++ "\n" ++ rest)).read := by
  have htokens {l : String} (hl : IsComment l) :
      tokenize (l ++ "\n" ++ rest).toList = lex 2 rest.toList := by
    have htext : (l ++ "\n" ++ rest).toList = l.toList ++ '\n' :: rest.toList := by simp
    rw [tokenize_eq_lex, htext, hl.lineReads.1 1 _ ⟨rest.toList, rfl⟩, lex_lf 1 hrest]
    rfl
  have hblock : Block.ofTokens (tokenize (first ++ "\n" ++ rest).toList) =
      Block.ofTokens (tokenize (first' ++ "\n" ++ rest).toList) := by
    rw [htokens h, htokens h']
  simp only [Chunk.read, Chunk.template, hblock, Chunk.malformed]

/-- A text behind the first line of a program begins with the prelude. -/
theorem Outline.head?_rest (o : Outline) (body : List String) :
    (o.rest body).toList.head? ≠ some '\r' := by
  obtain ⟨ls, hls⟩ : ∃ ls, o.opening ++ body ++ endLines (o.arguments.map Passed.text) =
      "local __modules = ..." :: ls := ⟨_, rfl⟩
  rw [rest, hls, toList_lines, List.flatMap_cons]
  show some 'l' ≠ some '\r'
  decide

/-! ## Programs of inputs that agree -/

/-- **Inputs that agree have programs together, with the same text behind the first line.** If the
names in the first lines have no line breaks, these are comments, and both programs do the same. -/
theorem generate_agrees (h : Agrees input input') :
    ((∃ p, generate input = .ok p) ↔ ∃ q, generate input' = .ok q) ∧
    ∀ p q, generate input = .ok p → generate input' = .ok q →
      ∃ rest, p = header input ++ "\n" ++ rest ∧ q = header input' ++ "\n" ++ rest ∧
        ((∀ i ∈ [input, input'], ∀ c ∈ i.language.toList ++ i.stateType.name.toList,
            isBreak c = false) →
          IsComment (header input) ∧ IsComment (header input') ∧
            ∀ steps fs references,
              load steps fs references (.template p) = load steps fs references (.template q)) := by
  simp only [generate_eq_ok_iff, h.accepted_iff, h.ofInput_eq, h.codeParts, Outline.text_eq]
  refine ⟨⟨?_, ?_⟩, ?_⟩
  · rintro ⟨_, haccepted, body, hbody, rfl⟩
    exact ⟨_, haccepted, body, hbody, rfl⟩
  · rintro ⟨_, haccepted, body, hbody, rfl⟩
    exact ⟨_, haccepted, body, hbody, rfl⟩
  · rintro p q ⟨-, body, hbody, rfl⟩ ⟨-, body', hbody', rfl⟩
    obtain rfl : body = body' := Except.ok.inj (hbody.symm.trans hbody')
    refine ⟨_, rfl, rfl, fun hbreaks => ?_⟩
    have hcomment : ∀ i ∈ [input, input'], IsComment (header i) := fun i hi =>
      isComment_header (fun c hc => hbreaks i hi c (List.mem_append_left _ hc))
        fun c hc => hbreaks i hi c (List.mem_append_right _ hc)
    have hfirst := hcomment input (by simp)
    have hfirst' := hcomment input' (by simp)
    have hrest := (Outline.ofInput input').head?_rest body
    exact ⟨hfirst, hfirst', load_eq_of_read_eq (read_eq_of_isComment hfirst hfirst' hrest)⟩

/-- A literal, for a language and a type of the state with given names. -/
def named (language name : String) : HandlerInput where
  language := language
  imports := .ofList ["codet"]
  references := .empty
  codeParts := ["a"]
  stateType := ⟨name, "", []⟩
  parameterName := "s"

/-- Two programs for a literal, which differ in their first lines and do the same. -/
theorem generate_agrees_named :
    ∃ p q, generate (named "Lua5.4" "Page") = .ok p ∧ generate (named "LUA" "a.b -- [[") = .ok q ∧
      ∃ rest, p = header (named "Lua5.4" "Page") ++ "\n" ++ rest ∧
        q = header (named "LUA" "a.b -- [[") ++ "\n" ++ rest ∧
        IsComment (header (named "Lua5.4" "Page")) ∧ IsComment (header (named "LUA" "a.b -- [[")) ∧
        ∀ steps fs references,
          load steps fs references (.template p) = load steps fs references (.template q) := by
  have hprogram (language name : String) : ∃ p, generate (named language name) = .ok p := by
    have hsignature : signature (named language name) = .ok ⟨["s"], ["__state"]⟩ := by cbv
    have himports : importLines (named language name).imports =
        .ok [importStatement "codet" "codet"] := by cbv
    have hbody : bodyLines (named language name).codeParts = .ok ["  __write(\"a\")"] := by cbv
    rw [generate, hsignature, himports, hbody]
    exact ⟨_, rfl⟩
  obtain ⟨p, hp⟩ := hprogram "Lua5.4" "Page"
  obtain ⟨q, hq⟩ := hprogram "LUA" "a.b -- [["
  have hagrees : Agrees (named "Lua5.4" "Page") (named "LUA" "a.b -- [[") := ⟨rfl, rfl, rfl, rfl⟩
  obtain ⟨rest, hp', hq', hsame⟩ := (generate_agrees hagrees).2 p q hp hq
  exact ⟨p, q, hp, hq, rest, hp', hq', hsame (by simp [named, isBreak, or_imp, forall_and])⟩

/-- A line break in a name ends the comment: what is behind it is a statement of the program. -/
example : kinds (tokenize (header (named "Lua5.4" "S\nreturn x --")).toList) =
    [.keyword .«return», .name ['x'], .finish] := by
  have hheader : header (named "Lua5.4" "S\nreturn x --") =
      "-- codet template program (Lua5.4, state S\nreturn x --)" := by decide
  rw [hheader]
  cbv

end Stencil.Lua
