import Stencil.Proofs.Agreement
import Stencil.Proofs.Form
import Stencil.Proofs.Language
set_option autoImplicit false

/-!
# The two ways to reach the values of a state

A program has a parameter for each property of the state, or one for the state as a whole. For a
form both come to the same: the key itself in the one way, and the name of the state in front of it
in the other, are written as the same text. The texts are those of the values in the state, whatever
the keys are called: a parameter hides an import or a global of its name, and no helper of the
program.

## Main definitions

* `Stencil.Lua.Table.Holds` — a table with the values of a state.
* `Stencil.Lua.Access` — a way to reach the values of a state.
* `Stencil.Lua.Access.Serves` — a way that reaches the values of a given state.
* `Stencil.Lua.Piece.filled` — what is written for a part of a form.

## Main results

* `Stencil.Lua.treeValue_holds` — the value for a state holds its entries.
* `Stencil.Context.execute_form` — the outcome of a form, in any way that serves its state.
* `Stencil.Context.outcome_byName_eq_byProperty` — both ways have the same outcome.
-/

namespace Stencil

open Lua (Portion Piece)
open Template (Part IsLiteral IsBlock)

namespace Lua

/-! ## Tables of values -/

/-- **The value for a datum with a text** shows it, and is made in any machine. -/
theorem exists_treeValue_of_shown? {j : Json} {text : String} (h : j.shown? = some text) :
    ∃ v, v.Shows text ∧ ∀ m, treeValue j m = .done v m := by
  have hnumber (n : Number) : (Value.number n).Shows (String.ofList n.text) := by
    simp [Value.Shows, written, Value.isNil, Value.display, Bytes.ofText]
  cases j with
  | null =>
    obtain rfl := Option.some.inj h
    exact ⟨.nil, rfl, fun _ => rfl⟩
  | bool b =>
    obtain rfl := Option.some.inj h
    exact ⟨.bool b, List.append_nil _, fun _ => rfl⟩
  | int n =>
    rw [Json.shown?] at h
    cases hn : Number.ofInt? n with
    | some i =>
      rw [hn] at h
      obtain rfl := Option.some.inj h
      exact ⟨.int i, hnumber _, fun _ => by rw [treeValue, hn]; rfl⟩
    | none =>
      rw [hn] at h
      obtain rfl := Option.some.inj h
      exact ⟨.float (Float.ofInt n), hnumber _, fun _ => by rw [treeValue, hn]; rfl⟩
  | float x =>
    obtain rfl := Option.some.inj h
    exact ⟨.float x, hnumber _, fun _ => rfl⟩
  | string s =>
    obtain rfl := Option.some.inj h
    exact ⟨.text s, List.append_nil _, fun _ => rfl⟩
  | array _ | object _ => cases h

/-- **A table with the values of a state:** under each key that has a text is a value that shows
it. -/
def Table.Holds (t : Table) (state : Json) : Prop :=
  ∀ key text, state.shownAt? key = some text → (t.get (.text key)).Shows text

/-- Texts are the same keys if they are the same. -/
theorem Value.rawEq_text (s t : String) : (Value.text s).rawEq (.text t) = decide (s = t) := by
  rw [Bool.eq_iff_iff, decide_eq_true_iff, ← Bytes.ofText_inj]
  exact beq_iff_eq

/-- **The entries for those of a table.** Under a key with a text is a value that shows it, and
under a text that is no key is nothing.

**Proof sketch.** Induction on the entries. One with null is left out, and as its key is none of the
others, nothing is found under it either. -/
theorem lookup_treeEntries {entries : List (String × Json)} (hnodup : (entries.map Prod.fst).Nodup)
    {m m' : Machine} {es : List (Value × Value)} (h : treeEntries entries m = .done es m') :
    (∀ key, key ∉ entries.map Prod.fst → Table.lookup (.text key) es = .nil) ∧
      ∀ key text, (Json.object entries).shownAt? key = some text →
        (Table.lookup (.text key) es).Shows text := by
  induction entries generalizing m es with
  | nil =>
    rw [treeEntries, Run.pure_eq_done_iff] at h
    obtain ⟨rfl, -⟩ := h
    exact ⟨fun _ _ => rfl, fun key text htext => by cases htext⟩
  | cons e entries ih =>
    obtain ⟨key₀, j⟩ := e
    rw [List.map_cons, List.nodup_cons] at hnodup
    rw [treeEntries] at h
    obtain ⟨v, m₁, hv, h⟩ := Run.bind_eq_done_iff.mp h
    obtain ⟨more, m₂, hmore, h⟩ := Run.bind_eq_done_iff.mp h
    obtain ⟨rfl, rfl⟩ := Run.pure_eq_done_iff.mp h
    obtain ⟨hother, hshows⟩ := ih hnodup.2 hmore
    have hskip {key : String} (hkey : key₀ ≠ key) :
        Table.lookup (.text key) (if v.isNil then more else (.text key₀, v) :: more) =
          Table.lookup (.text key) more := by
      split
      · rfl
      · rw [Table.lookup, Value.rawEq_text, decide_eq_false hkey]
        rfl
    have hself : Table.lookup (.text key₀) (if v.isNil then more else (.text key₀, v) :: more) =
        v := by
      split
      · rename_i hnil
        rw [hother key₀ hnodup.1]
        cases v <;> simp [Value.isNil] at hnil ⊢
      · rw [Table.lookup, Value.rawEq_text, decide_eq_true rfl]
        rfl
    refine ⟨fun key hkey => ?_, fun key text htext => ?_⟩
    · rw [List.map_cons, List.mem_cons, not_or] at hkey
      rw [hskip (Ne.symm hkey.1), hother key hkey.2]
    · by_cases hkey : key₀ = key
      · subst hkey
        have hj : j.shown? = some text := by
          simpa [Json.shownAt?, Json.field?, Json.entries] using htext
        obtain ⟨w, hw, hmade⟩ := exists_treeValue_of_shown? hj
        rw [hmade m] at hv
        cases hv
        rwa [hself]
      · rw [hskip hkey]
        refine hshows key text ?_
        simpa [Json.shownAt?, Json.field?, Json.entries, List.lookup_cons,
          beq_eq_false_iff_ne.mpr (Ne.symm hkey)] using htext

/-- **The value for a state** is a table with its values. -/
theorem treeValue_holds {entries : List (String × Json)} (hnodup : (entries.map Prod.fst).Nodup)
    {m m' : Machine} {v : Value} (h : treeValue (.object entries) m = .done v m') :
    ∃ n t, v = .table n ∧ m'.tables[n]? = some t ∧ t.Holds (.object entries) := by
  rw [treeValue] at h
  obtain ⟨es, m₁, hes, h⟩ := Run.bind_eq_done_iff.mp h
  cases h
  exact ⟨_, { entries := es }, rfl, by simp, (lookup_treeEntries hnodup hes).2⟩

end Lua

/-! ## Programs of forms -/

namespace Lua

/-- **The portion for a part of a form,** from those for the keys. -/
def Portion.ofPart (state : Json) (portion : String → Portion) (part : String) : Portion :=
  match state.keyIn? part with
  | some key => portion key
  | none => .piece (Piece.ofPart part)

/-- **What is written for a part of a form:** the text of its key, or the piece that it is. -/
def Piece.filled (state : Json) (part : String) : Piece :=
  match state.keyIn? part with
  | some key => .literal ((state.shownAt? key).getD "")
  | none => Piece.ofPart part

/-- **A way to reach the values of a state:** the name that is given to the state, how a key is
spelled and what portion it is, and what the parameters and the arguments of the program are. -/
structure Access where
  parameterName : String
  spell : String → String
  portion : String → Portion
  parameters : List String
  arguments : List Passed

namespace Access

/-- **Each property of the state is a parameter.** -/
def byProperty (state : Json) : Access where
  parameterName := ""
  spell := id
  portion := .whole
  parameters := state.keys
  arguments := state.keys.map .property

/-- **The state is a parameter** of the given name. -/
def byName (name : String) : Access where
  parameterName := name
  spell key := name ++ "." ++ key
  portion := .entry name
  parameters := [name]
  arguments := [.state]

/-- **A way serves a state:** the program for the input has its parameters and arguments, and from
these each portion has the value under its key. -/
structure Serves (a : Access) (state : Json) : Prop where
  outline : ∀ input : HandlerInput, input.stateType = .ofTree state →
    input.parameterName = a.parameterName →
      (Outline.ofInput input).parameters = a.parameters ∧
        (Outline.ofInput input).arguments = a.arguments
  usable : ∀ p ∈ a.parameters, Usable p
  nodup : a.parameters.Nodup
  spelling : ∀ key ∈ state.keys, Template.IsDotted (a.spell key)
  names : ∀ key ∈ state.keys, ∀ name ∈ (a.portion key).names, Usable name
  line : ∀ key, (a.portion key).line = writeStatement (a.spell key)
  resolve : ∀ text key, (a.portion key).resolve text = .literal (text key)
  supplied : ∀ (m : Machine) (n : Nat) (t : Table) (text : String → String), ∀ key ∈ state.keys,
    m.tables[n]? = some t → (t.get (.text key)).Shows (text key) →
      (a.portion key).Supplied text
        ((a.parameters.map String.toList).zip (a.arguments.map (Passed.of m (.table n)))) m

/-- The properties of a state serve it, if they are usable names. -/
theorem serves_byProperty {state : Json} (hnodup : state.keys.Nodup)
    (husable : ∀ key ∈ state.keys, Usable key) : (byProperty state).Serves state where
  outline input htype hname := by
    have hmode : input.isPropertyMode = true := by
      rw [HandlerInput.isPropertyMode, hname]
      rfl
    rw [Outline.ofInput, hmode, htype]
    exact ⟨rfl, rfl⟩
  usable := husable
  nodup := hnodup
  spelling key hkey := Template.isDotted_of_usable (husable key hkey)
  names key hkey name hname := by
    obtain rfl := List.mem_singleton.mp hname
    exact husable name hkey
  line _ := rfl
  resolve _ _ := rfl
  supplied m n t text key hkey ht hshows := by
    refine ⟨t.get (.text key), ?_, hshows⟩
    rw [byProperty, List.map_map, List.zip_map']
    refine List.mem_map.mpr ⟨key, hkey, ?_⟩
    simp [Passed.of, Array.getD_eq_getD_getElem?, ht]

/-- A name for the state serves it, if it is usable and the keys are. -/
theorem serves_byName {state : Json} {name : String} (hname : Usable name)
    (husable : ∀ key ∈ state.keys, Usable key) : (byName name).Serves state where
  outline input _ hparameter := by
    have htrim : Text.trimString name = name := by
      have h := Text.trim_between (u := []) (v := []) (by simp)
        (Template.isDotted_of_usable hname).isBlank_eq (by simp)
      rw [List.nil_append, List.append_nil] at h
      rw [Text.trimString, h, String.ofList_toList]
    have hmode : input.isPropertyMode = false := by
      rw [HandlerInput.isPropertyMode, hparameter]
      refine isBlankString_of_isUsable ?_
      rw [byName, htrim]
      exact (isUsable_iff name).mpr hname
    rw [Outline.ofInput, hmode, hparameter, byName, htrim]
    exact ⟨rfl, rfl⟩
  usable := by simpa [byName] using hname
  nodup := List.nodup_singleton name
  spelling key hkey :=
    (Template.isDotted_of_usable hname).append (Template.isDotted_of_usable (husable key hkey))
  names key hkey n hn := by
    rcases List.mem_cons.mp hn with rfl | hn
    · exact hname
    · obtain rfl := List.mem_singleton.mp hn
      exact husable n hkey
  line _ := rfl
  resolve _ _ := rfl
  supplied m n t text key _ ht hshows := ⟨n, t, by simp [byName, Passed.of], ht, hshows⟩

end Access

section Form

variable {state : Json} {a : Access} {part : String}

/-- A part of a form is no configuration directive. -/
theorem classify_respell (h : Template.IsFormPart state part)
    (hkind : IsLiteral part.toList ∨ IsBlock part.toList) (spell : String → String) :
    Template.classify (Template.respell state spell part).toList ≠ some .configuration := by
  rw [Template.respell]
  rcases h.cases with ⟨hnone, hplain⟩ | ⟨key, text, hkey, -, -⟩
  · rw [hnone]
    rcases hkind with hlit | hblock
    · simp [hlit.classify_eq]
    · simp [hplain hblock.isBlockText]
  · rw [hkey]
    simp [Template.classify_valueBlock]

/-- **The statement for a part of a form** is the line of its portion. -/
theorem partStatement_respell (ha : a.Serves state) (h : Template.IsFormPart state part)
    (hkind : IsLiteral part.toList ∨ IsBlock part.toList) :
    partStatement (Template.respell state a.spell part) =
      .ok (some (Portion.ofPart state a.portion part).line) := by
  rw [Template.respell, Portion.ofPart]
  rcases h.cases with ⟨hnone, hplain⟩ | ⟨key, text, hkey, htext, -⟩
  · rw [hnone]
    exact partStatement_plain hplain hkind
  · rw [hkey]
    simp only [ha.line, (ha.spelling key (Json.mem_keys_of_shownAt? htext)).partStatement]

/-- What a portion of a form is resolved to is what is written for its part. -/
theorem resolve_ofPart (ha : a.Serves state) (part : String) :
    (Portion.ofPart state a.portion part).resolve (fun key => (state.shownAt? key).getD "") =
      Piece.filled state part := by
  rw [Portion.ofPart, Piece.filled]
  cases state.keyIn? part with
  | none => rfl
  | some key => exact ha.resolve _ _

/-- The names in a portion of a form are usable. -/
theorem usable_of_mem_names (ha : a.Serves state) (h : Template.IsFormPart state part) :
    ∀ name ∈ (Portion.ofPart state a.portion part).names, Usable name := by
  rw [Portion.ofPart]
  rcases h.cases with ⟨hnone, -⟩ | ⟨key, text, hkey, htext, -⟩
  · rw [hnone]
    simp [Portion.names]
  · rw [hkey]
    exact ha.names key (Json.mem_keys_of_shownAt? htext)

/-- **The state supplies the values** of the portions of a form, in either way. -/
theorem supplies_form {entries : List (String × Json)} (hnodup : (entries.map Prod.fst).Nodup)
    (ha : a.Serves (.object entries)) {parts : List String}
    (h : ∀ part ∈ parts, Template.IsFormPart (.object entries) part) {o : Outline}
    (hparameters : o.parameters = a.parameters) (harguments : o.arguments = a.arguments) :
    o.Supplies (fun key => ((Json.object entries).shownAt? key).getD "")
      (parts.map (Portion.ofPart (.object entries) a.portion)) (.object entries) := by
  intro m v m' hvalue
  obtain ⟨n, t, rfl, ht, hholds⟩ := treeValue_holds hnodup hvalue
  refine ⟨fun _ _ => .inr ⟨n, rfl⟩, fun p hp => ?_⟩
  obtain ⟨part, hpart, rfl⟩ := List.mem_map.mp hp
  rw [hparameters, harguments, Portion.ofPart]
  rcases (h part hpart).cases with ⟨hnone, -⟩ | ⟨key, text, hkey, htext, -⟩
  · rw [hnone]
    trivial
  · rw [hkey]
    refine ha.supplied m' n t _ key (Json.mem_keys_of_shownAt? htext) ht ?_
    rw [htext]
    exact hholds key text htext

end Form

end Lua

/-! ## Outcomes of forms -/

namespace Context

open Lua (Access)

/-- A compiled template is executed as in a trial of its handler. -/
theorem execute_compile {σ : Type} [Renderable σ] {c : Context σ} {fs : FileSystem}
    {registry : Registry σ} {source parameterName : String} {stateType : StateType}
    {handler : Handler σ} {input : HandlerInput} {state : Json} {outcome : Outcome}
    (hprepare : c.prepare registry source stateType parameterName = .ok (handler, input))
    (htrial : handler.trial fs c.runner c.includes input state = .ok outcome) :
    (c.compile fs registry source stateType parameterName).result = .ok () ∧
      ((c.compile fs registry source stateType parameterName).context.execute state).1 =
        outcome := by
  rw [Handler.trial] at htrial
  cases hbuild : handler.build fs input with
  | error e =>
    rw [hbuild] at htrial
    cases htrial
  | ok compiled =>
    rw [hbuild] at htrial
    obtain rfl := Except.ok.inj htrial
    simp only [compile, hprepare, hbuild]
    exact ⟨rfl, rfl⟩

variable {c : Context Lua.Session} {registry : Registry Lua.Session} {programDir : Path}
  {config : HandlerConfig} {entries : List (String × Json)}

/-- **The outcome of a form,** in a way that serves its state: what is written for its parts one
behind the other, or the error of the first include that fails. -/
theorem execute_form (hconfig : c.parserConfig = {}) (fs : FileSystem)
    (hregistry : registry.find? Template.lua54 = some (Handler.lua programDir config))
    (hnodup : (entries.map Prod.fst).Nodup) {a : Access} (ha : a.Serves (.object entries))
    {source : String} {parts : List String} {qs : List Part}
    (hsplit : Template.split source = .ok qs)
    (hqs : qs.map Part.text = parts.map (Template.respell (.object entries) a.spell))
    (hform : ∀ part ∈ parts, Template.IsFormPart (.object entries) part)
    (hkinds : ∀ part ∈ parts, IsLiteral part.toList ∨ IsBlock part.toList)
    (hlength : parts.length < 2 ^ 63) :
    let after := c.compile fs registry source (.ofTree (.object entries)) a.parameterName
    after.result = .ok () ∧ (after.context.execute (.object entries)).1 =
      Lua.rendering c.includes (parts.map (Piece.filled (.object entries))) := by
  have hcode : ∀ q ∈ qs, q.kind ≠ some .configuration := by
    intro q hq
    have hmem : q.text ∈ qs.map Part.text := List.mem_map_of_mem hq
    rw [hqs] at hmem
    obtain ⟨part, hpart, htext⟩ := List.mem_map.mp hmem
    rw [Part.kind, ← htext]
    exact Lua.classify_respell (hform part hpart) (hkinds part hpart) a.spell
  obtain ⟨unit, hunit, hparts, hlanguage, himports, hreferences⟩ :=
    Template.parse_of_split c.parserConfig hsplit hcode
  rw [hconfig] at hlanguage himports
  have hname : (StateType.ofTree (.object entries)).name = "Value" := StateType.ofTree_name _
  let input : HandlerInput := .ofUnit unit (.ofTree (.object entries)) a.parameterName
  have hprepare : c.prepare registry source (.ofTree (.object entries)) a.parameterName =
      registry.offer unit.language input :=
    prepare_of_parse hunit registry (by rw [hname]; decide) a.parameterName
  rw [hlanguage, Registry.offer, hregistry] at hprepare
  refine execute_compile hprepare ?_
  obtain ⟨hparameters, harguments⟩ := ha.outline input rfl rfl
  have hbody : Lua.bodyLines unit.codeParts =
      .ok ((parts.map (Portion.ofPart (.object entries) a.portion)).map Portion.line) := by
    refine Lua.bodyLines_of_forall₂ ?_
    rw [hparts, hqs, List.forall₂_map_left_iff, List.map_map, List.forall₂_map_right_iff,
      List.forall₂_same]
    exact fun part hpart => Lua.partStatement_respell ha (hform part hpart) (hkinds part hpart)
  have hnames : ∀ p ∈ parts.map (Portion.ofPart (.object entries) a.portion),
      ∀ name ∈ p.names, Lua.Usable name := by
    intro p hp
    obtain ⟨part, hpart, rfl⟩ := List.mem_map.mp hp
    exact Lua.usable_of_mem_names ha (hform part hpart)
  have hline : IsLineName input.language := by
    show IsLineName unit.language
    rw [hlanguage]
    exact ⟨by decide, by decide⟩
  have htype : IsLineName input.stateType.name := by
    show IsLineName (StateType.ofTree (.object entries)).name
    rw [hname]
    exact ⟨by decide, by decide⟩
  have haccepted : Lua.Accepted input :=
    ⟨by rw [hparameters]; exact ha.usable,
      fun path hpath => (Lua.found_default himports path hpath).1⟩
  have htrial := Handler.trial_lua fs c.runner c.includes haccepted
    (fun path hpath => (Lua.found_default himports path hpath).2) hreferences hline htype
    (by rw [hparameters]; exact ha.nodup) hbody hnames
    (Lua.supplies_form hnodup ha hform hparameters harguments) (by simpa using hlength) programDir
    config.libraryDir
  rw [List.map_map] at htrial
  refine htrial.trans ?_
  simp only [Function.comp_def, Lua.resolve_ofPart ha]

/-- **Both ways to reach the values of a state agree** on a form. Compiled with a parameter for each
property of the state, and with the name of the state in front of each key and one parameter of that
name, the template has the same outcome on the state. What comes out is the texts of the literals,
the contents of the includes and the texts of the values, in order and one behind the other, or the
error of the first include that fails. The keys and the name may be those of imports or of
globals.

**Proof sketch.** The parts of the template with the name of the state are those of the template,
each in its spelling, so both programs have one line for each part. In the one the parameters are
bound to the entries of the state, in the other to the state itself, whose value is a table with
the same entries. -/
theorem outcome_byName_eq_byProperty (hconfig : c.parserConfig = {}) (fs : FileSystem)
    (hregistry : registry.find? Template.lua54 = some (Handler.lua programDir config))
    (hnodup : (entries.map Prod.fst).Nodup) (husable : ∀ e ∈ entries, Lua.Usable e.1)
    {name : String} (hname : Lua.Usable name) {source : String} {parts : List Part}
    (haddress : Addressable source) (hsplit : Template.split source = .ok parts)
    (hform : ∀ p ∈ parts, Template.IsFormPart (.object entries) p.text) :
    let state := Json.object entries
    let byProperty := c.compile fs registry source (.ofTree state) ""
    let byName := c.compile fs registry
      (Template.respellSource state (fun key => name ++ "." ++ key) parts) (.ofTree state) name
    byProperty.result = .ok () ∧ byName.result = .ok () ∧
      (byName.context.execute state).1 = (byProperty.context.execute state).1 ∧
      (byProperty.context.execute state).1 =
        Lua.rendering c.includes (parts.map fun p => Piece.filled state p.text) := by
  intro state byProperty byName
  have hkeys : ∀ key ∈ state.keys, Lua.Usable key := by
    intro key hkey
    obtain ⟨e, he, rfl⟩ := List.mem_map.mp hkey
    exact husable e he
  obtain ⟨hc, hsource⟩ := Template.canonical_of_split hsplit
  have hkinds : ∀ part ∈ parts.map Part.text, IsLiteral part.toList ∨ IsBlock part.toList := by
    intro part hpart
    obtain ⟨p, hp, rfl⟩ := List.mem_map.mp hpart
    exact hc.kinds p.segment (List.mem_map_of_mem hp)
  have hparts : ∀ part ∈ parts.map Part.text, Template.IsFormPart state part := by
    simpa using hform
  have hlength : (parts.map Part.text).length < 2 ^ 63 := by
    have hcount := hc.length_le
    rw [← hsource] at hcount
    rw [List.length_map] at hcount ⊢
    exact Nat.lt_of_le_of_lt (hcount.trans (length_le_utf8Length _)) haddress
  -- In the first way all parts are spelled as they are.
  have hself : parts.map Part.text =
      (parts.map Part.text).map (Template.respell state (Access.byProperty state).spell) := by
    refine (List.map_id _).symm.trans (List.map_congr_left fun part hpart => ?_)
    rw [Template.respell]
    rcases (hparts part hpart).cases with ⟨hnone, -⟩ | ⟨key, text, hkey, -, hpart⟩
    · rw [hnone]
      rfl
    · rw [hkey]
      exact hpart
  obtain ⟨hfirst, houtcome⟩ := execute_form hconfig fs hregistry hnodup
    (Access.serves_byProperty hnodup hkeys) hsplit hself hparts hkinds hlength
  -- In the second the state is named.
  have hserves := Access.serves_byName hname hkeys
  obtain ⟨qs, hqs, htexts⟩ := Template.split_respellSource hsplit hform hserves.spelling
  obtain ⟨hsecond, houtcome'⟩ := execute_form hconfig fs hregistry hnodup hserves hqs htexts hparts
    hkinds hlength
  rw [List.map_map] at houtcome houtcome'
  exact ⟨hfirst, hsecond, houtcome'.trans houtcome.symm, houtcome⟩

/-- A state whose keys are those of globals, named like another one; one key has no value. -/
theorem outcome_byName_eq_byProperty_globals :
    let state := Json.object [("string", .string "s"), ("table", .null)]
    let registry := NameMap.empty.insert Template.lua54 (Handler.lua ⟨"."⟩ {})
    let byProperty := ({} : Context Lua.Session).compile .empty registry
      "<%= string %><%= table %>!" (.ofTree state) ""
    let byName := ({} : Context Lua.Session).compile .empty registry
      "<%= tostring.string %><%= tostring.table %>!" (.ofTree state) "tostring"
    (byName.context.execute state).1 = (byProperty.context.execute state).1 ∧
      (byProperty.context.execute state).1 = .output (some "s!") := by
  intro state registry byProperty byName
  have hregistry : registry.find? Template.lua54 = some (Handler.lua ⟨"."⟩ {}) := by
    simp [registry, NameMap.find?_insert]
  have hsplit : Template.split "<%= string %><%= table %>!" =
      .ok [⟨"<%= string %>", none, 0, 1⟩, ⟨"<%= table %>", none, 13, 1⟩, ⟨"!", none, 25, 1⟩] := by
    cbv
  have hnamed : Template.respellSource state (fun key => "tostring" ++ "." ++ key)
      [⟨"<%= string %>", none, 0, 1⟩, ⟨"<%= table %>", none, 13, 1⟩, ⟨"!", none, 25, 1⟩] =
        "<%= tostring.string %><%= tostring.table %>!" := by cbv
  have hrendering : Lua.rendering none (["<%= string %>", "<%= table %>", "!"].map
      (Piece.filled state)) = .output (some "s!") := by cbv
  have hform : ∀ p ∈ [(⟨"<%= string %>", none, 0, 1⟩ : Part), ⟨"<%= table %>", none, 13, 1⟩,
      ⟨"!", none, 25, 1⟩], Template.IsFormPart state p.text := by
    intro p hp
    simp only [List.mem_cons, List.not_mem_nil, or_false] at hp
    rcases hp with rfl | rfl | rfl
    · exact .inr ⟨"string", "s", rfl, rfl⟩
    · exact .inr ⟨"table", "", rfl, rfl⟩
    · exact .inl (by decide)
  have hname : Lua.Usable "tostring" := by decide
  obtain ⟨-, -, hsame, houtcome⟩ := outcome_byName_eq_byProperty (c := {}) rfl .empty hregistry
    (by decide) (by decide) hname (by unfold Addressable; decide) hsplit hform
  rw [hnamed] at hsame
  exact ⟨hsame, houtcome.trans hrendering⟩

end Context

end Stencil
