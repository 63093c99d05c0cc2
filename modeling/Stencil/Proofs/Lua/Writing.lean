import Stencil.Lua.Session
import Stencil.Proofs.Lua.Import
set_option autoImplicit false

/-!
# Writing the output

The function that renders collects texts in a table and gives them one behind the other. A
literal adds its text, a value the text that it shows, an include what the host gives for its name;
the first include that fails ends the rendering with its error.

## Main definitions

* `Stencil.Lua.Table.ofTexts` — a table that holds texts in order.
* `Stencil.Lua.written` — what is written of a value.
* `Stencil.Lua.Piece.content` — the text of a piece.
* `Stencil.Lua.Writing` — a machine in which some texts have been written.
* `Stencil.Lua.Portion.resolve` — the piece that stands in for a portion.

## Main results

* `Stencil.Lua.call_write` — one text more.
* `Stencil.Lua.executeBlock_portions` — the statements of portions, up to the first include that
  fails.
* `Stencil.Lua.call_render` — the function that renders.
-/

namespace Stencil.Lua

/-! ## Tables of texts -/

namespace Table

/-- **A table that holds texts in order.** -/
def ofTexts (texts : List Bytes) : Table := { items := (texts.map Value.string).toArray }

variable {texts : List Bytes}

/-- The length of a table of texts. -/
theorem border_ofTexts (texts : List Bytes) : (ofTexts texts).border = texts.length := by
  have hsize : (ofTexts texts).items.size = texts.length := by simp [ofTexts]
  rw [border, hsize, if_pos]
  rcases List.eq_nil_or_concat texts with rfl | ⟨texts, b, rfl⟩
  · exact .inl rfl
  · refine .inr ?_
    simp [ofTexts, Value.isNil]

/-- The place of a whole number among items. -/
theorem place?_ofNat {n size : Nat} (hn : n < 2 ^ 63) :
    place? size (.int (Int64.ofNat n)) = if 1 ≤ n ∧ n ≤ size then some (n - 1) else none := by
  have hkey : integerKey? (.int (Int64.ofNat n)) = some (Int64.ofNat n) := rfl
  rw [place?, hkey]
  simp only [Int64.toInt_ofNat_of_lt hn]
  have hiff : (1 ≤ (n : Int) ∧ (n : Int) ≤ size) ↔ 1 ≤ n ∧ n ≤ size := by omega
  simp only [hiff]
  rfl

/-- An item of a table of texts. -/
theorem get_ofTexts {i : Nat} {b : Bytes} (hi : i + 1 < 2 ^ 63) (hb : texts[i]? = some b) :
    (ofTexts texts).get (.int (Int64.ofNat (i + 1))) = .string b := by
  have hlt : i < texts.length := (List.getElem?_eq_some_iff.mp hb).1
  have hsize : (ofTexts texts).items.size = texts.length := by simp [ofTexts]
  rw [get, hsize, place?_ofNat hi, if_pos (by omega)]
  simp only [Nat.add_sub_cancel, Array.getD_eq_getD_getElem?]
  simp [ofTexts, hb]

/-- **One text more,** right behind the others. -/
theorem set_ofTexts (b : Bytes) (hlength : texts.length + 1 < 2 ^ 63) :
    (ofTexts texts).set (.int (Int64.ofNat (texts.length + 1))) (.string b) =
      ofTexts (texts ++ [b]) := by
  have hsize : (ofTexts texts).items.size = texts.length := by simp [ofTexts]
  have hkey : integerKey? (.int (Int64.ofNat (texts.length + 1))) =
      some (Int64.ofNat (texts.length + 1)) := rfl
  rw [set, hsize, place?_ofNat hlength, if_neg (by omega), hkey]
  simp only [Int64.toInt_ofNat_of_lt hlength]
  rw [if_pos ⟨by simp, rfl⟩]
  simp [ofTexts, absorb, without]

/-- The texts of a table from a place on. -/
theorem sequenceBytes_ofTexts (before : List Bytes) (i count : Nat)
    (hcount : i + count = texts.length) (hlength : texts.length < 2 ^ 63) :
    sequenceBytes (ofTexts texts) before (i + 1) count =
      .ok (before.reverse ++ texts.drop i) := by
  induction count generalizing before i with
  | zero =>
    rw [sequenceBytes, List.drop_eq_nil_of_le (by omega), List.append_nil]
  | succ count ih =>
    obtain ⟨b, hb⟩ : ∃ b, texts[i]? = some b := ⟨texts[i], List.getElem?_eq_getElem (by omega)⟩
    have hget : (ofTexts texts).get (.int (Int64.ofInt ((i : Int) + 1))) = .string b := by
      have hcast : ((i : Int) + 1) = ((i + 1 : Nat) : Int) := by omega
      rw [hcast, Int64.ofInt_eq_ofNat]
      exact get_ofTexts (by omega) hb
    have hrest := ih (b :: before) (i + 1) (by omega)
    rw [sequenceBytes, hget]
    simp only [Value.bytes?]
    push_cast at hrest
    rw [hrest, List.reverse_cons, List.append_assoc, List.singleton_append]
    congr 2
    rw [List.drop_eq_getElem_cons (by omega : i < texts.length)]
    rw [List.getElem?_eq_getElem (by omega : i < texts.length)] at hb
    rw [Option.some.inj hb]

/-- Nothing between texts leaves them as they are. -/
theorem nil_intercalate (texts : List Bytes) :
    ([] : Bytes).intercalate texts = texts.flatten := by
  induction texts with
  | nil => rfl
  | cons b texts ih =>
    cases texts with
    | nil => rfl
    | cons c texts =>
      rw [List.intercalate_cons_cons, List.append_nil, ih]
      rfl

/-- **The texts of a table,** one behind the other. -/
theorem concatenated_ofTexts (n : Nat) (hlength : texts.length < 2 ^ 63) :
    concatenated (ofTexts texts) [.table n] = .ok texts.flatten := by
  have hall : sequenceBytes (ofTexts texts) [] 1 texts.length = .ok texts := by
    simpa using sequenceBytes_ofTexts [] 0 texts.length (by omega) hlength
  have hcount : ((texts.length : Int) + 1 - 1).toNat = texts.length := by omega
  have hbytes : Arguments.bytesOr [.table n] 2 [] = .ok [] := rfl
  have hfirst : Arguments.integerOr [.table n] 3 1 = .ok 1 := rfl
  have hlast :
      Arguments.integerOr [.table n] 4 (ofTexts texts).border = .ok (texts.length : Int) := by
    rw [border_ofTexts]
    rfl
  rw [concatenated, hbytes]
  simp only [bind, Except.bind, hfirst, hlast, hcount, hall]
  rw [nil_intercalate]
  rfl

end Table

/-! ## The function that writes -/

/-- **The function that writes** to a table. -/
structure Writer (m : Machine) (n out : Nat) (c : Closure) : Prop where
  closure : m.closures[n]? = some c
  params : c.params = ["value".toList]
  variadic : c.variadic = false
  body : ∃ k, c.body = writeBody k
  out : Binds m c.env "__out".toList (.table out)
  tostring : Binds m c.env "__tostring".toList (.builtin (.base .tostring))

/-- **A machine in which one table may have changed,** and there may be more variables. -/
structure Machine.Writes (out : Nat) (m m' : Machine) : Prop where
  cells : Grows m.cells m'.cells
  closures : m'.closures = m.closures
  inclusions : m'.inclusions = m.inclusions
  tables : ∀ i, i ≠ out → m'.tables[i]? = m.tables[i]?

namespace Machine.Writes

variable {out : Nat} {m₁ m₂ m₃ : Machine}

/-- Two changes of one table. -/
theorem trans (h : m₁.Writes out m₂) (h' : m₂.Writes out m₃) : m₁.Writes out m₃ :=
  ⟨h.cells.trans h'.cells, h'.closures.trans h.closures, h'.inclusions.trans h.inclusions,
    fun i hi => (h'.tables i hi).trans (h.tables i hi)⟩

end Machine.Writes

/-- The function that writes stays what it is. -/
theorem Writer.write {m m' : Machine} {n out : Nat} {c : Closure} (h : Writer m n out c)
    (hm : m.Writes out m') : Writer m' n out c := by
  refine ⟨?_, h.params, h.variadic, h.body, h.out.grow hm.cells, h.tostring.grow hm.cells⟩
  rw [hm.closures]
  exact h.closure

section Write

variable {fuel out : Nat} {m : Machine} {texts : List Bytes}

/-- The function that makes a value a string. -/
theorem call_tostring {trace : Trace} (v : Value) :
    call (fuel + 1) trace (.builtin (.base .tostring)) [v] m = .done [.string v.display] m := by
  rw [call]
  rfl

/-- The place behind the last text. -/
theorem evaluateTarget_end (fuel line : Nat) {f : Frame}
    (hout : Binds m f.env "__out".toList (.table out))
    (htable : m.tables[out]? = some (.ofTexts texts)) :
    ∃ what, evaluateTarget (fuel + 5) f (.index line (.var "__out".toList)
        (.binary line .add (.unary line .length (.var "__out".toList)) (.number (.int 1)))) m =
      .done (.field (.table out) (.int (Int64.ofNat (texts.length + 1))) what) m := by
  refine ⟨f.describe (.var "__out".toList), ?_⟩
  have hlength : evaluate (fuel + 3) f (.unary line .length (.var "__out".toList)) m =
      .done (.nat texts.length) m := by
    rw [evaluate]
    refine (Run.bind_done (evaluate_var hout)).trans ?_
    refine (Run.bind_done (x := Run.get) (m := m) rfl).trans ?_
    simp only [UnaryOp.apply, Array.getD_eq_getD_getElem?, htable, Option.getD_some,
      Table.border_ofTexts]
    rfl
  have hone : evaluate (fuel + 3) f (.number (.int 1)) m = .done (.number (.int 1)) m := by
    rw [evaluate]
    rfl
  have hkey : evaluate (fuel + 4) f
      (.binary line .add (.unary line .length (.var "__out".toList)) (.number (.int 1))) m =
        .done (.int (Int64.ofNat (texts.length + 1))) m := by
    refine evaluate_binary (by simp) (by simp) hlength hone ?_
    rw [Int64.ofNat_add]
    rfl
  rw [evaluateTarget]
  exact (Run.bind_done (evaluate_var hout)).trans (Run.bind_done hkey)

/-- The machine with a value under a key of a table. -/
def Machine.setEntry (m : Machine) (n : Nat) (key v : Value) : Machine :=
  { m with tables := m.tables.modify n fun t => t.set key v }

/-- One text more in the table. -/
theorem Machine.Writes.setEntry {b : Bytes} (htable : m.tables[out]? = some (.ofTexts texts))
    (hlength : texts.length + 1 < 2 ^ 63) :
    m.Writes out (m.setEntry out (.int (Int64.ofNat (texts.length + 1))) (.string b)) ∧
      (m.setEntry out (.int (Int64.ofNat (texts.length + 1))) (.string b)).tables[out]? =
        some (.ofTexts (texts ++ [b])) := by
  refine ⟨⟨.refl _, rfl, rfl, fun i hi => ?_⟩, ?_⟩
  · rw [Machine.setEntry, Array.getElem?_modify, if_neg (Ne.symm hi)]
  · rw [Machine.setEntry, Array.getElem?_modify, if_pos rfl, htable, Option.map_some,
      Table.set_ofTexts b hlength]

/-- The assignment of the function that writes. -/
theorem execute_append (line : Nat) {f : Frame} {v : Value}
    (hout : Binds m f.env "__out".toList (.table out))
    (hvalue : Binds m f.env "value".toList v)
    (htostring : Binds m f.env "__tostring".toList (.builtin (.base .tostring)))
    (htable : m.tables[out]? = some (.ofTexts texts)) :
    execute (fuel + 7) f (.assign line
        [.index line (.var "__out".toList)
          (.binary line .add (.unary line .length (.var "__out".toList)) (.number (.int 1)))]
        [.call line (.var "__tostring".toList) [.var "value".toList]]) m =
      .done (.next f.env)
        (m.setEntry out (.int (Int64.ofNat (texts.length + 1))) (.string v.display)) := by
  obtain ⟨what, htarget⟩ := evaluateTarget_end fuel line hout htable
  have htargets : evaluateTargets (fuel + 6) f [.index line (.var "__out".toList)
      (.binary line .add (.unary line .length (.var "__out".toList)) (.number (.int 1)))] m =
        .done [.field (.table out) (.int (Int64.ofNat (texts.length + 1))) what] m := by
    rw [evaluateTargets, Run.bind_done htarget, evaluateTargets]
    rfl
  have hargs : evaluateList (fuel + 4) f [.var "value".toList] m = .done [v] m :=
    evaluateList_value rfl (by simp) (evaluate_var hvalue)
  have hvalues : evaluateList (fuel + 6) f
      [.call line (.var "__tostring".toList) [.var "value".toList]] m =
        .done [.string v.display] m := by
    rw [evaluateList_one, evaluateAll_call (evaluate_var htostring) hargs, callAt_function rfl]
    exact call_tostring v
  have hkey : (Value.int (Int64.ofNat (texts.length + 1))).rawEq
      (.int (Int64.ofNat (texts.length + 1))) = true := by
    simp [Value.int, Value.rawEq, Number.beq]
  have hassign : assignAll f line (pairUp
      [.field (.table out) (.int (Int64.ofNat (texts.length + 1))) what] [.string v.display]) m =
        .done () (m.setEntry out (.int (Int64.ofNat (texts.length + 1))) (.string v.display)) := by
    show f.store line what (.table out) (.int (Int64.ofNat (texts.length + 1)))
      (.string v.display) m = _
    rw [Frame.store, if_pos hkey]
    · rfl
    · simp [Value.int]
  rw [execute]
  refine (Run.bind_done htargets).trans ((Run.bind_done hvalues).trans ?_)
  exact Run.bind_done hassign

/-- **One text more.** The function that writes adds a value to the table as a string. -/
theorem call_write (fuel : Nat) (trace : Trace) (v : Value) {n : Nat} {c : Closure}
    (hc : Writer m n out c) (hdepth : trace.depth < maxDepth)
    (hcrossings : trace.crossings < maxCrossings)
    (htable : m.tables[out]? = some (.ofTexts texts)) (hlength : texts.length + 1 < 2 ^ 63)
    (hv : v.isNil = false) :
    ∃ m', call (fuel + 15) trace (.closure n) [v] m = .done [] m' ∧ m.Writes out m' ∧
      m'.tables[out]? = some (.ofTexts (texts ++ [v.display])) := by
  obtain ⟨k, hbody⟩ := hc.body
  let f := c.frame trace "value".toList m.cells.size
  let m₁ := m.pushCell v
  let m₂ := m₁.setEntry out (.int (Int64.ofNat (texts.length + 1))) (.string v.display)
  have hvalue : Binds m₁ f.env "value".toList v := .declared rfl
  have hout : Binds m₁ f.env "__out".toList (.table out) := hc.out.declare (by simp)
  have htostring : Binds m₁ f.env "__tostring".toList (.builtin (.base .tostring)) :=
    hc.tostring.declare (by simp)
  have htable₁ : m₁.tables[out]? = some (.ofTexts texts) := htable
  have hwrites : m.Writes out m₁ := ⟨.push _ _, rfl, rfl, fun _ _ => rfl⟩
  obtain ⟨hm₂, htable₂⟩ := Machine.Writes.setEntry (b := v.display) htable₁ hlength
  refine ⟨m₂, ?_, hwrites.trans hm₂, htable₂⟩
  rw [call_closure hc.closure hc.params hc.variadic hdepth hcrossings, hbody]
  have hbranch (whole : Block) :
      executeBlock (fuel + 12) f f.env.length whole _ m₁ = .done (.next f.env) m₂ :=
    (executeBlock_next (execute_append (k + 2) hout hvalue htostring htable₁)).trans
      executeBlock_nil
  have htest : evaluate (fuel + 12) f (.binary (k + 1) .ne (.var "value".toList) .nil) m₁ =
      .done (.bool true) m₁ :=
    evaluate_isNil hvalue .ne (by simp) (by simp) (by rw [BinaryOp.apply, rawEq_nil hv]; rfl)
  have hblock : executeBlock (fuel + 14) f (c.env.length + 1) (writeBody k) (writeBody k) m₁ =
      .done (.next f.env) m₂ :=
    (executeBlock_next (execute_choose_yes htest rfl (hbranch _))).trans executeBlock_nil
  exact congrArg Step.results hblock

/-- **What is written of a value:** the value as a string, and nothing for `nil`. -/
def written (v : Value) : List Bytes := if v.isNil then [] else [v.display]

/-- Nothing is written of `nil`. -/
theorem call_write_nil (fuel : Nat) (trace : Trace) {n : Nat} {c : Closure}
    (hc : Writer m n out c) (hdepth : trace.depth < maxDepth)
    (hcrossings : trace.crossings < maxCrossings) :
    call (fuel + 15) trace (.closure n) [.nil] m = .done [] (m.pushCell .nil) := by
  obtain ⟨k, hbody⟩ := hc.body
  let g := c.frame trace "value".toList m.cells.size
  have hvalue : Binds (m.pushCell .nil) g.env "value".toList .nil := .declared rfl
  have htest : evaluate (fuel + 12) g (.binary (k + 1) .ne (.var "value".toList) .nil)
      (m.pushCell .nil) = .done (.bool false) (m.pushCell .nil) :=
    evaluate_isNil hvalue .ne (by simp) (by simp) rfl
  have hblock : executeBlock (fuel + 14) g (c.env.length + 1) (writeBody k) (writeBody k)
      (m.pushCell .nil) = .done (.next g.env) (m.pushCell .nil) :=
    (executeBlock_next (execute_choose_no htest rfl)).trans executeBlock_nil
  rw [call_closure hc.closure hc.params hc.variadic hdepth hcrossings, hbody]
  exact congrArg Step.results hblock

/-- **The function that writes** is given any values, and writes the first of them. -/
theorem call_write_values (fuel : Nat) (trace : Trace) (vs : Arguments) {n : Nat} {c : Closure}
    (hc : Writer m n out c) (hdepth : trace.depth < maxDepth)
    (hcrossings : trace.crossings < maxCrossings)
    (htable : m.tables[out]? = some (.ofTexts texts)) (hlength : texts.length + 1 < 2 ^ 63) :
    ∃ m', call (fuel + 15) trace (.closure n) vs m = .done [] m' ∧ m.Writes out m' ∧
      m'.tables[out]? = some (.ofTexts (texts ++ written (vs.headD .nil))) := by
  have hfirst : call (fuel + 15) trace (.closure n) vs m =
      call (fuel + 15) trace (.closure n) [vs.headD .nil] m := by
    rw [call_closure hc.closure hc.params hc.variadic hdepth hcrossings,
      call_closure hc.closure hc.params hc.variadic hdepth hcrossings]
    rfl
  rw [hfirst, written]
  cases hnil : (vs.headD .nil).isNil with
  | true =>
    obtain hv : vs.headD .nil = .nil := by
      cases hhead : vs.headD .nil with
      | nil => rfl
      | _ =>
        rw [hhead] at hnil
        cases hnil
    rw [hv]
    exact ⟨_, call_write_nil fuel trace hc hdepth hcrossings,
      ⟨.push _ _, rfl, rfl, fun _ _ => rfl⟩, by simpa [Machine.pushCell] using htable⟩
  | false => exact call_write fuel trace _ hc hdepth hcrossings htable hlength hnil

/-- **The statement that writes an expression** writes the first of its values. -/
theorem execute_write (fuel line : Nat) {f : Frame} {m₁ : Machine} {e : Exp} {vs : Arguments}
    {n : Nat} {c : Closure} (hwrite : Binds m f.env "__write".toList (.closure n))
    (hvalue : evaluateList (fuel + 18) f [e] m = .done vs m₁) (hc : Writer m₁ n out c)
    (hdepth : f.trace.depth + 1 < maxDepth) (hcrossings : f.trace.crossings < maxCrossings)
    (htable : m₁.tables[out]? = some (.ofTexts texts)) (hlength : texts.length + 1 < 2 ^ 63) :
    ∃ m', execute (fuel + 20) f (.call (.call line (.var "__write".toList) [e])) m =
        .done (.next f.env) m' ∧ m₁.Writes out m' ∧
      m'.tables[out]? = some (.ofTexts (texts ++ written (vs.headD .nil))) := by
  obtain ⟨m', hcall, hwrites, htable'⟩ := call_write_values (fuel + 2) (f.traceAt line) vs hc
    hdepth hcrossings htable hlength
  have hall : evaluateAll (fuel + 19) f (.call line (.var "__write".toList) [e]) m =
      .done [] m' := by
    rw [evaluateAll_call (evaluate_var hwrite) hvalue, callAt_function rfl]
    exact hcall
  exact ⟨m', execute_call hall, hwrites, htable'⟩

end Write

/-! ## Pieces -/

/-- **The text of a piece.** -/
def Piece.content (includes : Option Resolver) : Piece → Except Error String
  | literal text => .ok text
  | inclusion name => resolveInclude includes name

/-- **A table through which the host can be asked for content.** -/
def Offers (includes : Option Resolver) (m : Machine) (support : Nat) : Prop :=
  ∃ t i, m.tables[support]? = some t ∧ t.get includeKey = .inclusion i ∧
    m.inclusions[i]? = some (some includes)

/-- **The host can be asked for content** by what a name stands for. -/
def Asks (includes : Option Resolver) (m : Machine) (env : Env) : Prop :=
  ∃ support, Binds m env supportName.toList (.table support) ∧ Offers includes m support

/-- **A machine in which some texts have been written,** and in which the host can be asked for
content. -/
structure Writing (includes : Option Resolver) (out : Nat) (m : Machine) (env : Env)
    (texts : List Bytes) : Prop where
  table : m.tables[out]? = some (.ofTexts texts)
  output : Binds m env "__out".toList (.table out)
  concat : Binds m env "__concat".toList (.builtin (.table .concat))
  write : ∃ n c, Binds m env "__write".toList (.closure n) ∧ Writer m n out c
  host : Asks includes m env

namespace Writing

variable {includes : Option Resolver} {out : Nat} {m m' : Machine} {env : Env}
  {texts : List Bytes}

/-- More texts have been written. -/
theorem step (h : Writing includes out m env texts) (hm : m.Writes out m') {texts' : List Bytes}
    (htable : m'.tables[out]? = some (.ofTexts texts')) : Writing includes out m' env texts' := by
  obtain ⟨n, c, hwrite, hc⟩ := h.write
  obtain ⟨support, hsupport, t, i, ht, hi, hasked⟩ := h.host
  have hne : support ≠ out := by
    rintro rfl
    rw [h.table] at ht
    obtain rfl := Option.some.inj ht
    cases hi
  refine ⟨htable, h.output.grow hm.cells, h.concat.grow hm.cells,
    ⟨n, c, hwrite.grow hm.cells, hc.write hm⟩,
    ⟨support, hsupport.grow hm.cells, t, i, ?_, hi, ?_⟩⟩
  · rw [hm.tables support hne, ht]
  · rw [hm.inclusions, hasked]

end Writing

section Pieces

variable {fuel out : Nat} {includes : Option Resolver} {m : Machine} {f : Frame}
  {texts : List Bytes}

/-- The host is asked for content. -/
theorem call_inclusion {trace : Trace} {i : Nat} (name : String)
    (hi : m.inclusions[i]? = some (some includes)) :
    call (fuel + 1) trace (.inclusion i) [.string (Bytes.ofText name)] m =
      match resolveInclude includes name with
      | .ok content => .done [.text content] m
      | .error e => .raised (.failure (.host e)) m := by
  have hname : ([Value.string (Bytes.ofText name)].headD .nil).bytes?.bind Bytes.toText? =
      some name := by
    show Bytes.toText? (Bytes.ofChars name.toList) = _
    rw [Bytes.toText?_ofChars, String.ofList_toList]
  have hasked : m.inclusions.getD i none = some includes := by
    rw [Array.getD_eq_getD_getElem?, hi]
    rfl
  rw [call, Run.bind_done (x := Run.get) (m := m) rfl, hasked, askHost, hname]
  simp only
  cases resolveInclude includes name <;> rfl

/-- **The value of a piece** is its text, or the error of the host is raised. -/
theorem evaluate_piece (fuel : Nat) (h : Writing includes out m f.env texts) (p : Piece) (n : Nat) :
    evaluateList (fuel + 10) f [p.value n] m =
      match p.content includes with
      | .ok content => .done [.text content] m
      | .error e => .raised (.failure (.host e)) m := by
  cases p with
  | literal text =>
    exact evaluateList_value rfl (by simp [Piece.value]) evaluate_string
  | inclusion name =>
    obtain ⟨support, hsupport, t, i, ht, hi, hasked⟩ := h.host
    have hkey : evaluate (fuel + 7) f (.string (Bytes.ofChars "include".toList)) m =
        .done includeKey m := evaluate_string
    have hfunction : evaluate (fuel + 8) f (.field n (.var "codet".toList) "include".toList) m =
        .done (.inclusion i) m := by
      refine (evaluate_index (evaluate_var hsupport) hkey).trans ?_
      rw [Array.getD_eq_getD_getElem?, ht, Option.getD_some, hi]
    have hargs : evaluateList (fuel + 8) f [.string (Bytes.ofText name)] m =
        .done [.string (Bytes.ofText name)] m :=
      evaluateList_value rfl (by simp) evaluate_string
    rw [evaluateList_one, Piece.value, evaluateAll_call hfunction hargs, callAt_function rfl]
    exact call_inclusion name hasked

end Pieces

/-! ## Portions -/

/-- **A value that shows a text** when it is written. -/
def Value.Shows (v : Value) (text : String) : Prop := (written v).flatten = Bytes.ofText text

/-- **The piece that stands in for a portion** when what names and keys stand for shows texts. -/
def Portion.resolve (text : String → String) : Portion → Piece
  | piece p => p
  | whole name => .literal (text name)
  | entry _ key => .literal (text key)

/-- **The value of a portion is found:** what its name stands for, or the entry of that in a table
that is not written to, shows its text. -/
def Portion.Found (text : String → String) (out : Nat) (m : Machine) (env : Env) : Portion → Prop
  | piece _ => True
  | whole name => ∃ v, Binds m env name.toList v ∧ v.Shows (text name)
  | entry name key => ∃ n t, n ≠ out ∧ Binds m env name.toList (.table n) ∧
      m.tables[n]? = some t ∧ (t.get (.text key)).Shows (text key)

/-- What is found is found while more is written. -/
theorem Portion.Found.write {text : String → String} {out : Nat} {m m' : Machine} {env : Env}
    {p : Portion} (h : p.Found text out m env) (hm : m.Writes out m') :
    p.Found text out m' env := by
  cases p with
  | piece p => trivial
  | whole name =>
    obtain ⟨v, hv, hshows⟩ := h
    exact ⟨v, hv.grow hm.cells, hshows⟩
  | entry name key =>
    obtain ⟨n, t, hne, hn, ht, hshows⟩ := h
    exact ⟨n, t, hne, hn.grow hm.cells, (hm.tables n hne).trans ht, hshows⟩

section Portions

variable {fuel out : Nat} {includes : Option Resolver} {m : Machine} {f : Frame}
  {texts : List Bytes} {text : String → String}

/-- **The value of a portion** shows its text, or the error of the host is raised. -/
theorem evaluate_portion (fuel : Nat) (h : Writing includes out m f.env texts) {p : Portion}
    (hp : p.Found text out m f.env) (n : Nat) :
    match (p.resolve text).content includes with
    | .ok content => ∃ v, evaluateList (fuel + 10) f [p.value n] m = .done [v] m ∧ v.Shows content
    | .error e => evaluateList (fuel + 10) f [p.value n] m = .raised (.failure (.host e)) m := by
  have hshown (content : String) : (Value.text content).Shows content := List.append_nil _
  cases p with
  | piece p =>
    have hvalue := evaluate_piece fuel h p n
    show match p.content includes with
      | .ok content => ∃ v, evaluateList (fuel + 10) f [p.value n] m = .done [v] m ∧
          v.Shows content
      | .error e => evaluateList (fuel + 10) f [p.value n] m = .raised (.failure (.host e)) m
    cases hcontent : p.content includes with
    | ok content => exact ⟨.text content, by rw [hcontent] at hvalue; exact hvalue, hshown content⟩
    | error e =>
      rw [hcontent] at hvalue
      exact hvalue
  | whole name =>
    obtain ⟨v, hv, hshows⟩ := hp
    exact ⟨v, evaluateList_value rfl (by simp [Portion.value]) (evaluate_var hv), hshows⟩
  | entry name key =>
    obtain ⟨k, t, -, hk, ht, hshows⟩ := hp
    refine ⟨t.get (.text key), evaluateList_value rfl (by simp [Portion.value, Exp.field]) ?_,
      hshows⟩
    refine (evaluate_index (evaluate_var hk) evaluate_string).trans ?_
    rw [Array.getD_eq_getD_getElem?, ht, Option.getD_some]
    rfl

/-- **The statement of a portion** writes its text, or raises the error of the host. -/
theorem execute_portion (fuel : Nat) (h : Writing includes out m f.env texts) {p : Portion}
    (hp : p.Found text out m f.env) (n : Nat) (hdepth : f.trace.depth + 1 < maxDepth)
    (hcrossings : f.trace.crossings < maxCrossings) (hlength : texts.length + 1 < 2 ^ 63) :
    match (p.resolve text).content includes with
    | .ok content => ∃ m' more, execute (fuel + 20) f (p.stat n) m = .done (.next f.env) m' ∧
        m.Writes out m' ∧ m'.tables[out]? = some (.ofTexts (texts ++ more)) ∧
        more.flatten = Bytes.ofText content ∧ more.length ≤ 1
    | .error e => execute (fuel + 20) f (p.stat n) m = .raised (.failure (.host e)) m := by
  obtain ⟨k, c, hwrite, hc⟩ := h.write
  have hvalue := evaluate_portion (fuel + 8) h hp n
  cases hcontent : (p.resolve text).content includes with
  | ok content =>
    rw [hcontent] at hvalue
    obtain ⟨v, hvalue, hshows⟩ := hvalue
    obtain ⟨m', hexecute, hwrites, htable⟩ := execute_write fuel n hwrite hvalue hc hdepth
      hcrossings h.table hlength
    have hone : (written v).length ≤ 1 := by
      rw [written]
      split <;> simp
    exact ⟨m', written v, hexecute, hwrites, htable, hshows, hone⟩
  | error e =>
    rw [hcontent] at hvalue
    refine execute_call_raised ?_
    rw [evaluateAll]
    exact (Run.bind_done (evaluate_var hwrite)).trans (Run.bind_raised hvalue)

/-- **The statements of portions** write their texts one after another, up to the first include
that fails.

**Proof sketch.** By induction on the portions; what has been written so far is the invariant, and
that the values of the portions are found. -/
theorem executeBlock_portions (fuel base n : Nat) (whole rest : Block) (portions : List Portion)
    (h : Writing includes out m f.env texts) (hfound : ∀ p ∈ portions, p.Found text out m f.env)
    (hdepth : f.trace.depth + 1 < maxDepth) (hcrossings : f.trace.crossings < maxCrossings)
    (hlength : texts.length + portions.length < 2 ^ 63) :
    match (portions.map (Portion.resolve text)).mapM (Piece.content includes) with
    | .ok contents => ∃ m' more, executeBlock (fuel + 20 + portions.length) f base whole
          (portionTree n portions ++ rest) m = executeBlock (fuel + 20) f base whole rest m' ∧
        Writing includes out m' f.env (texts ++ more) ∧
        more.flatten = (contents.map Bytes.ofText).flatten ∧ more.length ≤ portions.length
    | .error e => ∃ m', executeBlock (fuel + 20 + portions.length) f base whole
        (portionTree n portions ++ rest) m = .raised (.failure (.host e)) m' := by
  induction portions generalizing n m texts with
  | nil => exact ⟨m, [], rfl, by simpa using h, rfl, le_rfl⟩
  | cons p portions ih =>
    rw [List.length_cons] at hlength
    have hfirst := execute_portion (fuel + portions.length) h (hfound p (by simp)) n hdepth
      hcrossings (by omega)
    rw [Nat.add_right_comm] at hfirst
    rw [List.map_cons, List.mapM_cons]
    cases hcontent : (p.resolve text).content includes with
    | error e =>
      rw [hcontent] at hfirst
      exact ⟨m, executeBlock_raised hfirst⟩
    | ok content =>
      rw [hcontent] at hfirst
      obtain ⟨m₁, more₁, hfirst, hwrites, htable, hflatten₁, hone⟩ := hfirst
      have hrest := ih (n + 1) (h.step hwrites htable)
        (fun p hp => (hfound p (by simp [hp])).write hwrites)
        (by rw [List.length_append]; omega)
      cases hcontents : (portions.map (Portion.resolve text)).mapM (Piece.content includes) with
      | error e =>
        rw [hcontents] at hrest
        obtain ⟨m', hrest⟩ := hrest
        exact ⟨m', (executeBlock_next hfirst).trans hrest⟩
      | ok contents =>
        rw [hcontents] at hrest
        obtain ⟨m', more, hrest, hwriting, hflatten, hlength'⟩ := hrest
        refine ⟨m', more₁ ++ more, (executeBlock_next hfirst).trans hrest, ?_, ?_, ?_⟩
        · rw [← List.append_assoc]
          exact hwriting
        · rw [List.flatten_append, hflatten₁, hflatten, List.map_cons, List.flatten_cons]
        · rw [List.length_append, List.length_cons]
          omega

end Portions

/-! ## The function that renders -/

/-- The host can be asked through a table in a machine with more in it. -/
theorem Offers.extend {includes : Option Resolver} {m m' : Machine} {support : Nat}
    (h : Offers includes m support) (hm : m.Extends m') : Offers includes m' support := by
  obtain ⟨t, i, ht, hi, hasked⟩ := h
  exact ⟨t, i, hm.tables _ _ ht, hi, hm.inclusions _ _ hasked⟩

/-- The host can be asked in a machine with more in it. -/
theorem Asks.extend {includes : Option Resolver} {m m' : Machine} {env : Env}
    (h : Asks includes m env) (hm : m.Extends m') : Asks includes m' env := by
  obtain ⟨support, hsupport, hoffers⟩ := h
  exact ⟨support, hsupport.grow hm.cells, hoffers.extend hm⟩

/-- The host can be asked if another name is declared. -/
theorem Asks.cons {includes : Option Resolver} {m : Machine} {env : Env} {v : Variable}
    (h : Asks includes m env) (hv : v.name ≠ supportName.toList) :
    Asks includes m (v :: env) := by
  obtain ⟨support, hsupport, hoffers⟩ := h
  exact ⟨support, hsupport.cons hv, hoffers⟩

/-- **A name that hides nothing** that the function that renders needs, and that it does not hide
either. -/
def Harmless (name : Ident) : Prop :=
  name ∉ ["__concat".toList, "__tostring".toList, supportName.toList, "__out".toList,
    "__write".toList]

/-- What a portion needs is found behind the declaration of other names. -/
theorem Portion.Found.declare {text : String → String} {out : Nat} {m m' : Machine} {env : Env}
    {u v : Variable} {p : Portion} (h : p.Found text out m env) (hm : m.Extends m')
    (hu : ∀ name ∈ p.names, u.name ≠ name.toList) (hv : ∀ name ∈ p.names, v.name ≠ name.toList) :
    p.Found text out m' (v :: u :: env) := by
  cases p with
  | piece p => trivial
  | whole name =>
    have hname : name ∈ (Portion.whole name).names := by simp [Portion.names]
    obtain ⟨x, hx, hshows⟩ := h
    exact ⟨x, ((hx.grow hm.cells).cons (hu name hname)).cons (hv name hname), hshows⟩
  | entry name key =>
    have hname : name ∈ (Portion.entry name key).names := by simp [Portion.names]
    obtain ⟨n, t, hne, hn, ht, hshows⟩ := h
    exact ⟨n, t, hne, ((hn.grow hm.cells).cons (hu name hname)).cons (hv name hname),
      hm.tables n t ht, hshows⟩

section Render

variable {fuel : Nat} {includes : Option Resolver} {m : Machine} {f : Frame}
  {text : String → String}

/-- **The statements before the portions** make the table for the texts and the function that
writes. -/
theorem executeBlock_prologue (fuel base n : Nat) (whole : Block)
    (hconcat : Binds m f.env "__concat".toList (.builtin (.table .concat)))
    (htostring : Binds m f.env "__tostring".toList (.builtin (.base .tostring)))
    (hhost : Asks includes m f.env) :
    ∃ m' u v, (∀ rest, executeBlock (fuel + 12) f base whole (prologueTree n ++ rest) m =
        executeBlock (fuel + 10) (f.withEnv (v :: u :: f.env)) base whole rest m') ∧
      Writing includes m.tables.size m' (v :: u :: f.env) [] ∧ m.Extends m' ∧
      u.name = "__out".toList ∧ v.name = "__write".toList := by
  let out := m.tables.size
  let m₁ := (m.pushTable (.ofTexts [])).pushCell (.table out)
  let g := f.withEnv (f.bind "__out".toList m.cells.size)
  have hfirst : execute (fuel + 11) f (.declare [("__out".toList, .regular)] [.table n []]) m =
      .done (.next g.env) m₁ := by
    have hvalue : evaluateList (fuel + 10) f [.table n []] m =
        .done [.table out] (m.pushTable (.ofTexts [])) := by
      refine evaluateList_value rfl (by simp) ?_
      rw [evaluate, evaluateFields]
      rfl
    exact execute_declare hvalue
  let env' := g.bind "__write".toList m₁.cells.size
  let c : Closure := ⟨["value".toList], false, writeBody (n + 1), env', g.level, g.chunk⟩
  let m₂ := (m₁.pushCell (.closure m₁.closures.size)).pushClosure c
  have hsecond : execute (fuel + 10) g (.declareFunction "__write".toList
      (.function ["value".toList] false (writeBody (n + 1)) (n + 6))) m₁ =
        .done (.next env') m₂ := execute_declareFunction
  have hmore : m.Extends m₂ := (((Machine.Extends.pushTable m _).trans (.pushCell _ _)).trans
    (.pushCell m₁ _)).trans (.pushClosure _ c)
  have hout : Binds m₂ env' "__out".toList (.table out) :=
    (Binds.grow (.head (by simp [m₁, Machine.pushCell, Machine.pushTable]))
      (Machine.Extends.pushCell m₁ _).cells).cons (by simp)
  have htostring' : Binds m₂ env' "__tostring".toList (.builtin (.base .tostring)) :=
    ((htostring.grow hmore.cells).cons (by simp)).cons (by simp)
  have hwriter : Writer m₂ m₁.closures.size out c :=
    ⟨by simp [m₂, Machine.pushClosure, Machine.pushCell], rfl, rfl, ⟨n + 1, rfl⟩, hout, htostring'⟩
  refine ⟨m₂, _, _, fun rest => ?_, ⟨?_, hout, ?_, ⟨m₁.closures.size, c, ?_, hwriter⟩, ?_⟩, hmore,
    rfl, rfl⟩
  · exact (executeBlock_next hfirst).trans (executeBlock_next hsecond)
  · simp [m₂, m₁, out, Machine.pushClosure, Machine.pushCell, Machine.pushTable]
  · exact ((hconcat.grow hmore.cells).cons (by simp)).cons (by simp)
  · exact .head (by simp [m₂, Machine.pushClosure, Machine.pushCell])
  · exact ((hhost.extend hmore).cons (by simp [supportName])).cons (by simp [supportName])

/-- The texts of a table are given one behind the other. -/
theorem call_concat {trace : Trace} {out : Nat} {texts : List Bytes}
    (htable : m.tables[out]? = some (.ofTexts texts)) (hlength : texts.length < 2 ^ 63) :
    call (fuel + 1) trace (.builtin (.table .concat)) [.table out] m =
      .done [.string texts.flatten] m := by
  have htable' : Run.table out m = .done (.ofTexts texts) m := by
    rw [Run.table, Array.getD_eq_getD_getElem?, htable]
    rfl
  rw [call]
  show (do
    let t ← Run.table out
    return [.string (← Run.check trace "concat" (concatenated t [.table out]))] :
      Run Arguments) m = _
  rw [Run.bind_done htable', Table.concatenated_ofTexts out hlength]
  rfl

/-- **The body of the function that renders** gives the texts of the portions one behind the other,
or raises the error of the first include that fails. -/
theorem executeBlock_renderBody (fuel base n : Nat) (whole : Block) (portions : List Portion)
    (hconcat : Binds m f.env "__concat".toList (.builtin (.table .concat)))
    (htostring : Binds m f.env "__tostring".toList (.builtin (.base .tostring)))
    (hhost : Asks includes m f.env)
    (hnames : ∀ p ∈ portions, ∀ name ∈ p.names, Harmless name.toList)
    (hfound : ∀ p ∈ portions, p.Found text m.tables.size m f.env)
    (hdepth : f.trace.depth + 1 < maxDepth)
    (hcrossings : f.trace.crossings < maxCrossings) (hlength : portions.length < 2 ^ 63) :
    match (portions.map (Portion.resolve text)).mapM (Piece.content includes) with
    | .ok contents => ∃ m', executeBlock (fuel + 22 + portions.length) f base whole
        (renderBody n portions) m =
          .done (.returned [.string (contents.map Bytes.ofText).flatten]) m'
    | .error e => ∃ m', executeBlock (fuel + 22 + portions.length) f base whole
        (renderBody n portions) m = .raised (.failure (.host e)) m' := by
  obtain ⟨m₁, u, v, hprologue, hwriting, hmore, hu, hv⟩ := executeBlock_prologue
    (fuel + 10 + portions.length) base n whole hconcat htostring hhost
  rw [show fuel + 10 + portions.length + 12 = fuel + 22 + portions.length by omega,
    show fuel + 10 + portions.length + 10 = fuel + 20 + portions.length by omega] at hprologue
  let g := f.withEnv (v :: u :: f.env)
  have hfound₁ : ∀ p ∈ portions, p.Found text m.tables.size m₁ g.env := by
    intro p hp
    refine (hfound p hp).declare hmore (fun name hname => ?_) fun name hname => ?_
    · rw [hu]
      rintro heq
      exact hnames p hp name hname (by simp [← heq])
    · rw [hv]
      rintro heq
      exact hnames p hp name hname (by simp [← heq])
  have hportions := executeBlock_portions fuel base (n + 6) whole
    [concatStat (n + 6 + portions.length)] (f := g) portions hwriting hfound₁ hdepth hcrossings
    (by simpa using hlength)
  rw [renderBody, List.append_assoc]
  cases hcontents : (portions.map (Portion.resolve text)).mapM (Piece.content includes) with
  | error e =>
    rw [hcontents] at hportions
    obtain ⟨m', hportions⟩ := hportions
    exact ⟨m', (hprologue _).trans hportions⟩
  | ok contents =>
    rw [hcontents] at hportions
    obtain ⟨m', more, hportions, hwritten, hflatten, hmore'⟩ := hportions
    rw [List.nil_append] at hwritten
    have hargs : evaluateList (fuel + 18) g [.var "__out".toList] m' =
        .done [.table m.tables.size] m' :=
      evaluateList_value rfl (by simp) (evaluate_var hwritten.output)
    have hlast : execute (fuel + 19) g (concatStat (n + 6 + portions.length)) m' =
        .done (.returned [.string (contents.map Bytes.ofText).flatten]) m' := by
      rw [← hflatten]
      exact execute_yields_builtin (evaluate_var hwritten.concat) hargs
        (call_concat hwritten.table (by omega))
    exact ⟨m', (hprologue _).trans (hportions.trans (executeBlock_returned hlast))⟩

/-- **The function that renders** portions, and asks for content through a table. -/
structure Renderer (portions : List Portion) (support : Nat) (m : Machine) (n : Nat)
    (c : Closure) : Prop where
  closure : m.closures[n]? = some c
  params : ∀ parameter ∈ c.params, Harmless parameter
  variadic : c.variadic = false
  body : ∃ k, c.body = renderBody k portions
  concat : Binds m c.env "__concat".toList (.builtin (.table .concat))
  tostring : Binds m c.env "__tostring".toList (.builtin (.base .tostring))
  support : Binds m c.env supportName.toList (.table support)

/-- The function that renders stays what it is when variables and functions have grown. -/
theorem Renderer.grow {portions : List Portion} {support n : Nat} {m m' : Machine} {c : Closure}
    (h : Renderer portions support m n c) (hcells : Grows m.cells m'.cells)
    (hclosures : Grows m.closures m'.closures) : Renderer portions support m' n c :=
  ⟨hclosures _ _ h.closure, h.params, h.variadic, h.body, h.concat.grow hcells,
    h.tostring.grow hcells, h.support.grow hcells⟩

/-- **The value of a portion is supplied** by names with their values: the one of its name, or the
entry of that in a table, shows its text. -/
def Portion.Supplied (text : String → String) (given : List (Ident × Value)) (m : Machine) :
    Portion → Prop
  | piece _ => True
  | whole name => ∃ v, (name.toList, v) ∈ given ∧ v.Shows (text name)
  | entry name key => ∃ n t, (name.toList, .table n) ∈ given ∧ m.tables[n]? = some t ∧
      (t.get (.text key)).Shows (text key)

/-- What is supplied is found once the names are declared. -/
theorem Portion.Supplied.found {given : List (Ident × Value)} {m' : Machine} {env : Env}
    {p : Portion} (h : p.Supplied text given m) (htables : m'.tables = m.tables)
    (hbound : ∀ name x, (name, x) ∈ given → Binds m' env name x) :
    p.Found text m'.tables.size m' env := by
  cases p with
  | piece p => trivial
  | whole name =>
    obtain ⟨v, hmem, hshows⟩ := h
    exact ⟨v, hbound _ _ hmem, hshows⟩
  | entry name key =>
    obtain ⟨n, t, hmem, ht, hshows⟩ := h
    rw [← htables] at ht
    exact ⟨n, t, Nat.ne_of_lt (Array.getElem?_eq_some_iff.mp ht).1, hbound _ _ hmem, ht, hshows⟩

/-- **Rendering** gives the texts of the portions one behind the other, or raises the error of the
first include that fails. -/
theorem call_render (fuel : Nat) (trace : Trace) {n support : Nat} {c : Closure}
    {portions : List Portion} (vs : Arguments) (hc : Renderer portions support m n c)
    (hhost : Offers includes m support) (hnodup : c.params.Nodup)
    (hnames : ∀ p ∈ portions, ∀ name ∈ p.names, Harmless name.toList)
    (hsupplied : ∀ p ∈ portions, p.Supplied text (c.params.zip vs) m)
    (hdepth : trace.depth + 1 < maxDepth)
    (hcrossings : trace.crossings < maxCrossings) (hlength : portions.length < 2 ^ 63) :
    match (portions.map (Portion.resolve text)).mapM (Piece.content includes) with
    | .ok contents => ∃ m', call (fuel + 23 + portions.length) trace (.closure n) vs m =
        .done [.string (contents.map Bytes.ofText).flatten] m'
    | .error e => ∃ m', call (fuel + 23 + portions.length) trace (.closure n) vs m =
        .raised (.failure (.host e)) m' := by
  obtain ⟨k, hbody⟩ := hc.body
  obtain ⟨env, m₁, hdeclare, hmore, htables, hothers, hbound⟩ :=
    declare_done (c.chunkFrame trace []) c.params vs m
  have hkeep {name : Ident} {x : Value} (hname : ¬ Harmless name) (h : Binds m c.env name x) :
      Binds m₁ env name x := hothers name x (fun hmem => hname (hc.params name hmem)) h
  have hblock := executeBlock_renderBody (f := (c.chunkFrame trace []).withEnv env) fuel
    env.length k (renderBody k portions) portions
    (hkeep (by simp [Harmless]) hc.concat) (hkeep (by simp [Harmless]) hc.tostring)
    ⟨support, hkeep (by simp [Harmless]) hc.support, hhost.extend hmore⟩ hnames
    (fun p hp => (hsupplied p hp).found htables (hbound hnodup)) hdepth hcrossings hlength
  rw [show fuel + 23 + portions.length = fuel + 22 + portions.length + 1 by omega,
    call_function hc.closure hc.variadic (by omega) hcrossings hdeclare, hbody]
  cases hcontents : (portions.map (Portion.resolve text)).mapM (Piece.content includes) with
  | error e =>
    rw [hcontents] at hblock
    obtain ⟨m', hblock⟩ := hblock
    exact ⟨m', congrArg Step.results hblock⟩
  | ok contents =>
    rw [hcontents] at hblock
    obtain ⟨m', hblock⟩ := hblock
    exact ⟨m', congrArg Step.results hblock⟩

end Render

end Stencil.Lua
