import Stencil.Proofs.Lua.Confinement.Basic
set_option autoImplicit false

/-!
# The libraries are confined

No function of the libraries makes a function that asks the host. They pass on what they are
given and what they find in tables; all else that they give is numbers, texts and functions of
their own.

## Main definitions

* `Stencil.Lua.Gives` — what a check gives, if it gives something.
* `Stencil.Lua.ConfinedCaller` — calls of confined functions.

## Main results

* `Stencil.Lua.Builtin.run_confined` — a call of a library function.
-/

namespace Stencil.Lua

/-! ## Checks -/

/-- **What a check gives,** if it gives something. -/
def Gives {ε α : Type} (P : α → Prop) (e : Except ε α) : Prop := ∀ a, e = .ok a → P a

namespace Gives

variable {ε α β : Type} {P : α → Prop} {Q : β → Prop}

theorem ok {a : α} (h : P a) : Gives P (.ok a : Except ε α) := by
  rintro _ ⟨⟩
  exact h

theorem pure {a : α} (h : P a) : Gives P (Pure.pure a : Except ε α) := ok h

theorem error {e : ε} : Gives P (.error e : Except ε α) := by
  rintro _ ⟨⟩

/-- What a check gives behind another. -/
theorem bind {e : Except ε α} {f : α → Except ε β} (he : Gives P e)
    (hf : ∀ a, P a → Gives Q (f a)) : Gives Q (e >>= f) := by
  cases e with
  | error o => exact error
  | ok a => exact hf a (he a rfl)

/-- What a check gives, whatever came before it. -/
theorem andThen {e : Except ε α} {f : α → Except ε β} (hf : ∀ a, Gives Q (f a)) :
    Gives Q (e >>= f) := by
  cases e with
  | error o => exact error
  | ok a => exact hf a

/-- What is made of the value of a check. -/
theorem map {e : Except ε α} {f : α → β} (hf : ∀ a, Q (f a)) : Gives Q (e.map f) := by
  cases e with
  | error o => exact error
  | ok a => exact ok (hf a)

/-- Checks of the items of a list. -/
theorem mapM {f : α → Except ε β} {as : List α} (hf : ∀ a ∈ as, Gives Q (f a)) :
    Gives (fun bs => ∀ b ∈ bs, Q b) (as.mapM f) := by
  induction as with
  | nil => exact pure (by simp)
  | cons a as ih =>
    rw [List.forall_mem_cons] at hf
    rw [List.mapM_cons]
    refine bind hf.1 fun b hb => bind (ih hf.2) fun bs hbs => pure ?_
    exact List.forall_mem_cons.mpr ⟨hb, hbs⟩

end Gives

/-! ### Arguments -/

section Arguments

variable {R : Region} {args : Arguments}

/-- An argument that must be there. -/
theorem gives_any (h : Arguments.Within R args) (n : Nat) :
    Gives (Value.Within R) (args.any n) := by
  unfold Arguments.any
  split
  · rename_i v hv
    exact .ok (h v (List.mem_of_getElem? hv))
  · exact .error

/-- A table. -/
theorem gives_table (h : Arguments.Within R args) (n : Nat) : Gives R.tables (args.table n) := by
  have hvalue := h.value n
  unfold Arguments.table
  split
  · rename_i t ht
    rw [ht] at hvalue
    exact .ok hvalue
  · exact .error

/-- A function. -/
theorem gives_function (h : Arguments.Within R args) (n : Nat) :
    Gives (Value.Within R) (args.function n) := by
  unfold Arguments.function
  split
  · exact .ok (h.value n)
  · exact .error

/-! ### Numbers and texts -/

/-- A number, in a base if one is given. -/
theorem gives_toNumber : Gives (Value.Within R) (toNumber args) := by
  unfold toNumber
  split
  · split
    · exact .ok trivial
    · exact .ok (by simp)
    · exact .andThen fun _ => .pure trivial
  · refine .andThen fun base => ?_
    split
    · split
      · exact .pure (by simp)
      · exact .error
    · exact .error

/-- The arguments from a number on. -/
theorem gives_selected (h : Arguments.Within R args) :
    Gives (Arguments.Within R) (selection.selected args) := by
  unfold selection.selected
  refine .andThen fun n => ?_
  split
  · exact .pure (h.drop _)
  · split
    · exact .error
    · exact .pure (h.drop _)

/-- The arguments from a number on, or how many there are. -/
theorem gives_selection (h : Arguments.Within R args) :
    Gives (Arguments.Within R) (selection args) := by
  unfold selection
  split
  · split
    · exact .ok (by simp)
    · exact gives_selected h
  · exact gives_selected h

/-- The numbers of some bytes. -/
theorem gives_byteNumbers : Gives (Arguments.Within R) (byteNumbers args) := by
  unfold byteNumbers
  refine .andThen fun b => .andThen fun i => .andThen fun last => .pure ?_
  simp [Arguments.Within]

/-- The value of a capture. -/
theorem gives_captureValue (c : Pattern.Capture) : Gives (Value.Within R) (captureValue c) := by
  cases c with
  | text b => exact .ok trivial
  | place n => exact .ok trivial
  | unfinished => exact .error

/-- The values of captures. -/
theorem gives_captures (cs : List Pattern.Capture) :
    Gives (Arguments.Within R) (cs.mapM captureValue) :=
  .mapM fun c _ => gives_captureValue c

/-- The values of a match. -/
theorem gives_matchValues (subject : Bytes) (m : Pattern.Match) :
    Gives (Arguments.Within R) (matchValues subject m) := by
  unfold matchValues
  split
  · exact .ok (by simp)
  · exact gives_captures _

/-- A search for a pattern, or for plain bytes. -/
theorem gives_searchFor (wantsPlaces : Bool) :
    Gives (Arguments.Within R) (searchFor args wantsPlaces) := by
  unfold searchFor
  refine .andThen fun b => .andThen fun wanted => .andThen fun place => ?_
  dsimp only
  split
  · exact .pure (by simp)
  · split
    · split
      · exact .pure (by simp)
      · exact .pure (by simp)
    · refine .andThen fun p => ?_
      split
      · exact .pure (by simp)
      · split
        · exact (gives_captures _).bind fun vs hvs => .pure (by simpa using hvs)
        · exact gives_matchValues _ _

/-- The number of code points of a part of a string. -/
theorem gives_pointCount : Gives (Arguments.Within R) (pointCount args) := by
  unfold pointCount
  refine .andThen fun b => .andThen fun i => .andThen fun j => ?_
  dsimp only
  split
  · exact .error
  · split
    · exact .error
    · split
      · exact .pure (by simp)
      · exact .pure (by simp)

/-- The code points that begin before a place. -/
theorem gives_pointsBetween (lax : Bool) (b : Bytes) (stop fuel start : Nat) :
    Gives (Arguments.Within R) (pointsBetween lax b stop fuel start) := by
  induction fuel generalizing start with
  | zero => exact .ok .nil
  | succ fuel ih =>
    unfold pointsBetween
    split
    · exact .ok .nil
    · split
      · rename_i point n _
        intro vs hvs
        cases hrest : pointsBetween lax b stop fuel (start + n) with
        | error o =>
          rw [hrest] at hvs
          cases hvs
        | ok ws =>
          rw [hrest] at hvs
          cases hvs
          exact Arguments.Within.cons.mpr ⟨trivial, ih _ ws hrest⟩
      · exact .error

/-- The code points of a part of a string. -/
theorem gives_pointNumbers : Gives (Arguments.Within R) (pointNumbers args) := by
  unfold pointNumbers
  refine .andThen fun b => .andThen fun i => .andThen fun j => ?_
  dsimp only
  split
  · exact .error
  · split
    · exact .error
    · exact gives_pointsBetween _ _ _ _ _

/-- The place of a character. -/
theorem gives_characterPlace : Gives (Arguments.Within R) (characterPlace args) := by
  unfold characterPlace
  refine .andThen fun b => .andThen fun n => .andThen fun i => ?_
  dsimp only
  split
  · exact .error
  · -- Whichever way the place is looked for, it is a number or nothing.
    repeat' split
    all_goals
      refine .andThen fun found => .pure ?_
      cases found <;> simp

/-- The code point behind another. -/
theorem gives_nextPoint : Gives (Arguments.Within R) (nextPoint args) := by
  unfold nextPoint
  refine .andThen fun b => .andThen fun i => ?_
  dsimp only
  generalize (if i < 1 then 0 else characterEnd b (i.toNat - 1)) = start
  split
  · exact .pure (by simp)
  · split
    · split
      · exact .error
      · exact .pure (by simp)
    · exact .error

/-- The functions on texts in UTF-8. -/
theorem Utf8Function.gives_apply (f : Utf8Function) :
    Gives (Arguments.Within R) (f.apply args) := by
  cases f with
  | char => exact .andThen fun bs => .pure (by simp)
  | codepoint => exact gives_pointNumbers
  | codes => exact .andThen fun b => .pure (by simp)
  | codesStep => exact gives_nextPoint
  | len => exact gives_pointCount
  | offset => exact gives_characterPlace

/-- The functions on numbers. -/
theorem MathFunction.gives_apply (f : MathFunction) :
    Gives (Arguments.Within R) (f.apply args) := by
  cases f with
  | abs =>
    refine .map fun n => ?_
    cases n <;> simp
  | modf =>
    refine .map fun n => ?_
    cases n <;> simp [wholeAndFraction]
  | type =>
    refine .map fun v => ?_
    split <;> simp
  | atan =>
    refine .andThen fun y => ?_
    dsimp only
    split <;> exact .andThen fun x => .pure (by simp)
  | pow => exact .andThen fun x => .andThen fun y => .pure (by simp)
  | tointeger => exact .andThen fun v => .pure (Arguments.Within.cons.mpr ⟨.ofInt? _, .nil⟩)
  | ult => exact .andThen fun a => .andThen fun b => .pure (by simp)
  | _ => exact .map fun _ => by simp

/-! ### Tables -/

variable {t : Table}

/-- The values of a table from one key to another. -/
theorem Table.Within.sequence (h : t.Within R) (first : Int) (count : Nat) :
    Arguments.Within R (t.sequence first count) := by
  intro v hv
  obtain ⟨i, -, rfl⟩ := List.mem_map.mp hv
  exact h.get _

/-- A table with values in order from a key on. -/
theorem Table.Within.setSequence (h : t.Within R) (first : Int) {vs : List Value}
    (hvs : Arguments.Within R vs) : (t.setSequence first vs).Within R := by
  induction vs generalizing t first with
  | nil => exact h
  | cons v vs ih =>
    rw [Arguments.Within.cons] at hvs
    unfold Table.setSequence
    exact ih (h.set (.int _) hvs.1) _ hvs.2

/-- A table with the arguments in order. -/
theorem Table.Within.packed (h : Arguments.Within R args) : (packed args).Within R where
  items v hv := h v (List.mem_toArray.mp hv)
  entries := by simp [Lua.packed]

/-- The values of a table in a row. -/
theorem gives_unpacked (h : t.Within R) : Gives (Arguments.Within R) (unpacked t args) := by
  unfold unpacked
  refine .andThen fun first => .andThen fun last => ?_
  dsimp only
  split
  · exact .error
  · exact .pure (h.sequence _ _)

/-- The table with a value put in. -/
theorem gives_inserted (h : t.Within R) (hargs : Arguments.Within R args) :
    Gives (Table.Within R) (inserted t args) := by
  unfold inserted
  dsimp only
  split
  · rw [Arguments.Within.cons, Arguments.Within.cons] at hargs
    exact .ok (h.set (.int _) hargs.2.1)
  · rw [Arguments.Within.cons, Arguments.Within.cons, Arguments.Within.cons] at hargs
    refine .andThen fun place => ?_
    split
    · exact .error
    · exact .pure (h.setSequence _ (Arguments.Within.cons.mpr ⟨hargs.2.2.1, h.sequence _ _⟩))
  · exact .error

/-- A value of a table, and the table without it. -/
theorem gives_removed (h : t.Within R) :
    Gives (fun r => r.1.Within R ∧ r.2.Within R) (removed t args) := by
  unfold removed
  refine .andThen fun place => ?_
  dsimp only
  split
  · exact .error
  · exact .pure ⟨h.get _, (h.setSequence _ (h.sequence _ _)).set trivial trivial⟩

end Arguments

/-! ## Functions that call functions -/

/-- **Calls of functions of a region** depend on it only. -/
def ConfinedCaller (R : Region) (call : Caller) : Prop :=
  ∀ trace v args, v.Within R → Arguments.Within R args →
    Run.Confined R (Arguments.Within R) (call trace v args)

section Callers

open Run (Confined)

variable {R : Region} {call : Caller} {trace : Trace} {v : Value} {args : Arguments}

/-- A call whose error becomes a value. -/
theorem callProtected_confined (hcall : ConfinedCaller R call) (hv : v.Within R)
    (hargs : Arguments.Within R args) :
    Confined R (Arguments.Within R) (callProtected call trace v args) := by
  refine (hcall trace.cross v args hv hargs).protect.bind fun r hr => ?_
  cases r with
  | ok results => exact .pure (Arguments.Within.cons.mpr ⟨trivial, hr.1 results rfl⟩)
  | error e => exact .pure (by simpa using hr.2 e rfl)

/-- A call whose error is given to a handler. -/
theorem callHandled_confined {handler : Value} (hcall : ConfinedCaller R call) (hv : v.Within R)
    (hhandler : handler.Within R) (hargs : Arguments.Within R args) :
    Confined R (Arguments.Within R) (callHandled call trace v handler args) := by
  refine (hcall trace.cross v args hv hargs).protect.bind fun r hr => ?_
  cases r with
  | ok results => exact .pure (Arguments.Within.cons.mpr ⟨trivial, hr.1 results rfl⟩)
  | error e =>
    have he : Arguments.Within R [e] := by simpa using hr.2 e rfl
    refine (hcall trace.cross handler [e] hhandler he).bind fun vs hvs => .pure ?_
    exact Arguments.Within.cons.mpr ⟨trivial, hvs⟩

/-- An error value with the place of a call. -/
theorem Value.Within.located (h : v.Within R) (level : Int) :
    (Lua.located trace level v).Within R := by
  unfold Lua.located
  split
  · split <;> trivial
  · exact h

/-- **The functions of the base library.** -/
theorem BaseFunction.run_confined (f : BaseFunction) (hcall : ConfinedCaller R call)
    (hargs : Arguments.Within R args) :
    Confined R (Arguments.Within R) (f.run call trace args) := by
  unfold BaseFunction.run
  cases f with
  | assert =>
    refine (Confined.check (gives_any hargs 1)).bind fun v hv => ?_
    split
    · exact .pure hargs
    · split
      · exact .fail
      · exact .raise ((hargs.value 2).located _)
  | error =>
    refine Confined.checked.bind fun level _ => ?_
    exact .raise ((hargs.value 1).located _)
  | ipairs =>
    refine (Confined.check (gives_any hargs 1)).bind fun v hv => .pure ?_
    simp [hv]
  | ipairsStep =>
    refine Confined.checked.bind fun n _ => ?_
    refine (Confined.index? (hargs.value 1) _).bind fun r hr => ?_
    split
    · exact .raise trivial
    · exact .pure (by simp)
    · exact .pure (by simpa using hr _ rfl)
  | next =>
    refine (Confined.check (gives_table hargs 1)).bind fun n hn => ?_
    refine (Confined.table hn).bind fun t ht => ?_
    split
    · exact .raise trivial
    · exact .pure (by simp)
    · rename_i k v hpair
      exact .pure (by simpa using ht.after hpair)
  | pairs =>
    refine (Confined.check (gives_any hargs 1)).bind fun v hv => .pure ?_
    simp [hv]
  | pcall =>
    refine (Confined.check (gives_any hargs 1)).bind fun v hv => ?_
    exact callProtected_confined hcall hv hargs.tail
  | rawequal =>
    refine (Confined.check (gives_any hargs 1)).bind fun v _ => ?_
    exact (Confined.check (gives_any hargs 2)).bind fun w _ => .pure (by simp)
  | rawget =>
    refine (Confined.check (gives_table hargs 1)).bind fun n hn => ?_
    refine (Confined.table hn).bind fun t ht => ?_
    refine (Confined.check (gives_any hargs 2)).bind fun key _ => .pure ?_
    simpa using ht.get key
  | rawlen =>
    have hfirst := hargs.value 1
    dsimp only
    split
    · rename_i n hn
      rw [hn] at hfirst
      exact (Confined.table hfirst).bind fun t _ => .pure (by simp)
    · exact .pure (by simp)
    · exact .fail
  | rawset =>
    refine (Confined.check (gives_table hargs 1)).bind fun n hn => ?_
    refine (Confined.check (gives_any hargs 2)).bind fun key hkey => ?_
    refine (Confined.check (gives_any hargs 3)).bind fun v hv => ?_
    exact (Confined.setField hn hkey hv).bind fun _ _ => .pure (by simpa using hn)
  | select => exact .check (gives_selection hargs)
  | tonumber => exact (Confined.check gives_toNumber).bind fun v hv => .pure (by simpa using hv)
  | tostring => exact (Confined.check (gives_any hargs 1)).bind fun v _ => .pure (by simp)
  | type => exact (Confined.check (gives_any hargs 1)).bind fun v _ => .pure (by simp)
  | xpcall =>
    refine (Confined.check (gives_function hargs 2)).bind fun handler hhandler => ?_
    exact callHandled_confined hcall (hargs.value 1) hhandler (hargs.drop 2)

/-! ### Replacements -/

/-- The value that a replacement gives for a match. -/
theorem replacementValue_confined (hcall : ConfinedCaller R call) (hv : v.Within R)
    (subject : Bytes) (m : Pattern.Match) :
    Confined R (fun _ => True) (replacementValue call trace v subject m) := by
  unfold replacementValue
  split
  · exact Confined.checked.bind fun vs _ => (Confined.table hv).bind fun t _ => .pure trivial
  · exact Confined.checked.bind fun b _ => .pure trivial
  · exact .pure trivial
  · refine (Confined.check (gives_matchValues (R := R) subject m)).bind fun vs hvs => ?_
    exact (hcall trace.cross v vs hv hvs).bind fun ws _ => .pure trivial

/-- What a match is replaced by. -/
theorem replacement_confined (hcall : ConfinedCaller R call) (hv : v.Within R)
    (subject : Bytes) (m : Pattern.Match) :
    Confined R (fun _ => True) (replacement call trace v subject m) := by
  refine (replacementValue_confined hcall hv subject m).bind fun w _ => ?_
  split
  · split
    · exact .pure trivial
    · exact .fail
  · exact .pure trivial

/-- **The matches of a pattern replaced.** -/
theorem substitute_confined (hcall : ConfinedCaller R call) (hv : v.Within R) (p : Pattern)
    (subject : Bytes) (fuel start limit : Nat) (last : Option Nat) :
    Confined R (fun _ => True) (substitute call trace p v subject fuel start limit last) := by
  induction fuel generalizing start limit last with
  | zero =>
    unfold substitute
    exact .pure trivial
  | succ fuel ih =>
    have hpassed : Confined R (fun _ => True)
        (substitute.passed call trace p v subject fuel start limit last) := by
      unfold substitute.passed
      split
      · exact .pure trivial
      · split
        · exact .pure trivial
        · exact (ih _ _ _).bind fun r _ => .pure trivial
    unfold substitute
    split
    · exact .pure trivial
    · split
      · split
        · exact hpassed
        · refine (replacement_confined hcall hv subject _).bind fun b _ => ?_
          split
          · exact .pure trivial
          · exact (ih _ _ _).bind fun r _ => .pure trivial
      · exact hpassed

/-- **The functions on strings.** -/
theorem StringFunction.run_confined (f : StringFunction) (hcall : ConfinedCaller R call)
    (hargs : Arguments.Within R args) :
    Confined R (Arguments.Within R) (f.run call trace args) := by
  unfold StringFunction.run
  cases f with
  | byte => exact .check gives_byteNumbers
  | find => exact .check (gives_searchFor _)
  | «match» => exact .check (gives_searchFor _)
  | gmatch =>
    refine Confined.checked.bind fun b _ => Confined.checked.bind fun p _ => ?_
    refine Confined.checked.bind fun start _ => ?_
    exact (Confined.newSearch _).bind fun w hw => .pure (by simpa using hw)
  | gsub =>
    refine Confined.checked.bind fun b _ => Confined.checked.bind fun p _ => ?_
    refine Confined.checked.bind fun limit _ => ?_
    split
    · exact .check Gives.error
    · exact .check Gives.error
    · exact .check Gives.error
    · refine (substitute_confined hcall (hargs.value 3) p b _ _ _ _).bind fun r _ => .pure ?_
      simp
  | _ => exact Confined.checked.bind fun b _ => .pure (by simp)

/-- The next match of a search. -/
theorem runSearch_confined (n : Nat) : Confined R (Arguments.Within R) (runSearch trace n) := by
  refine Confined.get (fun m _ => ?_) fun m xs _ => rfl
  split
  · exact .pure (by simp)
  · refine Confined.checked.bind fun r _ => ?_
    split
    · exact .pure (by simp)
    · exact (Confined.setSearch _ _).bind fun _ _ => .check (gives_matchValues _ _)

/-! ### Order -/

/-- Whether a value goes before another. -/
theorem goesBefore_confined {order a b : Value} (hcall : ConfinedCaller R call)
    (horder : order.Within R) (ha : a.Within R) (hb : b.Within R) :
    Confined R (fun _ => True) (goesBefore call trace order a b) := by
  unfold goesBefore
  split
  · split
    · exact .pure trivial
    · exact .raise trivial
  · have hab : Arguments.Within R [a, b] := by simp [ha, hb]
    exact (hcall trace.cross order [a, b] horder hab).bind fun vs _ => .pure trivial

section Sorting

variable {before : Value → Value → Run Bool}

/-- Two lists made one. -/
theorem mergeValues_confined
    (hbefore : ∀ a b, a.Within R → b.Within R → Confined R (fun _ => True) (before a b))
    (fuel : Nat) {as bs : List Value} (has : Arguments.Within R as)
    (hbs : Arguments.Within R bs) :
    Confined R (Arguments.Within R) (mergeValues before fuel as bs) := by
  induction fuel generalizing as bs with
  | zero => exact .pure (has.append hbs)
  | succ fuel ih =>
    cases as with
    | nil => exact .pure hbs
    | cons a as =>
      cases bs with
      | nil => exact .pure has
      | cons b bs =>
        have ha := Arguments.Within.cons.mp has
        have hb := Arguments.Within.cons.mp hbs
        rw [mergeValues]
        refine (hbefore b a hb.1 ha.1).bind fun r _ => ?_
        split
        · refine (ih has hb.2).bind fun vs hvs => .pure ?_
          exact Arguments.Within.cons.mpr ⟨hb.1, hvs⟩
        · refine (ih ha.2 hbs).bind fun vs hvs => .pure ?_
          exact Arguments.Within.cons.mpr ⟨ha.1, hvs⟩

/-- **Values in ascending order.** -/
theorem sortValues_confined
    (hbefore : ∀ a b, a.Within R → b.Within R → Confined R (fun _ => True) (before a b))
    (fuel : Nat) {vs : List Value} (hvs : Arguments.Within R vs) :
    Confined R (Arguments.Within R) (sortValues before fuel vs) := by
  induction fuel generalizing vs with
  | zero => exact .pure hvs
  | succ fuel ih =>
    unfold sortValues
    split
    · exact .pure hvs
    · refine (ih (hvs.take _)).bind fun as has => (ih (hvs.drop _)).bind fun bs hbs => ?_
      exact mergeValues_confined hbefore _ has hbs

end Sorting

/-- **The functions on tables.** -/
theorem TableFunction.run_confined (f : TableFunction) (hcall : ConfinedCaller R call)
    (hargs : Arguments.Within R args) :
    Confined R (Arguments.Within R) (f.run call trace args) := by
  unfold TableFunction.run
  cases f with
  | concat =>
    refine (Confined.check (gives_table hargs 1)).bind fun n hn => ?_
    refine (Confined.table hn).bind fun t _ => ?_
    exact Confined.checked.bind fun b _ => .pure (by simp)
  | insert =>
    refine (Confined.check (gives_table hargs 1)).bind fun n hn => ?_
    refine (Confined.table hn).bind fun t ht => ?_
    refine (Confined.check (gives_inserted ht hargs)).bind fun u hu => ?_
    exact (Confined.setTable hn hu).bind fun _ _ => .pure .nil
  | move =>
    refine (Confined.check (gives_table hargs 1)).bind fun source hsource => ?_
    refine (Confined.table hsource).bind fun t ht => ?_
    refine Confined.checked.bind fun first _ => Confined.checked.bind fun last _ => ?_
    refine Confined.checked.bind fun place _ => ?_
    refine (Confined.check (gives_table hargs _)).bind fun n hn => ?_
    refine (Confined.table hn).bind fun u hu => ?_
    refine (Confined.setTable hn (hu.setSequence _ (ht.sequence _ _))).bind fun _ _ => ?_
    exact .pure (by simpa using hn)
  | pack =>
    exact (Confined.newTable (.packed hargs)).bind fun v hv => .pure (by simpa using hv)
  | remove =>
    refine (Confined.check (gives_table hargs 1)).bind fun n hn => ?_
    refine (Confined.table hn).bind fun t ht => ?_
    refine (Confined.check (gives_removed ht)).bind fun r hr => ?_
    exact (Confined.setTable hn hr.2).bind fun _ _ => .pure (by simpa using hr.1)
  | sort =>
    refine (Confined.check (gives_table hargs 1)).bind fun n hn => ?_
    refine (Confined.table hn).bind fun t ht => ?_
    have hsort (order : Value) (horder : order.Within R) (size : Nat) :
        Confined R (Arguments.Within R) (do
          let sorted ← sortValues (goesBefore call trace order) size (t.sequence 1 size)
          Run.setTable n ((← Run.table n).setSequence 1 sorted)
          return []) := by
      have hbefore (a b : Value) (ha : a.Within R) (hb : b.Within R) :
          Confined R (fun _ => True) (goesBefore call trace order a b) :=
        goesBefore_confined hcall horder ha hb
      refine (sortValues_confined hbefore size (ht.sequence _ _)).bind fun vs hvs => ?_
      refine (Confined.table hn).bind fun u hu => ?_
      exact (Confined.setTable hn (hu.setSequence _ hvs)).bind fun _ _ => .pure .nil
    dsimp only
    split
    · exact hsort .nil trivial _
    · exact (Confined.check (gives_function hargs 2)).bind fun order horder =>
        hsort order horder _
  | unpack =>
    refine (Confined.check (gives_table hargs 1)).bind fun n hn => ?_
    refine (Confined.table hn).bind fun t ht => ?_
    exact .check (gives_unpacked ht)

/-! ## All functions -/

/-- **A call of a library function.** -/
theorem Builtin.run_confined (f : Builtin) (hcall : ConfinedCaller R call)
    (hargs : Arguments.Within R args) :
    Confined R (Arguments.Within R) (f.run call trace args) := by
  cases f with
  | base f => exact f.run_confined hcall hargs
  | string f => exact f.run_confined hcall hargs
  | table f => exact f.run_confined hcall hargs
  | math f => exact .check f.gives_apply
  | utf8 f => exact .check f.gives_apply
  | absent name => exact .fail

end Callers

end Stencil.Lua
