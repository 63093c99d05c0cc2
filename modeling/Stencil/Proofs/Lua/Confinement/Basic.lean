import Stencil.Proofs.Lua.Execution
set_option autoImplicit false

/-!
# Confinement

A function that asks the host for content is a value like any other: a program can keep it, and
it goes on asking whom it was made to ask. What a program does depends on those of these functions
that it can come by, and on no others. A region is a part of a machine out of which nothing leads:
what is in it names only things in it. A program that starts in a region stays there; it does the
same whoever the functions outside ask.

## Main definitions

* `Stencil.Lua.Region` — a part of a machine.
* `Stencil.Lua.Value.Within`, `Table.Within`, `Machine.Within` — what names only things of a
  region.
* `Stencil.Lua.Machine.asking` — the machine in which the functions ask others.
* `Stencil.Lua.Machine.Spares` — machines with the same tables outside a region.
* `Stencil.Lua.Run.Confined` — actions that depend on a region only.

## Main results

* `Stencil.Lua.Table.Within.get`, `Table.Within.set` — what is taken from a table and put into it.
* `Stencil.Lua.Run.Confined.bind`, `Run.Confined.get`, `Run.Confined.protect` — actions put
  together.
-/

namespace Stencil.Lua

/-! ## Arrays -/

section Arrays

variable {α : Type} {P : α → Prop} {N : Nat → Prop} {xs : Array α} {a d : α}

/-- What holds of all items and of the default holds of the item at a place. -/
theorem getD_of_forall_mem (h : ∀ x ∈ xs, P x) (hd : P d) (i : Nat) : P (xs.getD i d) := by
  rw [Array.getD_eq_getD_getElem?]
  cases hx : xs[i]? with
  | none => exact hd
  | some x => exact h x (Array.mem_of_getElem? hx)

/-- What holds at some places and of a new item holds at these places behind it. -/
theorem getD_push (h : ∀ n, N n → P (xs.getD n d)) (ha : P a) :
    ∀ n, N n → P ((xs.push a).getD n d) := by
  intro n hn
  have hold := h n hn
  rw [Array.getD_eq_getD_getElem?] at hold ⊢
  rw [Array.getElem?_push]
  split
  · exact ha
  · exact hold

/-- What holds at some places and of another item holds there if that one takes a place. -/
theorem getD_setIfInBounds (h : ∀ n, N n → P (xs.getD n d)) (ha : P a) (i : Nat) :
    ∀ n, N n → P ((xs.setIfInBounds i a).getD n d) := by
  intro n hn
  have hold := h n hn
  rw [Array.getD_eq_getD_getElem?] at hold ⊢
  rw [Array.getElem?_setIfInBounds]
  split
  · split
    · exact ha
    · rename_i hi hsize
      rwa [Array.getElem?_eq_none (by omega)] at hold
  · exact hold

/-- What holds at some places, and of what is made of an item, holds there if one is changed. -/
theorem getD_modify (h : ∀ n, N n → P (xs.getD n d)) {f : α → α} (hf : ∀ x, P x → P (f x))
    (i : Nat) : ∀ n, N n → P ((xs.modify i f).getD n d) := by
  intro n hn
  have hold := h n hn
  rw [Array.getD_eq_getD_getElem?] at hold ⊢
  rw [Array.getElem?_modify]
  split
  · cases hx : xs[n]? with
    | none =>
      rw [hx] at hold
      exact hold
    | some x =>
      rw [hx] at hold
      exact hf x hold
  · exact hold

/-- A change of one item leaves another as it is. -/
theorem getD_modify_of_ne {i n : Nat} (h : i ≠ n) (f : α → α) :
    (xs.modify i f).getD n d = xs.getD n d := by
  rw [Array.getD_eq_getD_getElem?, Array.getD_eq_getD_getElem?, Array.getElem?_modify, if_neg h]

/-- A change of an item changes that item. -/
theorem getD_modify_self {i : Nat} (h : i < xs.size) (f : α → α) :
    (xs.modify i f).getD i d = f (xs.getD i d) := by
  rw [Array.getD_eq_getD_getElem?, Array.getD_eq_getD_getElem?, Array.getElem?_modify, if_pos rfl,
    Array.getElem?_eq_getElem h]
  rfl

end Arrays

/-! ## Regions -/

/-- **A part of a machine:** some of its tables, of its variables, of the functions of programs,
and of those that ask the host. -/
structure Region where
  tables : Nat → Prop
  cells : Nat → Prop
  closures : Nat → Prop
  inclusions : Nat → Prop

variable {R : Region}

/-! ## Values -/

/-- **A value that names nothing outside a region.** -/
def Value.Within (R : Region) : Value → Prop
  | .table n => R.tables n
  | .closure n => R.closures n
  | .inclusion n => R.inclusions n
  | _ => True

namespace Value.Within

@[simp] theorem nil : Value.nil.Within R := trivial

@[simp] theorem bool (b : Bool) : (Value.bool b).Within R := trivial

@[simp] theorem number (n : Number) : (Value.number n).Within R := trivial

@[simp] theorem int (n : Int64) : (Value.int n).Within R := trivial

@[simp] theorem float (x : Float) : (Value.float x).Within R := trivial

@[simp] theorem nat (n : Nat) : (Value.nat n).Within R := trivial

@[simp] theorem string (b : Bytes) : (Value.string b).Within R := trivial

@[simp] theorem text (s : String) : (Value.text s).Within R := trivial

@[simp] theorem table {n : Nat} : (Value.table n).Within R ↔ R.tables n := Iff.rfl

@[simp] theorem closure {n : Nat} : (Value.closure n).Within R ↔ R.closures n := Iff.rfl

@[simp] theorem builtin (f : Builtin) : (Value.builtin f).Within R := trivial

@[simp] theorem matcher (n : Nat) : (Value.matcher n).Within R := trivial

@[simp] theorem failure (f : Failure) : (Value.failure f).Within R := trivial

@[simp] theorem inclusion {n : Nat} : (Value.inclusion n).Within R ↔ R.inclusions n := Iff.rfl

/-- A number or nothing. -/
@[simp] theorem ofNumber? (n : Option Number) : ((n.map Value.number).getD .nil).Within R := by
  cases n <;> trivial

/-- An integer or nothing. -/
@[simp] theorem ofInt? (n : Option Int64) : ((n.map Value.int).getD .nil).Within R := by
  cases n <;> trivial

end Value.Within

/-- Values in a row of which each is within a region. -/
def Arguments.Within (R : Region) (vs : Arguments) : Prop := ∀ v ∈ vs, v.Within R

namespace Arguments.Within

variable {v : Value} {vs ws : Arguments}

@[simp] theorem nil : Arguments.Within R [] := by simp [Arguments.Within]

@[simp] theorem cons : Arguments.Within R (v :: vs) ↔ v.Within R ∧ Arguments.Within R vs :=
  List.forall_mem_cons

theorem append (hvs : Arguments.Within R vs) (hws : Arguments.Within R ws) :
    Arguments.Within R (vs ++ ws) := by
  intro v hv
  rcases List.mem_append.mp hv with hv | hv
  · exact hvs v hv
  · exact hws v hv

/-- The values from a number on. -/
theorem drop (h : Arguments.Within R vs) (n : Nat) : Arguments.Within R (vs.drop n) :=
  fun v hv => h v (List.mem_of_mem_drop hv)

/-- The values up to a number. -/
theorem take (h : Arguments.Within R vs) (n : Nat) : Arguments.Within R (vs.take n) :=
  fun v hv => h v (List.mem_of_mem_take hv)

/-- The values behind the first. -/
theorem tail (h : Arguments.Within R vs) : Arguments.Within R vs.tail :=
  fun v hv => h v (List.mem_of_mem_tail hv)

/-- The value of a number, or `nil`. -/
theorem getD (h : Arguments.Within R vs) (n : Nat) : (vs.getD n .nil).Within R := by
  rw [List.getD_eq_getElem?_getD]
  cases hv : vs[n]? with
  | none => trivial
  | some v => exact h v (List.mem_of_getElem? hv)

/-- The first value, or `nil`. -/
theorem headD (h : Arguments.Within R vs) : (vs.headD .nil).Within R := by
  cases vs with
  | nil => trivial
  | cons v vs => exact h v (List.mem_cons_self ..)

/-- The argument of a number. -/
theorem value (h : Arguments.Within R vs) (n : Nat) : (vs.value n).Within R := h.getD _

end Arguments.Within

/-! ## Tables -/

/-- **A table** whose keys and values are within a region. -/
structure Table.Within (R : Region) (t : Table) : Prop where
  items : ∀ v ∈ t.items, v.Within R
  entries : ∀ e ∈ t.entries, e.1.Within R ∧ e.2.Within R

namespace Table.Within

variable {t : Table} {key value : Value} {entries : List (Value × Value)}

/-- A table with nothing in it. -/
theorem empty : ({} : Table).Within R := ⟨by simp, by simp⟩

/-- The value under a key of a list of entries. -/
theorem lookup (h : ∀ e ∈ entries, e.1.Within R ∧ e.2.Within R) (key : Value) :
    (Table.lookup key entries).Within R := by
  induction entries with
  | nil => trivial
  | cons e entries ih =>
    rw [List.forall_mem_cons] at h
    unfold Table.lookup
    split
    · exact h.1.2
    · exact ih h.2

/-- Entries with one replaced. -/
theorem replace (h : ∀ e ∈ entries, e.1.Within R ∧ e.2.Within R) (hkey : key.Within R)
    (hvalue : value.Within R) :
    ∀ e ∈ Table.replace key value entries, e.1.Within R ∧ e.2.Within R := by
  induction entries with
  | nil =>
    unfold Table.replace
    split <;> simp [hkey, hvalue]
  | cons e entries ih =>
    rw [List.forall_mem_cons] at h
    unfold Table.replace
    split
    · exact List.forall_mem_cons.mpr ⟨⟨h.1.1, hvalue⟩, h.2⟩
    · exact List.forall_mem_cons.mpr ⟨h.1, ih h.2⟩

/-- Entries without one. -/
theorem without (h : ∀ e ∈ entries, e.1.Within R ∧ e.2.Within R) (key : Value) :
    ∀ e ∈ Table.without key entries, e.1.Within R ∧ e.2.Within R :=
  fun e he => h e (List.mem_filter.mp he).1

/-- **The value under a key.** -/
theorem get (h : t.Within R) (key : Value) : (t.get key).Within R := by
  unfold Table.get
  split
  · exact getD_of_forall_mem h.items .nil _
  · exact lookup h.entries key

/-- Items with one more behind them. -/
theorem push (h : t.Within R) (hvalue : value.Within R)
    (hentries : ∀ e ∈ entries, e.1.Within R ∧ e.2.Within R) :
    Table.Within R ⟨t.items.push value, entries⟩ :=
  ⟨Array.forall_mem_push.mpr ⟨hvalue, h.items⟩, hentries⟩

/-- Items that the entries continue. -/
theorem absorb (h : t.Within R) (fuel : Nat) : (t.absorb fuel).Within R := by
  induction fuel generalizing t with
  | zero => exact h
  | succ fuel ih =>
    unfold Table.absorb
    dsimp only
    split
    · exact h
    · exact ih (h.push (lookup h.entries _) (without h.entries _))

/-- **The table with a value under a key.** -/
theorem set (h : t.Within R) (hkey : key.Within R) (hvalue : value.Within R) :
    (t.set key value).Within R := by
  unfold Table.set
  split
  · refine ⟨fun v hv => ?_, h.entries⟩
    rcases Array.mem_or_eq_of_mem_setIfInBounds hv with hv | rfl
    · exact h.items v hv
    · exact hvalue
  · split
    · split
      · exact (h.push hvalue (without h.entries _)).absorb _
      · exact ⟨h.items, replace h.entries trivial hvalue⟩
    · exact ⟨h.items, replace h.entries hkey hvalue⟩

/-- The keys and values in the order in which they are visited. -/
theorem slots (h : t.Within R) : ∀ e ∈ t.slots, e.1.Within R ∧ e.2.Within R := by
  intro e he
  rcases List.mem_append.mp he with he | he
  · obtain ⟨⟨v, i⟩, hv, rfl⟩ := List.mem_map.mp he
    refine ⟨trivial, h.items v ?_⟩
    exact Array.mem_toList_iff.mp (List.fst_mem_of_mem_zipIdx hv)
  · exact h.entries e he

/-- The pair that is visited behind a key. -/
theorem after (h : t.Within R) {key : Value} {e : Value × Value}
    (he : t.after key = some (some e)) : e.1.Within R ∧ e.2.Within R := by
  obtain ⟨slots, hslots, hfind⟩ := Option.map_eq_some_iff.mp he
  refine h.slots e ?_
  have hmem : e ∈ slots := List.mem_of_find?_eq_some hfind
  unfold Table.slotsAfter at hslots
  split at hslots
  · cases hslots
    exact hmem
  · have hsuffix : t.slots.dropWhile (fun e => !e.1.rawEq key) <:+ t.slots :=
      List.dropWhile_suffix _
    cases hrest : t.slots.dropWhile fun e => !e.1.rawEq key with
    | nil =>
      rw [hrest] at hslots
      cases hslots
    | cons s rest =>
      rw [hrest] at hslots hsuffix
      cases hslots
      exact hsuffix.subset (List.mem_cons_of_mem s hmem)

/-- The table of the fields of a constructor. -/
theorem ofFields {items : List Value} (hitems : Arguments.Within R items)
    (hentries : ∀ e ∈ entries, e.1.Within R ∧ e.2.Within R) :
    (Table.ofFields items entries).Within R := by
  have hempty : Table.Within R { items := items.toArray } :=
    ⟨by simpa [Arguments.Within] using hitems, by simp⟩
  unfold Table.ofFields
  generalize ({ items := items.toArray } : Table) = t at hempty ⊢
  induction entries generalizing t with
  | nil => exact hempty
  | cons e entries ih =>
    rw [List.forall_mem_cons] at hentries
    rw [List.foldl_cons]
    refine ih hentries.2 _ ?_
    dsimp only
    split
    · exact hempty
    · exact hempty.set hentries.1.1 hentries.1.2

end Table.Within

/-! ## Machines -/

/-- Variables that are within a region. -/
def Env.Within (R : Region) (env : Env) : Prop := ∀ x ∈ env, R.cells x.cell

/-- **A machine out of whose region nothing leads.** All that comes into the machine later is in
the region. -/
structure Machine.Within (R : Region) (m : Machine) : Prop where
  tables : ∀ n, R.tables n → (m.tables.getD n {}).Within R
  cells : ∀ n, R.cells n → (m.cells.getD n .nil).Within R
  closures : ∀ n c, R.closures n → m.closures[n]? = some c → Env.Within R c.env
  strings : R.tables m.strings
  newTables : ∀ n, m.tables.size ≤ n → R.tables n
  newCells : ∀ n, m.cells.size ≤ n → R.cells n
  newClosures : ∀ n, m.closures.size ≤ n → R.closures n

/-- Whom each function asks that asks the host. -/
abbrev Askings := Array (Option (Option Resolver))

/-- The functions of a region ask the same. -/
def Askings.Agree (R : Region) (xs ys : Askings) : Prop :=
  ∀ n, R.inclusions n → xs.getD n none = ys.getD n none

/-- **The machine in which the functions ask others.** -/
def Machine.asking (m : Machine) (xs : Askings) : Machine := { m with inclusions := xs }

@[simp] theorem Machine.asking_inclusions (m : Machine) (xs : Askings) :
    (m.asking xs).inclusions = xs := rfl

/-- **Machines with the same tables outside a region.** -/
def Machine.Spares (R : Region) (m m' : Machine) : Prop :=
  ∀ n, ¬ R.tables n → m'.tables.getD n {} = m.tables.getD n {}

/-- What is spared by one change and by the next is spared by both. -/
theorem Machine.Spares.trans {m m' m'' : Machine} (h : m.Spares R m') (h' : m'.Spares R m'') :
    m.Spares R m'' :=
  fun n hn => (h' n hn).trans (h n hn)

/-! ## Actions -/

namespace Step

variable {α : Type}

/-- The outcome of an action in the machine in which the functions ask others. -/
def asking (xs : Askings) : Step α → Step α
  | .done a m => .done a (m.asking xs)
  | .raised e m => .raised e (m.asking xs)
  | .exhausted => .exhausted

/-- An outcome whose machine is within a region, and its value as given. -/
def Within (R : Region) (P : α → Prop) : Step α → Prop
  | .done a m => P a ∧ m.Within R
  | .raised e m => e.Within R ∧ m.Within R
  | .exhausted => True

/-- An outcome whose machine has the tables of another one outside a region. -/
def Spares (R : Region) (m : Machine) : Step α → Prop
  | .done _ m' | .raised _ m' => m.Spares R m'
  | .exhausted => True

end Step

namespace Run

variable {α β : Type} {P : α → Prop} {Q : β → Prop}

/-- **An action that depends on a region only:** in a machine within the region it stays there and
gives a value as given, it leaves the tables outside as they are, and it does the same whoever the
functions outside ask. -/
structure Confined (R : Region) (P : α → Prop) (x : Run α) : Prop where
  within : ∀ m, m.Within R → (x m).Within R P
  spares : ∀ m, m.Within R → (x m).Spares R m
  asking : ∀ m xs, m.Within R → Askings.Agree R xs m.inclusions →
    x (m.asking xs) = (x m).asking xs

namespace Confined

/-- **Whom the functions ask does not change** in a confined action. -/
theorem inclusions_eq {x : Run α} (h : Confined R P x) {m m' : Machine} {a : α}
    (hm : m.Within R) (hx : x m = .done a m') : m'.inclusions = m.inclusions := by
  have hself : x m = (x m).asking m.inclusions := h.asking m m.inclusions hm fun _ _ => rfl
  rw [hx] at hself
  simp only [Step.asking, Step.done.injEq, true_and] at hself
  rw [hself, Machine.asking_inclusions]

/-- The same in an action that raises an error. -/
theorem inclusions_eq_of_raised {x : Run α} (h : Confined R P x) {m m' : Machine} {e : Value}
    (hm : m.Within R) (hx : x m = .raised e m') : m'.inclusions = m.inclusions := by
  have hself : x m = (x m).asking m.inclusions := h.asking m m.inclusions hm fun _ _ => rfl
  rw [hx] at hself
  simp only [Step.asking, Step.raised.injEq, true_and] at hself
  rw [hself, Machine.asking_inclusions]

/-- An action that reads the machine and changes all but whom the functions ask. -/
theorem action {g : Machine → α} {k : Machine → Machine}
    (hg : ∀ m, m.Within R → P (g m)) (hk : ∀ m, m.Within R → (k m).Within R)
    (hspares : ∀ m : Machine, m.Within R → m.Spares R (k m))
    (hgasking : ∀ m xs, g (m.asking xs) = g m)
    (hkasking : ∀ m xs, k (m.asking xs) = (k m).asking xs) :
    Confined R P fun m => .done (g m) (k m) where
  within m hm := ⟨hg m hm, hk m hm⟩
  spares := hspares
  asking m xs _ _ := by
    rw [hgasking, hkasking]
    rfl

/-- An action that only reads the machine. -/
theorem reading {g : Machine → α} (hg : ∀ m, m.Within R → P (g m))
    (hgasking : ∀ m xs, g (m.asking xs) = g m) : Confined R P fun m => .done (g m) m :=
  action hg (fun _ hm => hm) (fun _ _ _ _ => rfl) hgasking fun _ _ => rfl

/-- A value. -/
theorem pure {a : α} (h : P a) : Confined R P (Pure.pure a : Run α) :=
  reading (fun _ _ => h) fun _ _ => rfl

/-- An error. -/
theorem raise {e : Value} (h : e.Within R) : Confined R P (Run.raise e) where
  within _ hm := ⟨h, hm⟩
  spares _ _ _ _ := rfl
  asking _ _ _ _ := rfl

/-- No steps. -/
theorem exhausted : Confined R P Run.exhausted where
  within _ _ := trivial
  spares _ _ := trivial
  asking _ _ _ _ := rfl

/-- **One action and then another.** -/
theorem bind {x : Run α} {f : α → Run β} (hx : Confined R P x)
    (hf : ∀ a, P a → Confined R Q (f a)) : Confined R Q (x >>= f) where
  within m hm := by
    have hstep := hx.within m hm
    show (Run.bind x f m).Within R Q
    unfold Run.bind
    cases h : x m with
    | done a m' =>
      rw [h] at hstep
      exact (hf a hstep.1).within m' hstep.2
    | raised e m' =>
      rw [h] at hstep
      exact hstep
    | exhausted => trivial
  spares m hm := by
    have hstep := hx.within m hm
    have hspares := hx.spares m hm
    show (Run.bind x f m).Spares R m
    unfold Run.bind
    cases h : x m with
    | done a m' =>
      rw [h] at hstep hspares
      have hnext := (hf a hstep.1).spares m' hstep.2
      dsimp only
      cases h' : f a m' with
      | done | raised =>
        rw [h'] at hnext
        exact hspares.trans hnext
      | exhausted => trivial
    | raised e m' =>
      rw [h] at hspares
      exact hspares
    | exhausted => trivial
  asking m xs hm hxs := by
    have hstep := hx.within m hm
    have hasking := hx.asking m xs hm hxs
    show Run.bind x f (m.asking xs) = (Run.bind x f m).asking xs
    unfold Run.bind
    cases h : x m with
    | done a m' =>
      rw [h] at hstep hasking
      rw [hasking]
      refine (hf a hstep.1).asking m' xs hstep.2 ?_
      rwa [hx.inclusions_eq hm h]
    | raised e m' =>
      rw [h] at hasking
      rw [hasking]
      rfl
    | exhausted =>
      rw [h] at hasking
      rw [hasking]
      rfl

/-- **What an action does with the machine that it is in.** -/
theorem get {f : Machine → Run β} (hf : ∀ m, m.Within R → Confined R Q (f m))
    (hasking : ∀ m xs, Askings.Agree R xs m.inclusions → f (m.asking xs) = f m) :
    Confined R Q (Run.get >>= f) where
  within m hm := (hf m hm).within m hm
  spares m hm := (hf m hm).spares m hm
  asking m xs hm hxs := by
    show f (m.asking xs) (m.asking xs) = (f m m).asking xs
    rw [hasking m xs hxs]
    exact (hf m hm).asking m xs hm hxs

/-- **An action whose error becomes a value.** -/
theorem protect {x : Run α} (h : Confined R P x) :
    Confined R (fun r => (∀ a, r = .ok a → P a) ∧ ∀ e, r = .error e → e.Within R)
      (Run.protect x) where
  within m hm := by
    have hstep := h.within m hm
    unfold Run.protect
    cases hx : x m with
    | done a m' =>
      rw [hx] at hstep
      exact ⟨⟨by rintro _ ⟨⟩; exact hstep.1, by rintro _ ⟨⟩⟩, hstep.2⟩
    | raised e m' =>
      rw [hx] at hstep
      exact ⟨⟨by rintro _ ⟨⟩, by rintro _ ⟨⟩; exact hstep.1⟩, hstep.2⟩
    | exhausted => trivial
  spares m hm := by
    have hspares := h.spares m hm
    unfold Run.protect
    cases hx : x m with
    | done | raised =>
      rw [hx] at hspares
      exact hspares
    | exhausted => trivial
  asking m xs hm hxs := by
    unfold Run.protect
    rw [h.asking m xs hm hxs]
    cases x m <;> rfl

/-- An error with the place of a call. -/
theorem fail {trace : Trace} {message : String} : Confined R P (Run.fail trace message : Run α) :=
  raise trivial

/-- A checked value. -/
theorem check {trace : Trace} {function : String} {e : Except Objection α}
    (h : ∀ a, e = .ok a → P a) : Confined R P (Run.check trace function e) := by
  cases e with
  | ok a => exact pure (h a rfl)
  | error o => exact fail

/-- A checked value of which nothing is said. -/
theorem checked {trace : Trace} {function : String} {e : Except Objection α} :
    Confined R (fun _ => True) (Run.check trace function e) :=
  check fun _ _ => trivial

end Confined

end Run

/-! ### Things of the machine -/

/-- **A table changed,** in the region or not, by a change that keeps it in the region. -/
theorem Machine.Within.modifyTable {m : Machine} (hm : m.Within R) {g : Table → Table}
    (hg : ∀ t, t.Within R → (g t).Within R) (n : Nat) :
    Machine.Within R { m with tables := m.tables.modify n g } :=
  { hm with
    tables := getD_modify hm.tables hg n
    newTables := fun k hk => hm.newTables k (by simpa using hk) }

namespace Run.Confined

/-- A new table. -/
theorem newTable {t : Table} (h : t.Within R) : Confined R (Value.Within R) (Run.newTable t) := by
  refine action (fun m hm => hm.newTables _ (Nat.le_refl _)) (fun m hm => ?_) (fun m hm n hn => ?_)
    (fun _ _ => rfl) fun _ _ => rfl
  · refine { hm with tables := getD_push hm.tables h, newTables := fun n hn => ?_ }
    have hsize : m.tables.size + 1 ≤ n := by simpa using hn
    exact hm.newTables n (by omega)
  · have hsize : n < m.tables.size := Nat.lt_of_not_le fun h => hn (hm.newTables n h)
    rw [Array.getD_eq_getD_getElem?, Array.getD_eq_getD_getElem?, Array.getElem?_push,
      if_neg (by omega)]

/-- The table of a number. -/
theorem table {n : Nat} (h : R.tables n) : Confined R (Table.Within R) (Run.table n) :=
  reading (fun _ hm => hm.tables n h) fun _ _ => rfl

/-- A value put under a key of a table of the region. -/
theorem setField {n : Nat} {key value : Value} (hn : R.tables n) (hkey : key.Within R)
    (hvalue : value.Within R) : Confined R (fun _ => True) (Run.setField n key value) := by
  refine action (fun _ _ => trivial) (fun m hm => ?_) (fun m _ k hk => ?_) (fun _ _ => rfl)
    fun _ _ => rfl
  · exact hm.modifyTable (fun t ht => ht.set hkey hvalue) n
  · exact getD_modify_of_ne (by rintro rfl; exact hk hn) _

/-- A table of the region replaced. -/
theorem setTable {n : Nat} {t : Table} (hn : R.tables n) (h : t.Within R) :
    Confined R (fun _ => True) (Run.setTable n t) := by
  refine action (fun _ _ => trivial) (fun m hm => ?_) (fun m _ k hk => ?_) (fun _ _ => rfl)
    fun _ _ => rfl
  · refine { hm with tables := getD_setIfInBounds hm.tables h n, newTables := fun k hk => ?_ }
    exact hm.newTables k (by simpa using hk)
  · have hne : n ≠ k := by
      rintro rfl
      exact hk hn
    rw [Array.getD_eq_getD_getElem?, Array.getD_eq_getD_getElem?,
      Array.getElem?_setIfInBounds_ne hne]

/-- A new variable. -/
theorem newCell {v : Value} (h : v.Within R) : Confined R R.cells (Run.newCell v) := by
  refine action (fun m hm => hm.newCells _ (Nat.le_refl _)) (fun m hm => ?_) (fun _ _ _ _ => rfl)
    (fun _ _ => rfl) fun _ _ => rfl
  refine { hm with cells := getD_push hm.cells h, newCells := fun n hn => ?_ }
  have hsize : m.cells.size + 1 ≤ n := by simpa using hn
  exact hm.newCells n (by omega)

/-- The value of a variable. -/
theorem cell {n : Nat} (h : R.cells n) : Confined R (Value.Within R) (Run.cell n) :=
  reading (fun _ hm => hm.cells n h) fun _ _ => rfl

/-- A variable with another value. -/
theorem setCell {n : Nat} {v : Value} (h : v.Within R) :
    Confined R (fun _ => True) (Run.setCell n v) := by
  refine action (fun _ _ => trivial) (fun m hm => ?_) (fun _ _ _ _ => rfl) (fun _ _ => rfl)
    fun _ _ => rfl
  refine { hm with cells := getD_setIfInBounds hm.cells h n, newCells := fun k hk => ?_ }
  exact hm.newCells k (by simpa using hk)

/-- A new function, which sees variables of the region. -/
theorem newClosure {c : Closure} (h : Env.Within R c.env) :
    Confined R (Value.Within R) (Run.newClosure c) := by
  refine action (fun m hm => hm.newClosures _ (Nat.le_refl _)) (fun m hm => ?_)
    (fun _ _ _ _ => rfl) (fun _ _ => rfl) fun _ _ => rfl
  refine { hm with closures := fun n d hn hd => ?_, newClosures := fun n hn => ?_ }
  · rw [Array.getElem?_push] at hd
    split at hd
    · cases hd
      exact h
    · exact hm.closures n d hn hd
  · have hsize : m.closures.size + 1 ≤ n := by simpa using hn
    exact hm.newClosures n (by omega)

/-- A new search. -/
theorem newSearch (s : Search) : Confined R (Value.Within R) (Run.newSearch s) :=
  action (fun _ _ => trivial) (fun _ hm => { hm with }) (fun _ _ _ _ => rfl) (fun _ _ => rfl)
    fun _ _ => rfl

/-- A search replaced. -/
theorem setSearch (n : Nat) (s : Search) : Confined R (fun _ => True) (Run.setSearch n s) :=
  action (fun _ _ => trivial) (fun _ hm => { hm with }) (fun _ _ _ _ => rfl) (fun _ _ => rfl)
    fun _ _ => rfl

/-- The value under a key of a table or a string. -/
theorem index? {v : Value} (hv : v.Within R) (key : Value) :
    Confined R (fun r => ∀ w, r = some w → w.Within R) (Run.index? v key) := by
  cases v with
  | table n =>
    refine reading (fun m hm => ?_) fun _ _ => rfl
    rintro _ ⟨⟩
    exact (hm.tables n hv).get key
  | string b =>
    refine reading (fun m hm => ?_) fun _ _ => rfl
    rintro _ ⟨⟩
    exact (hm.tables m.strings hm.strings).get key
  | _ =>
    refine reading (fun m hm => ?_) fun _ _ => rfl
    rintro _ ⟨⟩

end Run.Confined

end Stencil.Lua
