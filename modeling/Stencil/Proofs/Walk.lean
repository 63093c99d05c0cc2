import Mathlib.Data.List.Infix
import Stencil.FileSystem
set_option autoImplicit false

/-!
# Walks through a tree of files

Where a path leads to is known from its names alone; whether one gets there depends on the
directories on the way.

## Main definitions

* `Stencil.Node.descend` — the node below another at some names.
* `Stencil.Place.step` — where a name leads to, if anywhere.
* `Stencil.Path.place` — where a path leads to, if anywhere.
* `Stencil.FileSystem.walk` — the steps of a path in a tree.
* `Stencil.FileSystem.IsDirectory`, `Holds` — directories, and the files in them.

## Main results

* `Stencil.FileSystem.exists_root` — a tree with one file of a name, and the directories of a way.
* `Stencil.Place.exists_first` — the first time that steps come to a place on their way.
* `Stencil.FileSystem.walk_eq_ok`, `walk_of_isDirectory` — a walk ends where the names lead to.
* `Stencil.FileSystem.walk_void` — pieces that mean nothing may be left out.
* `Stencil.FileSystem.find_eq_ok_iff` — what a path leads to, by its walk.
-/

namespace Stencil

open Stencil.Path (isVoid)
open Text (splitOn)

/-! ## Trees -/

namespace Node

/-- The node below another at the given names. -/
def descend (node : Node) (names : List String) : Option Node := names.foldlM child? node

section Insert

variable {node value : Node} {name : String} {ns ms : List String}

/-- **The names of entries.** -/
theorem isEntryName_iff :
    isEntryName name = true ↔ isVoid name.toList = false ∧ name.toList ≠ ['.', '.'] ∧
      '/' ∉ name.toList ∧ '\x00' ∉ name.toList ∧ name.utf8ByteSize ≤ 255 := by
  simp [isEntryName, and_assoc]

/-- The first name leads to an entry. -/
theorem descend_cons (node : Node) (name : String) (ns : List String) :
    node.descend (name :: ns) = (node.child? name).bind (·.descend ns) := rfl

/-- A name behind others leads on from where they lead to. -/
theorem descend_append (node : Node) (ns ms : List String) :
    node.descend (ns ++ ms) = (node.descend ns).bind (·.descend ms) := List.foldlM_append

/-- There is nothing below an empty directory. -/
theorem descend_empty (hne : ns ≠ []) : (directory []).descend ns = none := by
  obtain ⟨name, ns, rfl⟩ := List.exists_cons_of_ne_nil hne
  rw [descend_cons, child?]
  split <;> rfl

/-- There is no file below an empty directory. -/
theorem descend_empty_ne_file (ns : List String) (content : ByteArray) :
    (directory []).descend ns ≠ some (file content) := by
  by_cases hne : ns = []
  · rw [hne]
    exact fun h => by cases h
  · rw [descend_empty hne]
    exact fun h => by cases h

/-- The entries under other names are left. -/
theorem lookup_filter_ne {other : String} (h : other ≠ name) (entries : List (String × Node)) :
    (entries.filter (·.1 != name)).lookup other = entries.lookup other := by
  induction entries with
  | nil => rfl
  | cons entry entries ih =>
    obtain ⟨key, below⟩ := entry
    by_cases hkey : key = name
    · have hother : (other == key) = false := by simpa [hkey] using h
      rw [List.filter_cons_of_neg (by simp [hkey]), ih, List.lookup_cons, hother]
    · rw [List.filter_cons_of_pos (by simpa using hkey), List.lookup_cons, List.lookup_cons, ih]

/-- **An insertion changes one entry** of a node. -/
theorem child?_insert (hname : isEntryName name = true) (node value : Node) (ns : List String)
    (other : String) :
    (node.insert (name :: ns) value).child? other =
      if other = name then some (((node.child? name).getD (directory [])).insert ns value)
      else node.child? other := by
  by_cases h : other = name
  · cases node <;> simp [insert, child?, h, hname]
  · have hother : (other == name) = false := by simpa using h
    cases node with
    | file content => simp [insert, child?, h]
    | directory entries =>
      simp only [insert, child?, List.lookup_cons, hother, lookup_filter_ne h, if_neg h]

/-- **What is inserted is there.** -/
theorem descend_insert_self (hns : ∀ name ∈ ns, isEntryName name = true) (node value : Node) :
    (node.insert ns value).descend ns = some value := by
  induction ns generalizing node with
  | nil => rfl
  | cons name ns ih =>
    rw [descend_cons, child?_insert (hns name List.mem_cons_self), if_pos rfl]
    exact ih (fun n hn => hns n (List.mem_cons_of_mem name hn)) _

/-- **What there is after an insertion:** what is below the node that is inserted, directories on
the way to it, and what has been there before. -/
theorem descend_insert_cases (hns : ∀ name ∈ ns, isEntryName name = true) (node value : Node)
    (ms : List String) :
    (∃ rest, ms = ns ++ rest ∧ (node.insert ns value).descend ms = value.descend rest) ∨
      (∃ entries, (node.insert ns value).descend ms = some (directory entries)) ∨
      ms ≠ [] ∧ (node.insert ns value).descend ms = node.descend ms := by
  induction ns generalizing node ms with
  | nil => exact .inl ⟨ms, rfl, rfl⟩
  | cons name ns ih =>
    cases ms with
    | nil => exact .inr (.inl ⟨_, rfl⟩)
    | cons other ms =>
      rw [descend_cons, descend_cons, child?_insert (hns name List.mem_cons_self)]
      by_cases hother : other = name
      · rw [if_pos hother, Option.bind_some]
        rcases ih (fun n hn => hns n (List.mem_cons_of_mem name hn))
          ((node.child? name).getD (directory [])) ms with ⟨rest, hms, h⟩ | h | ⟨hne, h⟩
        · exact .inl ⟨rest, by rw [hother, hms]; rfl, h⟩
        · exact .inr (.inl h)
        · refine .inr (.inr ⟨List.cons_ne_nil _ _, ?_⟩)
          rw [h, hother]
          cases node.child? name with
          | none => exact descend_empty hne
          | some below => rfl
      · rw [if_neg hother]
        exact .inr (.inr ⟨List.cons_ne_nil _ _, rfl⟩)

/-- There is no file where only an empty directory has been inserted. -/
theorem descend_street_ne_file (hns : ∀ name ∈ ns, isEntryName name = true) (ms : List String)
    (content : ByteArray) :
    ((directory []).insert ns (directory [])).descend ms ≠ some (file content) := by
  intro h
  rcases descend_insert_cases hns (directory []) (directory []) ms with
    ⟨rest, -, heq⟩ | ⟨entries, heq⟩ | ⟨-, heq⟩
  · exact descend_empty_ne_file rest content (heq ▸ h)
  · rw [heq] at h
    cases h
  · exact descend_empty_ne_file ms content (heq ▸ h)

end Insert

end Node

/-! ## Directories and files -/

namespace FileSystem

/-- There is a directory at a place. -/
def IsDirectory (fs : FileSystem) (place : Place) : Prop :=
  ∃ entries, fs.node? place = some (.directory entries)

/-- There is a file of the given name in the directory at a place. -/
def Holds (fs : FileSystem) (place : Place) (name : String) : Prop :=
  ∃ content, fs.node? (name :: place) = some (.file content)

section Places

variable {fs : FileSystem} {place place' : Place} {name : String} {node : Node}

/-- The node at a place is the one below the root. -/
theorem node?_eq_descend (fs : FileSystem) (place : Place) :
    fs.node? place = fs.root.descend place.reverse := by
  induction place with
  | nil => rfl
  | cons name place ih =>
    rw [node?, ih, List.reverse_cons, Node.descend_append]
    refine congrArg _ (funext fun node => ?_)
    rw [Node.descend_cons]
    exact (Option.bind_fun_some _).symm

/-- What has an entry is a directory, and an entry has the name of one. -/
theorem isDirectory_of_node? (h : fs.node? (name :: place) = some node) :
    fs.IsDirectory place ∧ Node.isEntryName name = true := by
  obtain ⟨above, habove, hchild⟩ := Option.bind_eq_some_iff.mp h
  cases above with
  | file => cases hchild
  | directory entries =>
    refine ⟨⟨entries, habove⟩, ?_⟩
    rw [Node.child?] at hchild
    split_ifs at hchild with hname
    exact hname

/-- A file is in a directory. -/
theorem Holds.isDirectory (h : fs.Holds place name) : fs.IsDirectory place :=
  (isDirectory_of_node? h.choose_spec).1

/-- Above a directory there are directories. -/
theorem IsDirectory.of_suffix (h : fs.IsDirectory place) (habove : place' <:+ place) :
    fs.IsDirectory place' := by
  induction place with
  | nil =>
    rw [List.suffix_nil.mp habove]
    exact h
  | cons name place ih =>
    rcases List.suffix_cons_iff.mp habove with rfl | habove
    · exact h
    · exact ih (isDirectory_of_node? h.choose_spec).1 habove

/-- **A tree with one file of a name,** at a place that is not on a way, and the directories of the
way. -/
theorem exists_root {way : Place} (hway : ∀ n ∈ way, Node.isEntryName n = true)
    (hplace : ∀ n ∈ place, Node.isEntryName n = true) (hname : Node.isEntryName name = true)
    (hbeside : ¬ place <:+ way) :
    ∃ root, ∀ workingDirectory, let fs : FileSystem := ⟨root, workingDirectory⟩
      fs.IsDirectory way ∧ fs.Holds place name ∧ ∀ other, fs.Holds other name → other = place := by
  have hns : ∀ n ∈ (name :: place).reverse, Node.isEntryName n = true := by
    intro n hn
    rcases List.mem_cons.mp (List.mem_reverse.mp hn) with rfl | hn
    · exact hname
    · exact hplace n hn
  have hways : ∀ n ∈ way.reverse, Node.isEntryName n = true :=
    fun n hn => hway n (List.mem_reverse.mp hn)
  let street : Node := (Node.directory []).insert way.reverse (.directory [])
  let file : Node := .file ByteArray.empty
  refine ⟨street.insert (name :: place).reverse file, fun workingDirectory => ⟨?_, ?_, ?_⟩⟩
  · rw [IsDirectory, node?_eq_descend]
    rcases Node.descend_insert_cases hns street file way.reverse with
      ⟨rest, hrest, -⟩ | h | ⟨-, h⟩
    · -- The file is not on the way.
      have hback : way = rest.reverse ++ name :: place := by
        rw [← List.reverse_reverse way, hrest, List.reverse_append, List.reverse_reverse]
      exact absurd ⟨rest.reverse ++ [name], by rw [hback, List.append_assoc]; rfl⟩ hbeside
    · exact h
    · exact ⟨[], h.trans (Node.descend_insert_self hways _ _)⟩
  · refine ⟨ByteArray.empty, ?_⟩
    rw [node?_eq_descend]
    exact Node.descend_insert_self hns street file
  · rintro other ⟨content, hcontent⟩
    rw [node?_eq_descend] at hcontent
    change (street.insert (name :: place).reverse file).descend (name :: other).reverse = _
      at hcontent
    rcases Node.descend_insert_cases hns street file (name :: other).reverse with
      ⟨rest, hrest, h⟩ | ⟨entries, h⟩ | ⟨-, h⟩
    · cases rest with
      | nil => simpa using hrest
      | cons n rest =>
        rw [h] at hcontent
        cases hcontent
    · rw [h] at hcontent
      cases hcontent
    · exact absurd (h ▸ hcontent) (Node.descend_street_ne_file hways _ content)

end Places

end FileSystem

/-! ## Places -/

namespace Place

/-- **Where a name leads to,** if anywhere: two dots up, and other names down. -/
def step (place : Place) (name : List Char) : Place :=
  if name = ['.', '.'] then place.tail else String.ofList name :: place

section Step

variable {base place : Place} {ns : List (List Char)}

/-- Names without two dots only lead down. -/
theorem suffix_foldl_step (h : ['.', '.'] ∉ ns) : base <:+ ns.foldl step base := by
  induction ns generalizing base with
  | nil => exact List.suffix_refl _
  | cons name ns ih =>
    obtain ⟨hname, hns⟩ := not_or.mp (List.mem_cons.not.mp h)
    rw [List.foldl_cons, step, if_neg (Ne.symm hname)]
    exact (List.suffix_cons _ base).trans (ih hns)

/-- What holds of the names of a place and of the names that lead down holds of the names of the
place that they lead to. -/
theorem forall_mem_foldl_step {P : String → Prop} (hbase : ∀ n ∈ base, P n)
    (hns : ∀ name ∈ ns, name ≠ ['.', '.'] → P (String.ofList name)) :
    ∀ n ∈ ns.foldl step base, P n := by
  induction ns generalizing base with
  | nil => exact hbase
  | cons name ns ih =>
    refine ih ?_ fun other hother => hns other (List.mem_cons_of_mem name hother)
    rw [step]
    split_ifs with hdots
    · exact fun n hn => hbase n (List.mem_of_mem_tail hn)
    · exact List.forall_mem_cons.mpr ⟨hns name List.mem_cons_self hdots, hbase⟩

/-- **The first time that steps come to a place on their way** they have not been below it. -/
theorem exists_first (hway : ∀ ms, ms <+: ns → ms.foldl step base <:+ ns.foldl step base)
    (hbase : base <:+ place) (hplace : place <:+ ns.foldl step base) :
    ∃ ms, ms <+: ns ∧ ms.foldl step base = place ∧
      ∀ l, l <+: ms → l.foldl step base <:+ place := by
  by_cases heq : base = place
  · refine ⟨[], List.nil_prefix, heq, fun l hl => ?_⟩
    rw [List.prefix_nil.mp hl]
    exact hbase
  induction ns generalizing base with
  | nil => exact absurd (hbase.eq_of_length_le hplace.length_le) heq
  | cons name ns ih =>
    have hshorter : base.length < place.length :=
      lt_of_le_of_ne hbase.length_le fun h => heq (hbase.eq_of_length h)
    have hnext : step base name <:+ ns.foldl step (step base name) :=
      hway [name] (List.cons_prefix_cons.mpr ⟨rfl, List.nil_prefix⟩)
    -- One step does not lead past the place.
    have hstep : step base name <:+ place := by
      refine List.suffix_of_suffix_length_le hnext hplace ?_
      rw [step]
      split_ifs
      · rw [List.length_tail]
        omega
      · rw [List.length_cons]
        omega
    have hbehind : ∀ ms, ms <+: ns →
        ms.foldl step (step base name) <:+ ns.foldl step (step base name) :=
      fun ms hms => hway (name :: ms) (List.cons_prefix_cons.mpr ⟨rfl, hms⟩)
    obtain ⟨ms, hms, hfirst, habove⟩ :
        ∃ ms, ms <+: ns ∧ ms.foldl step (step base name) = place ∧
          ∀ l, l <+: ms → l.foldl step (step base name) <:+ place := by
      by_cases hthere : step base name = place
      · refine ⟨[], List.nil_prefix, hthere, fun l hl => ?_⟩
        rw [List.prefix_nil.mp hl]
        exact hstep
      · exact ih hbehind hstep hplace hthere
    refine ⟨name :: ms, List.cons_prefix_cons.mpr ⟨rfl, hms⟩, hfirst, fun l hl => ?_⟩
    cases l with
    | nil => exact hbase
    | cons other l =>
      obtain ⟨rfl, hbelow⟩ := List.cons_prefix_cons.mp hl
      exact habove l hbelow

end Step

end Place

/-- **Where a path leads to,** if anywhere. -/
def Path.place (p : Path) (workingDirectory : Place) : Place :=
  p.names.foldl Place.step (if p.isAbsolute then [] else workingDirectory)

/-! ## Walks -/

namespace FileSystem

/-- **The steps of a path** in a tree, from a place. -/
def walk (fs : FileSystem) (base : Place) (pieces : List (List Char)) : Except FileError Place :=
  pieces.foldlM fs.enter base

section Walk

variable {fs : FileSystem} {base place : Place} {name piece : List Char}
  {ns pieces : List (List Char)} {p : Path} {node : Node}

/-- There is no step from what is not a directory. -/
theorem exists_enter_eq_error (h : ¬ fs.IsDirectory base) :
    ∃ e, ∀ piece, fs.enter base piece = .error e := by
  cases hnode : fs.node? base with
  | none => exact ⟨.notFound, fun piece => by rw [enter, hnode]⟩
  | some node =>
    cases node with
    | file content => exact ⟨.notDirectory, fun piece => by rw [enter, hnode]⟩
    | directory entries => exact absurd ⟨entries, hnode⟩ h

/-- A piece that means nothing leads nowhere else. -/
theorem enter_void (h : fs.IsDirectory base) (hvoid : isVoid piece = true) :
    fs.enter base piece = .ok base := by
  obtain ⟨entries, hnode⟩ := h
  simp only [enter, hnode, hvoid, if_true]

/-- **A step goes where its name leads to,** from a directory. -/
theorem enter_eq_ok (hvoid : isVoid name = false) (h : fs.enter base name = .ok place) :
    fs.IsDirectory base ∧ place = Place.step base name := by
  have hbase : fs.IsDirectory base := by
    by_contra hnot
    obtain ⟨e, he⟩ := exists_enter_eq_error hnot
    rw [he] at h
    cases h
  refine ⟨hbase, ?_⟩
  obtain ⟨entries, hnode⟩ := hbase
  simp only [enter, hnode, hvoid, Bool.false_eq_true, if_false] at h
  rw [Place.step]
  split_ifs at h ⊢ <;> cases h <;> rfl

/-- From a directory there is a step to a node. -/
theorem enter_step (hbase : fs.IsDirectory base) (hvoid : isVoid name = false)
    (h : fs.node? (Place.step base name) = some node) :
    fs.enter base name = .ok (Place.step base name) := by
  obtain ⟨entries, hnode⟩ := hbase
  simp only [enter, hnode, hvoid, Bool.false_eq_true, if_false]
  by_cases hdots : name = ['.', '.']
  · rw [if_pos hdots, Place.step, if_pos hdots]
  · rw [Place.step, if_neg hdots] at h ⊢
    have hentry := Node.isEntryName_iff.mp (isDirectory_of_node? h).2
    rw [if_neg hdots, if_neg (Nat.not_lt.mpr hentry.2.2.2.2), h, Option.isSome_some, if_pos rfl]

/-- The piece of a step has no character that names cannot have. -/
theorem not_mem_of_enter (h : fs.enter base piece = .ok place) : '\x00' ∉ piece := by
  by_cases hvoid : isVoid piece = true
  · rw [isVoid, Bool.or_eq_true_iff, beq_iff_eq, beq_iff_eq] at hvoid
    rcases hvoid with rfl | rfl <;> decide
  · rw [Bool.not_eq_true] at hvoid
    obtain ⟨⟨entries, hnode⟩, -⟩ := enter_eq_ok hvoid h
    simp only [enter, hnode, hvoid, Bool.false_eq_true, if_false] at h
    split_ifs at h with hdots hlength hsome
    · rw [hdots]
      decide
    · obtain ⟨node, hnext⟩ := Option.isSome_iff_exists.mp hsome
      have hentry := Node.isEntryName_iff.mp (isDirectory_of_node? hnext).2
      rw [String.toList_ofList] at hentry
      exact hentry.2.2.2.1

/-- The first step, and the others. -/
theorem walk_cons (fs : FileSystem) (base : Place) (piece : List Char)
    (pieces : List (List Char)) :
    fs.walk base (piece :: pieces) = fs.enter base piece >>= (fs.walk · pieces) := List.foldlM_cons

/-- A walk that comes to its end has a first step. -/
theorem exists_of_walk_cons (h : fs.walk base (piece :: pieces) = .ok place) :
    ∃ next, fs.enter base piece = .ok next ∧ fs.walk next pieces = .ok place := by
  rw [walk_cons] at h
  cases hnext : fs.enter base piece with
  | error e =>
    rw [hnext] at h
    cases h
  | ok next =>
    rw [hnext] at h
    exact ⟨next, rfl, h⟩

/-- The steps of pieces behind others. -/
theorem walk_append (fs : FileSystem) (base : Place) (pieces more : List (List Char)) :
    fs.walk base (pieces ++ more) = fs.walk base pieces >>= (fs.walk · more) := List.foldlM_append

/-- The steps of pieces in front of a last one. -/
theorem walk_concat (fs : FileSystem) (base : Place) (pieces : List (List Char))
    (piece : List Char) :
    fs.walk base (pieces ++ [piece]) = fs.walk base pieces >>= (fs.enter · piece) := by
  rw [walk_append]
  refine congrArg _ (funext fun next => ?_)
  rw [walk_cons]
  exact bind_pure _

/-- **A walk ends where the names lead to.** -/
theorem walk_eq_ok (hns : ∀ n ∈ ns, isVoid n = false) (h : fs.walk base ns = .ok place) :
    place = ns.foldl Place.step base := by
  induction ns generalizing base with
  | nil => exact (Except.ok.inj h).symm
  | cons name ns ih =>
    obtain ⟨hname, hns⟩ := List.forall_mem_cons.mp hns
    obtain ⟨next, henter, hwalk⟩ := exists_of_walk_cons h
    rw [List.foldl_cons, ← (enter_eq_ok hname henter).2]
    exact ih hns hwalk

/-- **Where there are directories all the way** the walk comes to its end. -/
theorem walk_of_isDirectory (hns : ∀ n ∈ ns, isVoid n = false)
    (h : ∀ ms, ms <+: ns → fs.IsDirectory (ms.foldl Place.step base)) :
    fs.walk base ns = .ok (ns.foldl Place.step base) := by
  induction ns generalizing base with
  | nil => rfl
  | cons name ns ih =>
    obtain ⟨hname, hns⟩ := List.forall_mem_cons.mp hns
    obtain ⟨entries, hnext⟩ := h [name] (List.cons_prefix_cons.mpr ⟨rfl, List.nil_prefix⟩)
    have hstep := enter_step (h [] List.nil_prefix) hname hnext
    rw [List.foldl_nil] at hstep
    rw [walk_cons, hstep]
    exact ih hns fun ms hms => h (name :: ms) (List.cons_prefix_cons.mpr ⟨rfl, hms⟩)

/-- **Pieces that mean nothing may be left out** in front of another piece. -/
theorem walk_void (fs : FileSystem) (base : Place) (pieces : List (List Char)) (name : List Char) :
    fs.walk base (pieces ++ [name]) =
      fs.walk base ((pieces.filter fun piece => !isVoid piece) ++ [name]) := by
  induction pieces generalizing base with
  | nil => rfl
  | cons piece pieces ih =>
    cases hvoid : isVoid piece with
    | false =>
      rw [List.filter_cons_of_pos (by simp [hvoid]), List.cons_append, List.cons_append, walk_cons,
        walk_cons]
      exact congrArg _ (funext fun next => ih next)
    | true =>
      rw [List.filter_cons_of_neg (by simp [hvoid]), ← ih, List.cons_append, walk_cons]
      by_cases hbase : fs.IsDirectory base
      · rw [enter_void hbase hvoid]
        rfl
      · -- Any piece in its place is refused in the same way.
        obtain ⟨e, he⟩ := exists_enter_eq_error hbase
        obtain ⟨first, rest, hfirst⟩ := List.exists_cons_of_ne_nil
          (List.append_ne_nil_of_right_ne_nil pieces (List.cons_ne_nil name []))
        rw [hfirst, walk_cons, he, he]
        rfl

/-- The pieces of a walk have no character that names cannot have. -/
theorem not_mem_of_walk (h : fs.walk base pieces = .ok place) :
    ∀ piece ∈ pieces, '\x00' ∉ piece := by
  induction pieces generalizing base with
  | nil => simp
  | cons piece pieces ih =>
    obtain ⟨next, henter, hwalk⟩ := exists_of_walk_cons h
    exact List.forall_mem_cons.mpr ⟨not_mem_of_enter henter, ih hwalk⟩

/-- **What a path leads to, by its walk.** -/
theorem find_eq_ok_iff :
    fs.find p = .ok node ↔ p.text ≠ "" ∧ p.text.utf8ByteSize < 4096 ∧
      ∃ place, fs.walk (fs.start p) (splitOn '/' p.text.toList) = .ok place ∧
        fs.node? place = some node := by
  rw [find, ← Nat.not_le]
  split_ifs with hnul hempty hlong
  · -- The character would be in one of the pieces.
    constructor
    · intro h
      cases h
    · rintro ⟨-, -, place, hwalk, -⟩
      obtain h | ⟨piece, hpiece, hmem⟩ :=
        Text.exists_mem_splitOn '/' (List.contains_iff_mem.mp hnul)
      · exact absurd h (by decide)
      · exact absurd hmem (not_mem_of_walk hwalk piece hpiece)
  · simp [hempty]
  · simp [hlong]
  · simp only [hempty, hlong, not_false_eq_true, ne_eq, true_and]
    rw [← walk]
    cases fs.walk (fs.start p) (splitOn '/' p.text.toList) with
    | error e => simp
    | ok place => cases hnode : fs.node? place <;> simp [hnode]

/-- The paths of files. -/
theorem isFile_iff : fs.isFile p = true ↔ ∃ content, fs.find p = .ok (.file content) := by
  rw [isFile]
  split <;> simp_all

end Walk

end FileSystem

end Stencil
