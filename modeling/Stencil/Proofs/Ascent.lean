import Stencil.Proofs.LibraryName
set_option autoImplicit false

/-!
# Upwards along a path

The paths above a path have its names without the last ones, one after another. So a search among
them that only looks at the names is a search among the initial segments of the names, the longest
first.

## Main definitions

* `Stencil.Path.namesOf` — the pieces of a text that mean something.

## Main results

* `Stencil.Path.namesOf_dropVoid` — pieces that mean nothing may be dropped.
* `Stencil.Path.names_of_parent` — the names of the path above.
* `Stencil.Path.names_join` — the names of a path taken relative to another.
* `Stencil.Path.find?_ancestors` — a search among the paths above a path.
-/

namespace Stencil.Path

open Text (splitOn splitOn_append_cons splitOn_of_not_mem)

/-! ## Pieces of a text -/

/-- The pieces of a text that mean something. -/
def namesOf (s : List Char) : List (List Char) := (splitOn '/' s).filter fun piece => !isVoid piece

section NamesOf

variable {w piece : List Char}

/-- The names of two texts with a slash between them are those of the one and of the other. -/
theorem namesOf_slash (s t : List Char) : namesOf (s ++ '/' :: t) = namesOf s ++ namesOf t := by
  rw [namesOf, splitOn_append_cons, List.filter_append]
  rfl

/-- The names of a single piece. -/
theorem namesOf_piece (h : '/' ∉ piece) :
    namesOf piece = if isVoid piece = true then [] else [piece] := by
  rw [namesOf, splitOn_of_not_mem h]
  cases hvoid : isVoid piece <;> simp [hvoid]

/-- The empty text has no names. -/
theorem namesOf_nil : namesOf [] = [] := rfl

/-- A piece means nothing, read from either end. -/
theorem isVoid_reverse (piece : List Char) : isVoid piece.reverse = isVoid piece := by
  have hdot : piece.reverse = ['.'] ↔ piece = ['.'] := by
    constructor
    · intro h
      simpa using congrArg List.reverse h
    · rintro rfl
      rfl
  rw [Bool.eq_iff_iff]
  simp [isVoid, hdot]

/-- A reversed text is its last piece, and a slash with what is in front of it if there is one. -/
theorem exists_lastPiece (r : List Char) :
    '/' ∉ r.takeWhile (· != '/') ∧
      (r.dropWhile (· != '/') = [] ∧ r.takeWhile (· != '/') = r ∨
        ∃ rest, r.dropWhile (· != '/') = '/' :: rest ∧
          r.takeWhile (· != '/') ++ '/' :: rest = r) := by
  have hwhole := List.takeWhile_append_dropWhile (p := (· != '/')) (l := r)
  refine ⟨fun h => by simpa using List.all_eq_true.mp List.all_takeWhile '/' h, ?_⟩
  cases hdrop : r.dropWhile (· != '/') with
  | nil =>
    rw [hdrop, List.append_nil] at hwhole
    exact .inl ⟨rfl, hwhole⟩
  | cons c rest =>
    have hslash := List.head?_dropWhile_not (· != '/') r
    rw [hdrop] at hslash
    obtain rfl : c = '/' := by simpa using hslash
    rw [hdrop] at hwhole
    exact .inr ⟨rest, rfl, hwhole⟩

/-- The names of a reversed text. -/
theorem namesOf_reverse (hw : '/' ∉ w) (rest : List Char) :
    namesOf (w ++ '/' :: rest).reverse =
      namesOf rest.reverse ++ if isVoid w = true then [] else [w.reverse] := by
  have hpiece : namesOf w.reverse = if isVoid w = true then [] else [w.reverse] := by
    rw [namesOf_piece (by simpa using hw), isVoid_reverse]
  rw [List.reverse_append, List.reverse_cons, List.append_assoc, ← hpiece]
  exact namesOf_slash rest.reverse w.reverse

/-- Dropping leaves the front of a text. -/
theorem dropVoid_suffix (r : List Char) : dropVoid r <:+ r := by
  fun_induction dropVoid r with
  | case1 => exact List.nil_suffix
  | case2 r h c rest hd hlt ih =>
    have hrest : rest <:+ r := (List.suffix_cons c rest).trans (hd ▸ List.dropWhile_suffix _)
    exact ih.trans hrest
  | case3 => exact List.suffix_refl _

/-- **Pieces that mean nothing may be dropped** at the end of a text. -/
theorem namesOf_dropVoid (r : List Char) : namesOf (dropVoid r).reverse = namesOf r.reverse := by
  fun_induction dropVoid r with
  | case1 r h hd =>
    obtain ⟨hslash, ⟨-, hall⟩ | ⟨rest, hrest, -⟩⟩ := exists_lastPiece r
    · rw [hall] at hslash h
      have hpiece := namesOf_piece (List.mem_reverse.not.mpr hslash)
      rw [isVoid_reverse, if_pos h] at hpiece
      rw [hpiece]
      rfl
    · rw [hd] at hrest
      cases hrest
  | case2 r h c rest hd hlt ih =>
    obtain ⟨hslash, ⟨hnil, -⟩ | ⟨rest', hrest, hwhole⟩⟩ := exists_lastPiece r
    · rw [hd] at hnil
      cases hnil
    · obtain rfl : rest = rest' := (List.cons.inj (hd.symm.trans hrest)).2
      rw [ih, ← hwhole, namesOf_reverse hslash, if_pos h, List.append_nil]
  | case3 => rfl

/-- What is left ends in a piece that means something, if anything is left. -/
theorem isVoid_dropVoid (r : List Char) :
    dropVoid r = [] ∨ isVoid ((dropVoid r).takeWhile (· != '/')) = false := by
  fun_induction dropVoid r with
  | case1 => exact .inl rfl
  | case2 r h c rest hd hlt ih => exact ih
  | case3 r h => exact .inr (by simpa using h)

end NamesOf

/-! ## The path above -/

section Parent

variable {s t : List Char}

/-- What leads a text means nothing. -/
theorem namesOf_lead {b : List Char} (hb : b <+: s.drop (leadLength s)) :
    namesOf (s.take (leadLength s) ++ b) = namesOf b := by
  fun_cases leadLength s with
  | case1 r => exact namesOf_slash [] b
  | case2 =>
    obtain rfl : b = [] := List.prefix_nil.mp hb
    rfl
  | case3 r =>
    cases b with
    | nil => rfl
    | cons c b =>
      obtain rfl : c = '/' := (List.cons_prefix_cons.mp hb).1
      exact (namesOf_slash ['.'] b).trans (namesOf_slash [] b).symm
  | case4 => rfl

/-- A text that begins with a slash keeps it. -/
theorem head?_lead (hs : s.head? = some '/') (b : List Char) :
    (s.take (leadLength s) ++ b).head? = some '/' := by
  cases s with
  | nil => cases hs
  | cons c s =>
    obtain rfl : c = '/' := Option.some.inj hs
    rfl

/-- The names of a text are those of what follows its lead. -/
theorem namesOf_eq (s : List Char) :
    namesOf s = namesOf (dropVoid (s.drop (leadLength s)).reverse).reverse := by
  conv_lhs => rw [← List.take_append_drop (leadLength s) s]
  rw [namesOf_lead (List.prefix_refl _), namesOf_dropVoid, List.reverse_reverse]

/-- A text with no path above it has no names. -/
theorem namesOf_of_parentText (h : parentText s = none) : namesOf s = [] := by
  rw [parentText] at h
  rw [namesOf_eq]
  split at h
  · rename_i hnil
    rw [hnil]
    rfl
  · cases h

/-- **The text of the path above** is an initial segment, begins with a slash if the text does, and
has all names but the last. -/
theorem parentText_eq_some (h : parentText s = some t) :
    t <+: s ∧ (s.head? = some '/' → t.head? = some '/') ∧ namesOf t = (namesOf s).dropLast := by
  rw [parentText] at h
  rw [namesOf_eq s]
  have hvoid := isVoid_dropVoid (s.drop (leadLength s)).reverse
  have hbody := dropVoid_suffix (s.drop (leadLength s)).reverse
  split at h
  · rename_i hnil
    split_ifs at h with hlead
    obtain rfl := Option.some.inj h
    refine ⟨List.nil_prefix, fun hs => ?_, by rw [hnil]; rfl⟩
    have hslash := head?_lead hs []
    rw [hlead] at hslash
    cases hslash
  · rename_i r c rest hr
    obtain rfl := Option.some.inj h
    rw [hr] at hvoid hbody ⊢
    replace hvoid := hvoid.resolve_left (List.cons_ne_nil c rest)
    generalize c :: rest = r at hvoid hbody ⊢
    have hrest : (r.dropWhile (· != '/')).drop 1 <:+ r :=
      (List.drop_suffix 1 _).trans (List.dropWhile_suffix _)
    have hfront : (dropVoid ((r.dropWhile (· != '/')).drop 1)).reverse <+:
        s.drop (leadLength s) := by
      rw [← List.reverse_suffix, List.reverse_reverse]
      exact ((dropVoid_suffix _).trans hrest).trans hbody
    refine ⟨?_, fun hs => head?_lead hs _, ?_⟩
    · conv_rhs => rw [← List.take_append_drop (leadLength s) s]
      exact (List.prefix_append_right_inj _).mpr hfront
    · rw [namesOf_lead hfront, namesOf_dropVoid]
      obtain ⟨hslash, ⟨hnil, hall⟩ | ⟨rest', hdrop, hwhole⟩⟩ := exists_lastPiece r
      · rw [hall] at hslash hvoid
        have hpiece := namesOf_piece (List.mem_reverse.not.mpr hslash)
        rw [isVoid_reverse, hvoid] at hpiece
        rw [hnil, hpiece]
        rfl
      · rw [hdrop]
        conv_rhs => rw [← hwhole]
        rw [namesOf_reverse hslash, hvoid]
        simp

/-- The names of a path are those of its text. -/
theorem names_eq (p : Path) : p.names = namesOf p.text.toList := rfl

/-- A path with nothing above it has no names. -/
theorem names_of_parent_none {p : Path} (h : p.parent = none) : p.names = [] :=
  namesOf_of_parentText (Option.map_eq_none_iff.mp h)

/-- **The path above a path** has all its names but the last, starts where it does, and its text is
an initial segment. -/
theorem names_of_parent {p q : Path} (h : p.parent = some q) :
    q.names = p.names.dropLast ∧ q.isAbsolute = p.isAbsolute ∧ q.text.toList <+: p.text.toList := by
  obtain ⟨t, ht, rfl⟩ := Option.map_eq_some_iff.mp h
  obtain ⟨hfront, hslash, hnames⟩ := parentText_eq_some ht
  refine ⟨by rw [names_eq, names_eq, String.toList_ofList, hnames], ?_, ?_⟩
  · rw [isAbsolute, isAbsolute, String.toList_ofList, Bool.eq_iff_iff, beq_iff_eq, beq_iff_eq]
    refine ⟨fun habsolute => ?_, hslash⟩
    obtain ⟨rest, hrest⟩ := hfront
    rw [← hrest, List.head?_append, habsolute]
    rfl
  · rw [String.toList_ofList]
    exact hfront

end Parent

/-! ## The paths above -/

section Ancestors

variable {p a : Path}

/-- The initial segments of a list are the list and those of the list without its last member. -/
theorem prefix_iff_eq_or_dropLast {α : Type} {l m : List α} :
    m <+: l ↔ m = l ∨ m <+: l.dropLast := by
  rcases List.eq_nil_or_concat l with rfl | ⟨init, x, rfl⟩
  · simp
  · rw [List.concat_eq_append, List.dropLast_concat]
    exact List.prefix_concat_iff

/-- **A path above** has the first names of the path, starts where it does, and its text is an
initial segment. -/
theorem names_of_mem_ancestors (h : a ∈ p.ancestors) :
    a.names <+: p.names ∧ a.isAbsolute = p.isAbsolute ∧ a.text.toList <+: p.text.toList := by
  fun_induction ancestors p with
  | case1 p =>
    rw [List.mem_singleton.mp h]
    exact ⟨List.prefix_refl _, rfl, List.prefix_refl _⟩
  | case2 p q hparent _ ih =>
    rcases List.mem_cons.mp h with rfl | h
    · exact ⟨List.prefix_refl _, rfl, List.prefix_refl _⟩
    · obtain ⟨hnames, habsolute, htext⟩ := names_of_parent hparent
      obtain ⟨hnames', habsolute', htext'⟩ := ih h
      exact ⟨hnames'.trans (hnames ▸ List.dropLast_prefix _), habsolute'.trans habsolute,
        htext'.trans htext⟩

/-- All first names of a path are the names of a path above. -/
theorem exists_mem_ancestors {ns : List (List Char)} (h : ns <+: p.names) :
    ∃ a ∈ p.ancestors, a.names = ns := by
  fun_induction ancestors p with
  | case1 p hparent =>
    rw [names_of_parent_none hparent] at h
    exact ⟨p, List.mem_cons_self, by rw [names_of_parent_none hparent, List.prefix_nil.mp h]⟩
  | case2 p q hparent _ ih =>
    rcases prefix_iff_eq_or_dropLast.mp h with rfl | h
    · exact ⟨p, List.mem_cons_self, rfl⟩
    · obtain ⟨a, ha, hnames⟩ := ih ((names_of_parent hparent).1 ▸ h)
      exact ⟨a, List.mem_cons_of_mem p ha, hnames⟩

/-- **A search among the paths above a path** finds one with as many names as possible. -/
theorem find?_ancestors {good : Path → Bool} (h : p.ancestors.find? good = some a)
    {b : Path} (hb : b ∈ p.ancestors) (hgood : good b = true) :
    b.names.length ≤ a.names.length := by
  fun_induction ancestors p with
  | case1 p =>
    rw [List.mem_singleton.mp hb] at hgood ⊢
    rw [List.find?_singleton, if_pos hgood] at h
    rw [Option.some.inj h]
  | case2 p q hparent _ ih =>
    by_cases hp : good p = true
    · rw [List.find?_cons_of_pos hp] at h
      rw [← Option.some.inj h]
      rcases List.mem_cons.mp hb with rfl | hb
      · exact Nat.le_refl _
      · refine (names_of_mem_ancestors hb).1.length_le.trans ?_
        rw [(names_of_parent hparent).1]
        exact (List.dropLast_prefix _).length_le
    · rw [List.find?_cons_of_neg hp] at h
      rcases List.mem_cons.mp hb with rfl | hb
      · exact absurd hgood hp
      · exact ih h hb

end Ancestors

/-! ## The path below -/

section Join

variable {a p : Path}

/-- A path without slashes is not absolute. -/
theorem isAbsolute_of_not_mem (hp : '/' ∉ p.text.toList) : p.isAbsolute = false := by
  rw [isAbsolute, beq_eq_false_iff_ne]
  exact fun h => hp (List.mem_of_mem_head? h)

/-- **A path taken relative to another** is its text behind that of the other, with one slash in
front of it unless the other text is empty. -/
theorem text_join (a : Path) (hp : '/' ∉ p.text.toList) :
    a.text.toList = [] ∧ (a.join p).text = p.text ∨
      ∃ s, (a.join p).text.toList = s ++ '/' :: p.text.toList ∧
        (a.text.toList = s ∧ s ≠ [] ∨ a.text.toList = s ++ ['/']) := by
  rw [join, isAbsolute_of_not_mem hp, if_neg (by decide)]
  split
  · rename_i hempty
    have hnil : a.text.toList = [] := List.getLast?_eq_none_iff.mp hempty
    refine .inl ⟨hnil, ?_⟩
    rw [← String.toList_inj, String.toList_append, hnil]
    rfl
  · rename_i hslash
    obtain ⟨s, hs⟩ := List.getLast?_eq_some_iff.mp hslash
    refine .inr ⟨s, ?_, .inr hs⟩
    rw [String.toList_append, hs, List.append_assoc]
    rfl
  · rename_i c hne hlast
    refine .inr ⟨a.text.toList, ?_, .inl ⟨rfl, ?_⟩⟩
    · rw [String.toList_append, String.toList_append, List.append_assoc]
      rfl
    · intro hnil
      rw [hnil] at hlast
      cases hlast

/-- **The pieces of a path behind another:** the last one is its text, and those in front of it
mean what the other path means. -/
theorem exists_splitOn_join (a : Path) (hp : '/' ∉ p.text.toList) :
    ∃ init, splitOn '/' (a.join p).text.toList = init ++ [p.text.toList] ∧
      (init.filter fun piece => !isVoid piece) = a.names := by
  rcases text_join a hp with ⟨ha, htext⟩ | ⟨s, htext, hs⟩
  · exact ⟨[], by rw [htext, splitOn_of_not_mem hp]; rfl, by rw [names_eq, ha]; rfl⟩
  · refine ⟨splitOn '/' s, by rw [htext, splitOn_append_cons, splitOn_of_not_mem hp], ?_⟩
    rw [names_eq]
    rcases hs with ⟨hs, -⟩ | hs
    · rw [hs]
      rfl
    · rw [hs, namesOf_slash, namesOf_nil, List.append_nil]
      rfl

/-- It starts where the other path does. -/
theorem isAbsolute_join (a : Path) (hp : '/' ∉ p.text.toList) :
    (a.join p).isAbsolute = a.isAbsolute := by
  rcases text_join a hp with ⟨ha, htext⟩ | ⟨s, htext, ⟨hs, hne⟩ | hs⟩
  · rw [isAbsolute, htext, isAbsolute, ha]
    exact isAbsolute_of_not_mem hp
  · obtain ⟨c, s, rfl⟩ := List.exists_cons_of_ne_nil hne
    rw [isAbsolute, htext, isAbsolute, hs]
    rfl
  · rw [isAbsolute, htext, isAbsolute, hs]
    cases s <;> rfl

/-- Its text is that of the two, and a slash if need be. -/
theorem utf8ByteSize_join (a : Path) (hp : '/' ∉ p.text.toList) :
    a.text.utf8ByteSize + p.text.utf8ByteSize ≤ (a.join p).text.utf8ByteSize ∧
      (a.join p).text.utf8ByteSize ≤ a.text.utf8ByteSize + 1 + p.text.utf8ByteSize := by
  rw [join, isAbsolute_of_not_mem hp, if_neg (by decide)]
  have hslash : "/".utf8ByteSize = 1 := rfl
  split <;> simp only [String.utf8ByteSize_append] <;> omega

/-- **The path above is the shorter one,** also with a path behind it. -/
theorem utf8ByteSize_join_of_mem_ancestors {b : Path} (ha : a ∈ b.ancestors)
    (hp : '/' ∉ p.text.toList) :
    (a.join p).text.utf8ByteSize ≤ (b.join p).text.utf8ByteSize := by
  obtain ⟨rest, hrest⟩ := (names_of_mem_ancestors ha).2.2
  have htext : b.text = a.text ++ String.ofList rest := by
    rw [← String.toList_inj, String.toList_append, String.toList_ofList, hrest]
  by_cases hnil : String.ofList rest = ""
  · rw [hnil, String.append_empty] at htext
    rw [join, join, htext]
  · have hsize : b.text.utf8ByteSize = a.text.utf8ByteSize + (String.ofList rest).utf8ByteSize := by
      rw [htext, String.utf8ByteSize_append]
    have hpos := Nat.pos_of_ne_zero (String.utf8ByteSize_eq_zero_iff.not.mpr hnil)
    have habove := (utf8ByteSize_join a hp).2
    have hbelow := (utf8ByteSize_join b hp).1
    omega

end Join

end Stencil.Path
