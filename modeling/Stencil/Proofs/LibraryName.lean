import Mathlib.Data.List.DropRight
import Stencil.Template.Directive
set_option autoImplicit false

/-!
# The names of libraries

A declared library gets the configured suffix unless its name carries it already, which is seen
from the extension of its file name. The two agree exactly for suffixes that can be an extension, a
dot with something behind it that has neither a dot nor a slash, and for names that do not end in a
slash: then the suffix is there in the end, it is there once, and a second time changes nothing. A
single dot is a suffix too, and names of dots are the exceptions.

## Main definitions

* `Stencil.Path.lastPiece` — what stands behind the last slash of a path.
* `Stencil.Path.IsName` — the pieces that are file names.
* `Stencil.Template.IsExtension` — the suffixes that can be the extension of a name.
* `Stencil.Template.EndsLike`, `Carries` — a name that ends in a suffix, and one that carries it.
* `Stencil.Template.Lawful` — a name and a suffix for which the suffix is appended once.

## Main results

* `Stencil.Path.fileName_eq_lastPiece` — the file name of a path is its last piece.
* `Stencil.Path.cutAtLastDot_append`, `exists_of_extension` — extensions.
* `Stencil.Template.withLibrarySuffix_of_carries` — a suffix that is carried is not appended.
* `Stencil.Template.lawful_iff_isExtension`, `lawful_dot_iff` — an extension, and a single dot.
* `Stencil.Template.lawful_iff` — when the suffix is appended once.
-/

namespace Stencil

open Text (splitOn eqIgnoringCase)

/-! ## Letter case -/

namespace Text

/-- A character in front of the letters is the small form of itself only. -/
theorem toLower_eq_iff {c : Char} (hc : c.toNat < 65) (x : Char) : x.toLower = c ↔ x = c := by
  unfold Char.toLower
  split
  · rename_i hcapital
    have hlow : 65 ≤ x.toNat := UInt32.le_iff_toNat_le.mp hcapital.1
    have hhigh : x.toNat ≤ 90 := UInt32.le_iff_toNat_le.mp hcapital.2
    have hsmall : (x.val + ('a'.val - 'A'.val)).toNat = x.toNat + 32 := by
      have hshift : ('a'.val - 'A'.val).toNat = 32 := by decide
      have hx : x.val.toNat = x.toNat := rfl
      rw [UInt32.toNat_add]
      omega
    refine iff_of_false (fun h => ?_) fun h => ?_
    · have hnat : x.toNat + 32 = c.toNat := hsmall.symm.trans (congrArg Char.toNat h)
      omega
    · rw [h] at hlow
      omega
  · rfl

section IgnoringCase

variable {s t : List Char} {c : Char}

/-- Such a character is in both of two texts that are equal up to case, or in none. -/
theorem mem_iff_of_eqIgnoringCase (h : eqIgnoringCase s t = true) (hc : c.toNat < 65) :
    c ∈ s ↔ c ∈ t := by
  have hmem (u : List Char) : c ∈ u ↔ c ∈ lowerAscii u := by
    simp [lowerAscii, toLower_eq_iff hc]
  rw [hmem s, hmem t, beq_iff_eq.mp h]

/-- Both texts end in it, or none. -/
theorem getLast?_iff_of_eqIgnoringCase (h : eqIgnoringCase s t = true) (hc : c.toNat < 65) :
    s.getLast? = some c ↔ t.getLast? = some c := by
  have hlast (u : List Char) : u.getLast? = some c ↔ (lowerAscii u).getLast? = some c := by
    simp [lowerAscii, List.getLast?_map, toLower_eq_iff hc]
  rw [hlast s, hlast t, beq_iff_eq.mp h]

/-- Equality up to case goes both ways. -/
theorem eqIgnoringCase_symm (h : eqIgnoringCase s t = true) : eqIgnoringCase t s = true :=
  beq_iff_eq.mpr (beq_iff_eq.mp h).symm

/-- A text that begins with it is equal up to case to one that does. -/
theorem exists_of_eqIgnoringCase_cons (h : eqIgnoringCase s (c :: t) = true) (hc : c.toNat < 65) :
    ∃ u, s = c :: u ∧ eqIgnoringCase u t = true := by
  have hsame : lowerAscii s = c :: lowerAscii t := by
    rw [beq_iff_eq.mp h, lowerAscii, List.map_cons, (toLower_eq_iff hc c).mpr rfl]
    rfl
  obtain ⟨x, u, rfl, hx, hu⟩ := List.map_eq_cons_iff.mp hsame
  obtain rfl := (toLower_eq_iff hc x).mp hx
  exact ⟨u, rfl, beq_iff_eq.mpr hu⟩

end IgnoringCase

/-- The text behind the last occurrence of a character. -/
theorem rtakeWhile_append_cons {c : Char} (s : List Char) {t : List Char} (ht : c ∉ t) :
    (s ++ c :: t).rtakeWhile (· != c) = t := by
  have hall : ∀ d ∈ t.reverse, (d != c) = true := by
    intro d hd
    rw [bne_iff_ne]
    rintro rfl
    exact ht (List.mem_reverse.mp hd)
  rw [List.rtakeWhile, List.reverse_append, List.reverse_cons, List.append_assoc,
    List.takeWhile_append_of_pos hall]
  simp

/-- That character is not in it. -/
theorem not_mem_rtakeWhile (c : Char) (s : List Char) : c ∉ s.rtakeWhile (· != c) :=
  fun h => by simpa using List.mem_rtakeWhile_imp h

/-- In front of it is nothing, or that character. -/
theorem exists_eq_append_rtakeWhile (c : Char) (s : List Char) :
    ∃ front, s = front ++ s.rtakeWhile (· != c) ∧ (front = [] ∨ ∃ d, front = d ++ [c]) := by
  refine ⟨s.rdropWhile (· != c), List.rdropWhile_append_rtakeWhile.symm, ?_⟩
  by_cases hnil : s.rdropWhile (· != c) = []
  · exact .inl hnil
  · have hlast := List.rdropWhile_last_not (· != c) s hnil
    simp only [bne_iff_ne, ne_eq, not_not] at hlast
    have hfront := List.dropLast_append_getLast hnil
    rw [hlast] at hfront
    exact .inr ⟨_, hfront.symm⟩

end Text

/-! ## File names -/

namespace Path

/-- **What stands behind the last slash** of a text. -/
def lastPiece (s : List Char) : List Char := s.rtakeWhile (· != '/')

/-- **The pieces that are file names:** all but the empty piece, the single dot and the two dots. -/
def IsName (piece : List Char) : Prop := piece ≠ [] ∧ piece ≠ ['.'] ∧ piece ≠ ['.', '.']

section Pieces

variable {s t name stem ext : List Char} {p : Path}

/-- There is no slash in the last piece. -/
theorem not_mem_lastPiece (s : List Char) : '/' ∉ lastPiece s := Text.not_mem_rtakeWhile '/' s

/-- In front of the last piece is nothing, or a slash. -/
theorem exists_front (s : List Char) :
    ∃ front, s = front ++ lastPiece s ∧ (front = [] ∨ ∃ d, front = d ++ ['/']) :=
  Text.exists_eq_append_rtakeWhile '/' s

/-- The last piece is longer by a text without slashes behind it. -/
theorem lastPiece_append (s : List Char) (ht : '/' ∉ t) :
    lastPiece (s ++ t) = lastPiece s ++ t := by
  have hall : ∀ c ∈ t.reverse, (c != '/') = true := by
    intro c hc
    rw [bne_iff_ne]
    rintro rfl
    exact ht (List.mem_reverse.mp hc)
  rw [lastPiece, List.rtakeWhile, List.reverse_append, List.takeWhile_append_of_pos hall,
    List.reverse_append, List.reverse_reverse]
  rfl

/-- Behind a slash at the end there is nothing. -/
theorem lastPiece_slash (s : List Char) : lastPiece (s ++ ['/']) = [] :=
  List.rtakeWhile_concat_neg _ _ _ (by decide)

/-- A text with nothing behind its last slash is empty or ends in a slash. -/
theorem eq_nil_or_getLast?_of_lastPiece (h : lastPiece s = []) :
    s = [] ∨ s.getLast? = some '/' := by
  obtain ⟨front, hs, rfl | ⟨d, rfl⟩⟩ := exists_front s
  · exact .inl (by rw [hs, h]; rfl)
  · exact .inr (by rw [hs, h]; simp)

/-- **The last piece is the last of the pieces,** also with a text without slashes behind it. -/
theorem exists_splitOn_append (s : List Char) :
    ∃ init, ∀ t, '/' ∉ t → splitOn '/' (s ++ t) = init ++ [lastPiece s ++ t] := by
  obtain ⟨front, hs, hfront⟩ := exists_front s
  have hpiece {t : List Char} (ht : '/' ∉ t) :
      splitOn '/' (lastPiece s ++ t) = [lastPiece s ++ t] :=
    Text.splitOn_of_not_mem (by simp [not_mem_lastPiece, ht])
  rcases hfront with rfl | ⟨d, rfl⟩
  · refine ⟨[], fun t ht => ?_⟩
    have hsame : s = lastPiece s := hs
    rw [List.nil_append, ← hpiece ht, ← hsame]
  · refine ⟨splitOn '/' d, fun t ht => ?_⟩
    conv_lhs => rw [hs]
    rw [List.append_assoc, List.append_assoc]
    exact (Text.splitOn_append_cons '/' d _).trans (congrArg _ (hpiece ht))

/-- The last piece is the last of the pieces. -/
theorem exists_splitOn_eq (s : List Char) : ∃ init, splitOn '/' s = init ++ [lastPiece s] := by
  obtain ⟨init, hinit⟩ := exists_splitOn_append s
  exact ⟨init, by simpa using hinit [] (by simp)⟩

/-- A dot behind a slash does not change the file name. -/
theorem fileName_concat_dot {q : Path} (hq : q.text.toList = p.text.toList ++ ['.'])
    (hlast : lastPiece p.text.toList = []) : q.fileName = p.fileName := by
  obtain ⟨init, hinit⟩ := exists_splitOn_append p.text.toList
  have hshort := hinit [] (by simp)
  have hlong := hinit ['.'] (by decide)
  rw [List.append_nil, hlast] at hshort
  rw [← hq, hlast] at hlong
  have hnames : q.names = p.names := by
    rw [names, names, hshort, hlong, List.filter_append, List.filter_append]
    rfl
  rw [fileName, fileName, hnames]

/-- **The file name of a path is its last piece** if that one is a name. -/
theorem fileName_eq_lastPiece (h : IsName (lastPiece p.text.toList)) :
    p.fileName = some (lastPiece p.text.toList) := by
  obtain ⟨init, hinit⟩ := exists_splitOn_eq p.text.toList
  obtain ⟨hnil, hdot, hdots⟩ := h
  have hvoid : isVoid (lastPiece p.text.toList) = false := by simp [isVoid, hnil, hdot]
  rw [fileName, names, hinit, List.filter_append, List.filter_cons_of_pos (by simp [hvoid]),
    List.filter_nil, List.getLast?_concat]
  simp [Option.filter, hdots]

/-- A last piece that means something is the file name. -/
theorem eq_lastPiece_of_fileName (h : p.fileName = some name)
    (hvoid : isVoid (lastPiece p.text.toList) = false) : name = lastPiece p.text.toList := by
  obtain ⟨init, hinit⟩ := exists_splitOn_eq p.text.toList
  rw [fileName, names, hinit, List.filter_append, List.filter_cons_of_pos (by simp [hvoid]),
    List.filter_nil, List.getLast?_concat, Option.filter_eq_some_iff] at h
  exact (Option.some.inj h.1).symm

/-- There is no slash in a file name. -/
theorem not_mem_of_fileName (h : p.fileName = some name) : '/' ∉ name := by
  obtain ⟨hlast, -⟩ := Option.filter_eq_some_iff.mp h
  exact Text.not_mem_of_mem_splitOn (List.mem_filter.mp (List.mem_of_getLast? hlast)).1

/-! ## Extensions -/

/-- The halves of a name are known from what stands behind its last dot. -/
theorem cutAtLastDot_eq (h : name.rtakeWhile (· != '.') = ext) :
    cutAtLastDot name =
      if (name.take (name.length - ext.length - 1)).isEmpty then (name, none)
      else (name.take (name.length - ext.length - 1), some ext) := by
  subst h
  rfl

/-- **A name is cut at its last dot.** -/
theorem cutAtLastDot_append (hstem : stem ≠ []) (hext : '.' ∉ ext) :
    cutAtLastDot (stem ++ '.' :: ext) = (stem, some ext) := by
  have hlength : (stem ++ '.' :: ext).length - ext.length - 1 = stem.length := by
    rw [List.length_append, List.length_cons]
    omega
  rw [cutAtLastDot_eq (Text.rtakeWhile_append_cons stem hext), hlength, List.take_left,
    if_neg (by simpa using hstem)]

/-- A dot that leads a name does not count. -/
theorem cutAtLastDot_dot (hext : '.' ∉ ext) : (cutAtLastDot ('.' :: ext)).2 = none := by
  have hbehind : ('.' :: ext).rtakeWhile (· != '.') = ext := Text.rtakeWhile_append_cons [] hext
  rw [cutAtLastDot_eq hbehind]
  simp

/-- What a name is cut into are its halves. -/
theorem exists_of_cutAtLastDot (h : (cutAtLastDot name).2 = some ext) :
    ∃ stem, stem ≠ [] ∧ name = stem ++ '.' :: ext ∧ '.' ∉ ext := by
  obtain ⟨front, hname, hfront⟩ := Text.exists_eq_append_rtakeWhile '.' name
  have hdot : '.' ∉ name.rtakeWhile (· != '.') := Text.not_mem_rtakeWhile '.' name
  rw [cutAtLastDot_eq rfl] at h
  split at h
  · cases h
  · rename_i hbefore
    obtain rfl := Option.some.inj h
    rcases hfront with rfl | ⟨stem, rfl⟩
    · -- The name has no dot.
      have hwhole : name = name.rtakeWhile (· != '.') := hname
      rw [← hwhole] at hbefore
      simp at hbefore
    · have hlength : name.length - (name.rtakeWhile (· != '.')).length - 1 = stem.length := by
        have := congrArg List.length hname
        rw [List.length_append, List.length_append, List.length_singleton] at this
        omega
      refine ⟨stem, ?_, hname.trans (List.append_assoc ..), hdot⟩
      rintro rfl
      rw [hlength] at hbefore
      simp at hbefore

/-- **The extension of a path** stands behind the last dot of its file name. -/
theorem exists_of_extension (h : p.extension = some ext) :
    ∃ stem, stem ≠ [] ∧ p.fileName = some (stem ++ '.' :: ext) ∧ '.' ∉ ext ∧ '/' ∉ ext := by
  obtain ⟨name, hname, hcut⟩ := Option.bind_eq_some_iff.mp h
  obtain ⟨stem, hstem, rfl, hdot⟩ := exists_of_cutAtLastDot hcut
  refine ⟨stem, hstem, hname, hdot, fun hmem => not_mem_of_fileName hname ?_⟩
  exact List.mem_append_right _ (List.mem_cons_of_mem _ hmem)

end Pieces

end Path

/-! ## Suffixes -/

namespace Template

open Stencil.Path (lastPiece IsName)

/-- **The suffixes that can be the extension of a name:** a dot, and something behind it without
dots and slashes. -/
def IsExtension (suffix : List Char) : Prop :=
  ∃ ext, suffix = '.' :: ext ∧ ext ≠ [] ∧ '.' ∉ ext ∧ '/' ∉ ext

/-- **A name that ends in a suffix,** in any letter case. -/
def EndsLike (name suffix : List Char) : Prop :=
  eqIgnoringCase (name.rtake suffix.length) suffix = true

/-- **A name that carries a suffix:** it ends in it, and there is something in front of it in the
last piece of the name. -/
def Carries (name suffix : List Char) : Prop :=
  EndsLike name suffix ∧ suffix.length < (lastPiece name).length

/-- **A name and a suffix for which the suffix is appended once:** it is there in the end, it is not
appended to a name that carries it, and a second time changes nothing. -/
structure Lawful (reference suffix : String) : Prop where
  ends : EndsLike (withLibrarySuffix reference suffix).toList suffix.toList
  kept : Carries reference.toList suffix.toList → withLibrarySuffix reference suffix = reference
  twice : withLibrarySuffix (withLibrarySuffix reference suffix) suffix =
    withLibrarySuffix reference suffix

instance (name suffix : List Char) : Decidable (EndsLike name suffix) :=
  inferInstanceAs (Decidable (_ = true))

instance (name suffix : List Char) : Decidable (Carries name suffix) :=
  inferInstanceAs (Decidable (_ ∧ _))

/-- A text that is equal up to case to a suffix ends in it, whatever is in front. -/
theorem endsLike_append {t suffix : List Char} (h : eqIgnoringCase t suffix = true)
    (front : List Char) : EndsLike (front ++ t) suffix := by
  have hlength := Text.length_eq_of_eqIgnoringCase h
  have htake : (front ++ t).rtake suffix.length = t := by
    rw [List.rtake, List.length_append, hlength, Nat.add_sub_cancel, List.drop_left]
  rwa [EndsLike, htake]

/-- What ends in a suffix is a text with the suffix behind it, up to case. -/
theorem EndsLike.exists_append {name suffix : List Char} (h : EndsLike name suffix) :
    ∃ front t, name = front ++ t ∧ eqIgnoringCase t suffix = true :=
  ⟨_, _, (List.take_append_drop (name.length - suffix.length) name).symm, h⟩

section Suffix

variable {reference suffix : String}

/-- **A suffix is not appended exactly if it is the extension** of the file name, in any letter
case. -/
theorem withLibrarySuffix_eq_self_iff (hne : suffix ≠ "") :
    withLibrarySuffix reference suffix = reference ↔ ∃ ext,
      (Path.mk reference).extension = some ext ∧
        eqIgnoringCase ('.' :: ext) suffix.toList = true := by
  have hempty : suffix.isEmpty = false := by simpa using hne
  have happend : reference ++ suffix ≠ reference := by
    intro h
    have hlength := congrArg String.length h
    rw [String.length_append] at hlength
    exact hne (String.length_eq_zero_iff.mp (by omega))
  unfold withLibrarySuffix
  cases hext : (Path.mk reference).extension with
  | none => simp [hempty, happend]
  | some ext =>
    cases hcase : eqIgnoringCase ('.' :: ext) suffix.toList <;> simp [hempty, happend, hcase]

/-- Otherwise it is appended. -/
theorem withLibrarySuffix_eq_append (h : withLibrarySuffix reference suffix ≠ reference) :
    withLibrarySuffix reference suffix = reference ++ suffix :=
  (ite_eq_or_eq _ _ _).resolve_left h

/-- **A suffix that some name has for its extension** can be one. -/
theorem isExtension_of_eq_self (hne : suffix ≠ "") (hdot : suffix ≠ ".")
    (h : withLibrarySuffix reference suffix = reference) : IsExtension suffix.toList := by
  obtain ⟨ext, hext, hcase⟩ := (withLibrarySuffix_eq_self_iff hne).mp h
  obtain ⟨-, -, -, hdots, hslash⟩ := Path.exists_of_extension hext
  obtain ⟨ext', hsuffix, hcase'⟩ :=
    Text.exists_of_eqIgnoringCase_cons (Text.eqIgnoringCase_symm hcase) (by decide)
  refine ⟨ext', hsuffix, ?_, ?_, ?_⟩
  · rintro rfl
    exact hdot (String.toList_inj.mp hsuffix)
  · rwa [Text.mem_iff_of_eqIgnoringCase hcase' (by decide)]
  · rwa [Text.mem_iff_of_eqIgnoringCase hcase' (by decide)]

/-- **A suffix that is carried is not appended** if it can be an extension.

**Proof sketch.** The name ends in the suffix, up to case, and the suffix has no slash; so the last
piece of the name is a stem with the suffix behind it, and the stem is not empty. -/
theorem withLibrarySuffix_of_carries (hsuffix : IsExtension suffix.toList)
    (h : Carries reference.toList suffix.toList) :
    withLibrarySuffix reference suffix = reference := by
  obtain ⟨ext, hext, hne, hdots, hslash⟩ := hsuffix
  obtain ⟨hends, hlong⟩ := h
  obtain ⟨front, t, hreference, ht⟩ := hends.exists_append
  rw [hext] at ht
  obtain ⟨ext', rfl, hcase⟩ := Text.exists_of_eqIgnoringCase_cons ht (by decide)
  have hdots' : '.' ∉ ext' := by rwa [Text.mem_iff_of_eqIgnoringCase hcase (by decide)]
  have hslash' : '/' ∉ ext' := by rwa [Text.mem_iff_of_eqIgnoringCase hcase (by decide)]
  have hlength := Text.length_eq_of_eqIgnoringCase hcase
  have hlast : lastPiece reference.toList = lastPiece front ++ '.' :: ext' := by
    rw [hreference]
    exact Path.lastPiece_append front (by simp [hslash'])
  have hstem : lastPiece front ≠ [] := by
    intro hnil
    rw [hlast, hnil, hext] at hlong
    simp [hlength] at hlong
  have hname : IsName (lastPiece reference.toList) := by
    have hpos : 0 < (lastPiece front).length := List.length_pos_of_ne_nil hstem
    have hpos' : 0 < ext.length := List.length_pos_of_ne_nil hne
    rw [hlast]
    refine ⟨?_, ?_, ?_⟩ <;> intro heq <;> have := congrArg List.length heq <;>
      simp at this <;> omega
  refine (withLibrarySuffix_eq_self_iff (by rintro rfl; cases hext)).mpr ⟨ext', ?_, ?_⟩
  · rw [Path.extension, Path.fileName_eq_lastPiece hname, hlast]
    exact congrArg Prod.snd (Path.cutAtLastDot_append hstem hdots')
  · rwa [hext]

/-! ## When the suffix is appended once -/

/-- **A name that ends in a slash gets the suffix twice,** for want of a stem in front of it. -/
theorem withLibrarySuffix_twice_ne (hsuffix : IsExtension suffix.toList)
    (hlast : lastPiece reference.toList = []) :
    withLibrarySuffix (reference ++ suffix) suffix ≠ reference ++ suffix := by
  obtain ⟨ext, hext, hne, hdots, hslash⟩ := hsuffix
  have hpiece : lastPiece (reference ++ suffix).toList = '.' :: ext := by
    rw [String.toList_append, hext, Path.lastPiece_append _ (by simp [hslash]), hlast]
    rfl
  have hname : IsName (lastPiece (reference ++ suffix).toList) := by
    rw [hpiece]
    refine ⟨by simp, by simp [hne], ?_⟩
    intro heq
    rw [(List.cons.inj heq).2] at hdots
    simp at hdots
  intro hsame
  obtain ⟨ext', hext', -⟩ :=
    (withLibrarySuffix_eq_self_iff (by rintro rfl; cases hext)).mp hsame
  rw [Path.extension, Path.fileName_eq_lastPiece hname, hpiece] at hext'
  exact absurd (hext'.symm.trans (Path.cutAtLastDot_dot hdots)) (by simp)

/-- **A name that ends in a slash or in a piece of one dot does not end in a suffix** that can be an
extension. -/
theorem not_endsLike_of_isVoid (hsuffix : IsExtension suffix.toList)
    (hvoid : Path.isVoid (lastPiece reference.toList) = true) :
    ¬ EndsLike reference.toList suffix.toList := by
  obtain ⟨ext, hext, hne, hdots, hslash⟩ := hsuffix
  intro hends
  obtain ⟨front, t, hreference, ht⟩ := hends.exists_append
  have hpos : t ≠ [] := by
    rintro rfl
    have hlength := Text.length_eq_of_eqIgnoringCase ht
    simp [hext] at hlength
  -- The last character of the name is the last of the suffix, up to case.
  have hlast {c : Char} (hc : c.toNat < 65) (h : reference.toList.getLast? = some c) : c ∈ ext := by
    rw [hreference, List.getLast?_append_of_ne_nil _ hpos,
      Text.getLast?_iff_of_eqIgnoringCase ht hc, hext, List.getLast?_cons_of_ne_nil hne] at h
    exact List.mem_of_getLast? h
  simp only [Path.isVoid, Bool.or_eq_true, beq_iff_eq] at hvoid
  rcases hvoid with hnil | hdot
  · rcases Path.eq_nil_or_getLast?_of_lastPiece hnil with hempty | hend
    · rw [hempty] at hreference
      exact hpos (List.append_eq_nil_iff.mp hreference.symm).2
    · exact hslash (hlast (by decide) hend)
  · obtain ⟨front', hfront, -⟩ := Path.exists_front reference.toList
    refine hdots (hlast (by decide) ?_)
    rw [hfront, hdot, List.getLast?_concat]

/-- **When an extension is appended once.** The name must not end in a slash, nor in a piece of one
dot behind a name that has the suffix for its extension. A suffix with two dots, or without a
leading one, is appended every time.

**Proof sketch.** A suffix that a second time leaves in place is the extension of some name. A name
that ends in a slash either gets a file name that is all suffix, whose leading dot does not count,
or has the suffix in front of the slash and is left as it is. In all other cases the last piece of
the result is a stem with the suffix behind it. -/
theorem lawful_iff_isExtension (hne : suffix ≠ "") (hdot : suffix ≠ ".") :
    Lawful reference suffix ↔ IsExtension suffix.toList ∧ lastPiece reference.toList ≠ [] ∧
      (lastPiece reference.toList = ['.'] → withLibrarySuffix reference suffix ≠ reference) := by
  constructor
  · intro h
    have hsuffix : IsExtension suffix.toList := isExtension_of_eq_self hne hdot h.twice
    have hleft (hvoid : Path.isVoid (lastPiece reference.toList) = true) :
        withLibrarySuffix reference suffix ≠ reference := by
      intro hsame
      have hends := h.ends
      rw [hsame] at hends
      exact not_endsLike_of_isVoid hsuffix hvoid hends
    refine ⟨hsuffix, fun hnil => ?_, fun hlast => hleft (by rw [hlast]; rfl)⟩
    have happend := withLibrarySuffix_eq_append (hleft (by rw [hnil]; rfl))
    have htwice := h.twice
    rw [happend] at htwice
    exact withLibrarySuffix_twice_ne hsuffix hnil htwice
  · rintro ⟨hsuffix, hnil, hlast⟩
    by_cases hsame : withLibrarySuffix reference suffix = reference
    · refine ⟨?_, fun _ => hsame, by rw [hsame, hsame]⟩
      obtain ⟨ext, hext, hcase⟩ := (withLibrarySuffix_eq_self_iff hne).mp hsame
      obtain ⟨stem, -, hname, -, -⟩ := Path.exists_of_extension hext
      have hvoid : Path.isVoid (lastPiece reference.toList) = false := by
        simpa [Path.isVoid, hnil] using fun hdot => hlast hdot hsame
      obtain ⟨front, hfront, -⟩ := Path.exists_front reference.toList
      rw [hsame, hfront, ← Path.eq_lastPiece_of_fileName hname hvoid, ← List.append_assoc]
      exact endsLike_append hcase _
    · have happend := withLibrarySuffix_eq_append hsame
      have hends : EndsLike (reference ++ suffix).toList suffix.toList := by
        rw [String.toList_append]
        exact endsLike_append (beq_self_eq_true _) _
      have hslash : '/' ∉ suffix.toList := by
        obtain ⟨ext, hext, -, -, hslash⟩ := hsuffix
        simp [hext, hslash]
      have hlong : suffix.toList.length < (lastPiece (reference ++ suffix).toList).length := by
        rw [String.toList_append, Path.lastPiece_append _ hslash, List.length_append]
        have := List.length_pos_of_ne_nil hnil
        omega
      refine ⟨by rwa [happend],
        fun hcarries => absurd (withLibrarySuffix_of_carries hsuffix hcarries) hsame, ?_⟩
      rw [happend]
      exact withLibrarySuffix_of_carries hsuffix ⟨hends, hlong⟩

/-! ### A single dot -/

/-- **A name ends in a dot** exactly if its last piece does. -/
theorem endsLike_dot_iff {s : List Char} :
    EndsLike s ['.'] ↔ ∃ stem, lastPiece s = stem ++ ['.'] := by
  constructor
  · intro h
    obtain ⟨front, t, rfl, ht⟩ := h.exists_append
    obtain ⟨u, rfl, hu⟩ := Text.exists_of_eqIgnoringCase_cons ht (by decide)
    obtain rfl := List.length_eq_zero_iff.mp (Text.length_eq_of_eqIgnoringCase hu)
    exact ⟨_, Path.lastPiece_append front (by decide)⟩
  · rintro ⟨stem, hstem⟩
    obtain ⟨front, hfront, -⟩ := Path.exists_front s
    rw [hfront, hstem, ← List.append_assoc]
    exact endsLike_append (beq_self_eq_true _) _

/-- A single dot is not appended exactly if nothing is behind the dot of the file name. -/
theorem withLibrarySuffix_dot_eq_self_iff :
    withLibrarySuffix reference "." = reference ↔ (Path.mk reference).extension = some [] := by
  refine (withLibrarySuffix_eq_self_iff (by decide)).trans ⟨?_, fun h => ⟨[], h, by decide⟩⟩
  rintro ⟨ext, hext, hcase⟩
  have hlength := Text.length_eq_of_eqIgnoringCase hcase
  obtain rfl : ext = [] := List.length_eq_zero_iff.mp (Nat.succ.inj hlength)
  exact hext

/-- A dot behind a name is not appended. -/
theorem withLibrarySuffix_dot_eq_self {stem : List Char}
    (hlast : lastPiece reference.toList = stem ++ ['.']) (hne : stem ≠ []) (hdot : stem ≠ ['.']) :
    withLibrarySuffix reference "." = reference := by
  have hname : IsName (lastPiece reference.toList) := by
    rw [hlast]
    refine ⟨by simp, ?_, ?_⟩
    · exact fun h => hne (List.append_cancel_right h : stem = [])
    · exact fun h => hdot (List.append_cancel_right h : stem = ['.'])
  rw [withLibrarySuffix_dot_eq_self_iff, Path.extension, Path.fileName_eq_lastPiece hname, hlast]
  exact congrArg Prod.snd (Path.cutAtLastDot_append hne (by simp))

/-- A dot behind a single one is appended, since two dots are no file name. -/
theorem withLibrarySuffix_dot_ne (hlast : lastPiece reference.toList = ['.', '.']) :
    withLibrarySuffix reference "." ≠ reference := by
  rw [Ne, withLibrarySuffix_dot_eq_self_iff]
  intro hext
  obtain ⟨stem, -, hname, -, -⟩ := Path.exists_of_extension hext
  have hdots := Path.eq_lastPiece_of_fileName hname (by rw [hlast]; rfl)
  have hno := (Option.filter_eq_some_iff.mp hname).2
  rw [hdots, hlast] at hno
  simp at hno

/-- **When a single dot is appended once.** The name must not end in a slash, nor in a piece of two
dots, nor in one of one dot, unless that stands behind a name that ends in a dot. -/
theorem lawful_dot_iff :
    Lawful reference "." ↔ lastPiece reference.toList ≠ [] ∧
      lastPiece reference.toList ≠ ['.', '.'] ∧
      (lastPiece reference.toList = ['.'] → withLibrarySuffix reference "." = reference) := by
  constructor
  · intro h
    refine ⟨fun hnil => ?_, fun hdots => ?_, fun hlast => ?_⟩
    · have happend : withLibrarySuffix reference "." ≠ reference := by
        intro hsame
        have hends := h.ends
        rw [hsame] at hends
        obtain ⟨stem, hstem⟩ := endsLike_dot_iff.mp hends
        simp [hnil] at hstem
      have htwice := h.twice
      rw [withLibrarySuffix_eq_append happend, withLibrarySuffix_dot_eq_self_iff, Path.extension,
        Path.fileName_concat_dot String.toList_append hnil] at htwice
      exact happend (withLibrarySuffix_dot_eq_self_iff.mpr htwice)
    · have hcarries : Carries reference.toList ['.'] :=
        ⟨endsLike_dot_iff.mpr ⟨['.'], hdots⟩, by rw [hdots]; decide⟩
      exact withLibrarySuffix_dot_ne hdots (h.kept hcarries)
    · by_contra hne
      have htwice := h.twice
      rw [withLibrarySuffix_eq_append hne] at htwice
      refine withLibrarySuffix_dot_ne ?_ htwice
      rw [String.toList_append, Path.lastPiece_append _ (by decide), hlast]
      rfl
  · rintro ⟨hnil, hdots, hlast⟩
    by_cases hsame : withLibrarySuffix reference "." = reference
    · refine ⟨?_, fun _ => hsame, by rw [hsame, hsame]⟩
      obtain ⟨stem, -, hname, -, -⟩ :=
        Path.exists_of_extension (withLibrarySuffix_dot_eq_self_iff.mp hsame)
      rw [hsame]
      by_cases hdot : lastPiece reference.toList = ['.']
      · exact endsLike_dot_iff.mpr ⟨[], hdot⟩
      · have hvoid : Path.isVoid (lastPiece reference.toList) = false := by
          simp [Path.isVoid, hnil, hdot]
        exact endsLike_dot_iff.mpr ⟨stem, (Path.eq_lastPiece_of_fileName hname hvoid).symm⟩
    · have hpiece : lastPiece (reference ++ ".").toList = lastPiece reference.toList ++ ['.'] := by
        rw [String.toList_append]
        exact Path.lastPiece_append _ (by decide)
      have happend := withLibrarySuffix_eq_append hsame
      refine ⟨by rw [happend]; exact endsLike_dot_iff.mpr ⟨_, hpiece⟩, fun hcarries => ?_, ?_⟩
      · obtain ⟨stem, hstem⟩ := endsLike_dot_iff.mp hcarries.1
        have hlong := hcarries.2
        rw [hstem] at hlong
        refine withLibrarySuffix_dot_eq_self hstem ?_ ?_
        · rintro rfl
          exact absurd hlong (by decide)
        · rintro rfl
          exact hdots hstem
      · rw [happend]
        exact withLibrarySuffix_dot_eq_self hpiece hnil fun hdot => hsame (hlast hdot)

/-! ### Any suffix -/

/-- **When the suffix is appended once.** The suffix must be a dot with something behind it that has
neither a dot nor a slash, or a single dot; one with two dots, or without a leading one, is appended
every time. The name must not end in a slash. Behind a last piece of one dot it is the name in front
that counts: it must not have the suffix, or else it must, if that is a single dot. A single dot is
carried by two, but these are no file name, so it is appended to them. -/
theorem lawful_iff (hne : suffix ≠ "") :
    Lawful reference suffix ↔ lastPiece reference.toList ≠ [] ∧
      (IsExtension suffix.toList ∧
          (lastPiece reference.toList = ['.'] → withLibrarySuffix reference suffix ≠ reference) ∨
        suffix = "." ∧ lastPiece reference.toList ≠ ['.', '.'] ∧
          (lastPiece reference.toList = ['.'] →
            withLibrarySuffix reference suffix = reference)) := by
  by_cases hdot : suffix = "."
  · subst hdot
    have hno : ¬ IsExtension ".".toList := by
      rintro ⟨ext, hext, hne', -⟩
      exact hne' (List.cons.inj hext).2.symm
    simp only [lawful_dot_iff, hno, false_and, false_or, true_and]
  · simp only [lawful_iff_isExtension hne hdot, hdot, false_and, or_false]
    exact and_left_comm

end Suffix

/-- A name in a directory, which has its suffix in capitals. -/
theorem lawful_iff_capitals : ".lua" ≠ "" ∧ Lawful "lib/util.LUA" ".lua" := by
  have hextension : IsExtension ".lua".toList :=
    ⟨"lua".toList, rfl, by decide, by decide, by decide⟩
  exact ⟨by decide, (lawful_iff (by decide)).mpr ⟨by decide, .inl ⟨hextension, by decide⟩⟩⟩

/-- Of a suffix with two dots only the last half can be an extension. -/
example : ¬ Lawful "a.tar.gz" ".tar.gz" := fun h => absurd (h.kept (by decide)) (by decide)

end Template

end Stencil
