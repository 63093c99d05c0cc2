import Stencil.Text.Split
set_option autoImplicit false

/-!
# Paths

A path is a text whose pieces are separated by slashes. Empty pieces and single dots mean
nothing, except that a path may begin with a slash (it is absolute) or with a single dot. A path
is never normalized: two dots stay, and joining keeps the text of both parts.

## Main definitions

* `Stencil.Path` — a path, as its text.
* `Stencil.Path.names` — the pieces that mean something.
* `Stencil.Path.fileName`, `stem`, `extension` — the last piece and its halves at the last dot.
* `Stencil.Path.parent`, `ancestors` — the path without its last piece, and so on upwards.
* `Stencil.Path.join` — a path taken relative to another.

## Main results

* `Stencil.Path.length_parentText_lt` — a parent is a shorter text.
-/

namespace Stencil

/-- **A path,** as its text. -/
structure Path where
  text : String
  deriving DecidableEq, Repr

namespace Path

/-! ## Pieces -/

/-- Whether a path begins at the root. -/
def isAbsolute (p : Path) : Bool := p.text.toList.head? == some '/'

/-- Whether a piece means nothing: it is empty or a single dot. -/
def isVoid (piece : List Char) : Bool := piece == [] || piece == ['.']

/-- The pieces of a path that mean something, from the first to the last. -/
def names (p : Path) : List (List Char) :=
  (Text.splitOn '/' p.text.toList).filter fun piece => !isVoid piece

/-- The last piece of a path, unless it is two dots. -/
def fileName (p : Path) : Option (List Char) :=
  p.names.getLast?.filter (· != ['.', '.'])

/-- A file name cut at its last dot. A dot that leads the name does not count. -/
def cutAtLastDot (name : List Char) : List Char × Option (List Char) :=
  let ext := (name.reverse.takeWhile (· != '.')).reverse
  let before := name.take (name.length - ext.length - 1)
  if before.isEmpty then (name, none) else (before, some ext)

/-- **The extension:** what follows the last dot of the file name. -/
def extension (p : Path) : Option (List Char) := p.fileName.bind fun n => (cutAtLastDot n).2

/-- **The stem:** the file name without its extension. -/
def stem (p : Path) : Option (List Char) := p.fileName.map fun n => (cutAtLastDot n).1

/-! ## Upwards -/

/-- A reversed text without the void pieces at its end. -/
def dropVoid (rev : List Char) : List Char :=
  if isVoid (rev.takeWhile (· != '/')) then
    match h : rev.dropWhile (· != '/') with
    | [] => []
    | _ :: rest =>
      have : rest.length < rev.length := by
        have := (List.dropWhile_suffix (p := (· != '/')) (l := rev)).length_le
        rw [h, List.length_cons] at this
        omega
      dropVoid rest
  else rev
termination_by rev.length

theorem length_dropVoid_le (rev : List Char) : (dropVoid rev).length ≤ rev.length := by
  fun_induction dropVoid rev with
  | case1 => simp
  | case2 rev h c rest hd hlt ih => omega
  | case3 => exact Nat.le_refl _

/-- The length of what leads a path: the slash of an absolute one, or a single dot. -/
def leadLength : List Char → Nat
  | '/' :: _ => 1
  | ['.'] => 1
  | '.' :: '/' :: _ => 1
  | _ => 0

/-- The text of `parent`. -/
def parentText (s : List Char) : Option (List Char) :=
  let lead := s.take (leadLength s)
  match dropVoid (s.drop (leadLength s)).reverse with
  | [] => if lead = ['.'] then some [] else none
  | r@(_ :: _) => some (lead ++ (dropVoid ((r.dropWhile (· != '/')).drop 1)).reverse)

/-- **The path without its last piece.** The root and the empty path have none; the parent of a
single name is the empty path. -/
def parent (p : Path) : Option Path := (parentText p.text.toList).map fun s => ⟨String.ofList s⟩

/-- A parent is a shorter text. -/
theorem length_parentText_lt {s t : List Char} (h : parentText s = some t) :
    t.length < s.length := by
  unfold parentText at h
  have hs : (s.take (leadLength s)).length + (s.drop (leadLength s)).length = s.length := by
    rw [← List.length_append, List.take_append_drop]
  have hd := length_dropVoid_le (s.drop (leadLength s)).reverse
  rw [List.length_reverse] at hd
  split at h
  · dsimp only at h
    split at h
    · rename_i hl
      rw [hl] at hs
      simp only [Option.some.injEq] at h
      subst h
      simp only [List.length_cons, List.length_nil] at hs ⊢
      omega
    · simp at h
  · rename_i r c rest hr
    rw [hr] at hd
    simp only [Option.some.injEq] at h
    subst h
    have h1 := length_dropVoid_le (((c :: rest).dropWhile (· != '/')).drop 1)
    have h2 := (List.dropWhile_suffix (p := (· != '/')) (l := c :: rest)).length_le
    have h3 : (((c :: rest).dropWhile (· != '/')).drop 1).length < (c :: rest).length := by
      rw [List.length_drop, List.length_cons] at *
      omega
    rw [List.length_append, List.length_reverse]
    omega

/-- **A path and everything above it,** nearest first. -/
def ancestors (p : Path) : List Path :=
  match h : p.parent with
  | none => [p]
  | some q =>
    have : q.text.toList.length < p.text.toList.length := by
      obtain ⟨t, ht, rfl⟩ := Option.map_eq_some_iff.mp h
      simpa using length_parentText_lt ht
    p :: q.ancestors
termination_by p.text.toList.length

/-! ## Joining -/

/-- **The path `p` taken relative to `base`.** An absolute path is taken as it is; otherwise one
slash parts the two texts, unless `base` is empty or brings one. -/
def join (base p : Path) : Path :=
  if p.isAbsolute then p
  else match base.text.toList.getLast? with
    | none | some '/' => ⟨base.text ++ p.text⟩
    | some _ => ⟨base.text ++ "/" ++ p.text⟩

end Path

end Stencil
