import Mathlib.Data.List.Basic
import Stencil.Reference
set_option autoImplicit false

/-!
# The references of a compilation

The list of references is made of the libraries of the host and of the names that a template
declares. Each name comes once, where it came first; so a library of the host stays one when a
template declares its name, and the libraries of the host stand in front.

## Main definitions

* `Stencil.Located` — where a declared library is.

## Main results

* `Stencil.map_name_dropRepeated` — the names that are left are the first occurrences.
* `Stencil.mem_dropRepeated_iff` — what is left under a name is what came first under it.
* `Stencil.resolveReferences_law` — the names of the references, whose they are, and where they are.
-/

namespace Stencil

/-! ## Repeated names -/

section Repeated

variable {seen : List String} {rs : List LibraryReference} {r : LibraryReference}

/-- What is left of a list is in its order. -/
theorem dropRepeated_sublist (seen : List String) (rs : List LibraryReference) :
    (dropRepeated seen rs).Sublist rs := by
  induction rs generalizing seen with
  | nil => exact List.Sublist.refl []
  | cons r rs ih =>
    rw [dropRepeated]
    split
    · exact (ih seen).cons r
    · exact (ih (r.name :: seen)).cons_cons r

/-- **The names that are left are the first occurrences** of those that have not come before. -/
theorem map_name_dropRepeated (seen : List String) (rs : List LibraryReference) :
    (dropRepeated seen rs).map LibraryReference.name =
      ((rs.map LibraryReference.name).filter (· ∉ seen)).eraseDups := by
  induction rs generalizing seen with
  | nil => rfl
  | cons r rs ih =>
    rw [dropRepeated, List.map_cons]
    split
    · rename_i hseen
      rw [ih, List.filter_cons_of_neg (by simpa using hseen)]
    · rename_i hseen
      have hrest : ((rs.map LibraryReference.name).filter (· ∉ seen)).filter
          (fun name => !name == r.name) =
            (rs.map LibraryReference.name).filter (· ∉ r.name :: seen) := by
        rw [List.filter_filter]
        refine List.filter_congr fun name _ => ?_
        by_cases hname : name = r.name <;> simp [hname]
      rw [List.filter_cons_of_pos (by simpa using hseen), List.eraseDups_cons, hrest,
        List.map_cons, ih]

/-- **What is left under a name is what came first under it.** -/
theorem mem_dropRepeated_iff :
    r ∈ dropRepeated seen rs ↔ r.name ∉ seen ∧ rs.find? (·.name == r.name) = some r := by
  induction rs generalizing seen with
  | nil => simp [dropRepeated]
  | cons q rs ih =>
    rw [dropRepeated, List.find?_cons]
    by_cases hname : q.name = r.name
    · have hother : r.name ∈ q.name :: seen := hname ▸ List.mem_cons_self
      simp only [hname, beq_self_eq_true, Option.some.injEq]
      split
      · rename_i hseen
        simp [ih, hseen]
      · rename_i hseen
        rw [List.mem_cons, ih]
        simp only [List.mem_cons, not_true_eq_false, false_and, or_false, hseen,
          not_false_eq_true, true_and]
        exact eq_comm
    · have hbeq : (q.name == r.name) = false := beq_eq_false_iff_ne.mpr hname
      have hne : r ≠ q := fun heq => hname (heq ▸ rfl)
      simp only [hbeq]
      split
      · exact ih
      · rw [List.mem_cons, ih, List.mem_cons]
        simp [hne, Ne.symm hname]

/-- No name is left twice. -/
theorem nodup_map_name_dropRepeated (seen : List String) (rs : List LibraryReference) :
    ((dropRepeated seen rs).map LibraryReference.name).Nodup := by
  induction rs generalizing seen with
  | nil => exact List.nodup_nil
  | cons r rs ih =>
    rw [dropRepeated]
    split
    · exact ih seen
    · rw [List.map_cons, List.nodup_cons]
      refine ⟨fun hmem => ?_, ih (r.name :: seen)⟩
      obtain ⟨q, hq, hname⟩ := List.mem_map.mp hmem
      exact (mem_dropRepeated_iff.mp hq).1 (hname ▸ List.mem_cons_self)

end Repeated

/-! ## Where libraries are -/

/-- **Where a declared library is.** An absolute name is its own path. Any other is taken in the
runtime directory, if there is one and a file is there, and is its own path otherwise. -/
inductive Located (fs : FileSystem) (runtimeDir : Option Path) (name : String) : Path → Prop where
  | absolute : (Path.mk name).isAbsolute = true → Located fs runtimeDir name ⟨name⟩
  | inDirectory (dir : Path) : (Path.mk name).isAbsolute = false → runtimeDir = some dir →
      fs.isFile (dir.join ⟨name⟩) = true → Located fs runtimeDir name (dir.join ⟨name⟩)
  | asDeclared : (Path.mk name).isAbsolute = false →
      (∀ dir, runtimeDir = some dir → fs.isFile (dir.join ⟨name⟩) = false) →
      Located fs runtimeDir name ⟨name⟩

/-- A declared library is where it is looked for. -/
theorem located_resolvePath (fs : FileSystem) (runtimeDir : Option Path) (name : String) :
    Located fs runtimeDir name (resolvePath fs runtimeDir name) := by
  cases habsolute : (Path.mk name).isAbsolute with
  | true =>
    simp only [resolvePath, habsolute, if_true]
    exact .absolute habsolute
  | false =>
    simp only [resolvePath, habsolute, Bool.false_eq_true, if_false]
    cases runtimeDir with
    | none => exact .asDeclared habsolute (by simp)
    | some dir =>
      cases hfile : fs.isFile (dir.join ⟨name⟩) with
      | true =>
        simp only [hfile, if_true]
        exact .inDirectory dir habsolute rfl hfile
      | false =>
        simp only [hfile, Bool.false_eq_true, if_false]
        refine .asDeclared habsolute ?_
        rintro _ ⟨⟩
        exact hfile

/-! ## The list -/

section References

variable {fs : FileSystem} {runtimeDir : Option Path} {stateType : StateType}
  {declared : List String} {r : LibraryReference}

/-- The reference to a declared library. -/
def LibraryReference.directive (fs : FileSystem) (runtimeDir : Option Path) (name : String) :
    LibraryReference :=
  ⟨name, resolvePath fs runtimeDir name, .directive⟩

/-- A list whose members keep their names is searched by the names. -/
theorem find?_map_name (make : String → LibraryReference) (hmake : ∀ name, (make name).name = name)
    (names : List String) (name : String) :
    (names.map make).find? (·.name == name) = if name ∈ names then some (make name) else none := by
  induction names with
  | nil => rfl
  | cons other names ih =>
    rw [List.map_cons, List.find?_cons, hmake, ih]
    by_cases heq : other = name
    · simp [heq]
    · simp [beq_eq_false_iff_ne.mpr heq, Ne.symm heq]

/-- **A name is that of a library of the host if the host has one,** and of a declared library
otherwise. -/
theorem mem_resolveReferences_iff :
    r ∈ resolveReferences fs runtimeDir stateType declared ↔
      (r.name ∈ hostLibraries stateType ∧ r = .host r.name) ∨
      (r.name ∉ hostLibraries stateType ∧ r.name ∈ declared ∧
        r = .directive fs runtimeDir r.name) := by
  have hhost := find?_map_name .host (fun _ => rfl) (hostLibraries stateType) r.name
  have hdirective := find?_map_name (.directive fs runtimeDir) (fun _ => rfl) declared r.name
  have hfind : r ∈ resolveReferences fs runtimeDir stateType declared ↔
      (((hostLibraries stateType).map .host).find? (·.name == r.name)).or
        ((declared.map (.directive fs runtimeDir)).find? (·.name == r.name)) = some r := by
    rw [← List.find?_append]
    exact mem_dropRepeated_iff.trans (by simp; rfl)
  rw [hfind, hhost, hdirective]
  by_cases hmem : r.name ∈ hostLibraries stateType
  · simp [hmem, eq_comm]
  · by_cases hdeclared : r.name ∈ declared <;> simp [hmem, hdeclared, eq_comm]

/-- **The references of a compilation.** No name comes twice, and the names are those of the host
that are not empty and then the declared ones, each where it comes first. A reference is one to the
host, with its name for a path, exactly if its name is one of the host's, declared or not. These
stand in front. A declared library is in the runtime directory if a file is there, and where its
name says otherwise. -/
theorem resolveReferences_law (fs : FileSystem) (runtimeDir : Option Path) (stateType : StateType)
    (declared : List String) :
    let references := resolveReferences fs runtimeDir stateType declared
    (references.map LibraryReference.name).Nodup ∧
    references.map LibraryReference.name = (hostLibraries stateType ++ declared).eraseDups ∧
    (∀ r ∈ references, r = .host r.name ↔ r.name ∈ hostLibraries stateType) ∧
    (∀ r ∈ references, r.origin = .host → r = .host r.name) ∧
    references.Pairwise (fun r s => s.origin = .host → r.origin = .host) ∧
    ∀ r ∈ references, r.origin = .directive → Located fs runtimeDir r.name r.path := by
  intro references
  have horigin {r : LibraryReference} (hr : r ∈ references)
      (hname : r.name ∉ hostLibraries stateType) : r = .directive fs runtimeDir r.name :=
    ((mem_resolveReferences_iff.mp hr).resolve_left fun h => hname h.1).2.2
  have hhost {r : LibraryReference} (hr : r ∈ references)
      (hname : r.name ∈ hostLibraries stateType) : r = .host r.name :=
    ((mem_resolveReferences_iff.mp hr).resolve_right fun h => h.1 hname).2
  refine ⟨nodup_map_name_dropRepeated _ _, ?_, fun r hr => ⟨fun heq => ?_, hhost hr⟩,
    fun r hr heq => ?_, ?_, fun r hr heq => ?_⟩
  · have hnames : ((hostLibraries stateType).map LibraryReference.host ++
        declared.map (LibraryReference.directive fs runtimeDir)).map LibraryReference.name =
          hostLibraries stateType ++ declared := by
      simp [LibraryReference.host, LibraryReference.directive, Function.comp_def]
    calc references.map LibraryReference.name
      _ = (((hostLibraries stateType).map LibraryReference.host ++
            declared.map (LibraryReference.directive fs runtimeDir)).map
              LibraryReference.name |>.filter (· ∉ [])).eraseDups := map_name_dropRepeated [] _
      _ = (hostLibraries stateType ++ declared).eraseDups := by
          rw [hnames]
          simp
  · by_contra hname
    have hdirective := congrArg LibraryReference.origin (heq.symm.trans (horigin hr hname))
    cases hdirective
  · by_contra hne
    have hname : r.name ∉ hostLibraries stateType := fun hname => hne (hhost hr hname)
    rw [horigin hr hname] at heq
    cases heq
  · refine List.Pairwise.sublist (dropRepeated_sublist [] _) ?_
    rw [List.pairwise_append]
    refine ⟨?_, ?_, ?_⟩
    · exact List.pairwise_map.mpr (List.pairwise_of_forall fun _ _ _ => rfl)
    · exact List.pairwise_map.mpr (List.pairwise_of_forall fun _ _ h => h)
    · simp [LibraryReference.host]
  · have hname : r.name ∉ hostLibraries stateType := fun hname => by
      rw [hhost hr hname] at heq
      cases heq
    have hpath := congrArg LibraryReference.path (horigin hr hname)
    rw [hpath]
    exact located_resolvePath fs runtimeDir r.name

end References

end Stencil
