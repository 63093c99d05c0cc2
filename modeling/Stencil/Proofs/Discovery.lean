import Stencil.Config
import Stencil.Proofs.Ascent
import Stencil.Proofs.Walk
set_option autoImplicit false

/-!
# The search for the configuration

The search goes up the text of a path. It goes up the tree if none of the paths above leads beside
the way to where the path itself leads to; without two dots in the path there are no such paths.

## Main definitions

* `Stencil.FileSystem.Leads` — a path that leads to a directory.
* `Stencil.Path.Climbs` — the paths above which one only goes up.
* `Stencil.Config.LooksUpwards` — what is found is the nearest file in a directory or above it.

## Main results

* `Stencil.Config.isFile_join` — the files of a name in the directories that paths lead to.
* `Stencil.Config.findFile_eq_none_iff`, `findFile_eq_some` — the search, by walks along the names.
* `Stencil.Config.findFile_law` — where the search looks, and when it looks upwards.
-/

namespace Stencil

open Text (splitOn)

/-! ## Files below a path -/

/-- The system takes the path: its text is not too long. -/
def Path.Fits (p : Path) : Prop := p.text.utf8ByteSize < 4096

/-- **A path leads to a directory** of a tree. -/
def FileSystem.Leads (fs : FileSystem) (p : Path) (place : Place) : Prop :=
  fs.walk (fs.start p) p.names = .ok place ∧ fs.IsDirectory place

namespace Config

section Below

variable {fs : FileSystem} {a start p : Path}

/-- The name of the file is a name of entries. -/
theorem isEntryName_fileName : Node.isEntryName fileName = true := by decide +kernel

/-- The name of the file, as a path. -/
theorem not_mem_fileName : '/' ∉ (⟨fileName⟩ : Path).text.toList := by decide +kernel

/-- A step to the file. -/
theorem step_fileName (place : Place) : place.step fileName.toList = fileName :: place := by
  rw [Place.step, if_neg (by decide +kernel), String.ofList_toList]

/-- The file below a path has the names of the path in front of its own. -/
theorem names_join (a : Path) : (a.join ⟨fileName⟩).names = a.names ++ [fileName.toList] := by
  obtain ⟨init, hpieces, hinit⟩ := Path.exists_splitOn_join a not_mem_fileName
  rw [Path.names, hpieces, List.filter_append, hinit]
  rfl

/-- The path of the file below a path starts where the path does. -/
theorem start_join (fs : FileSystem) (a : Path) : fs.start (a.join ⟨fileName⟩) = fs.start a := by
  rw [FileSystem.start, FileSystem.start, Path.isAbsolute_join a not_mem_fileName]

/-- **The file below a path** is there if the path leads to a directory that holds it, and the
system takes its path. -/
theorem isFile_join :
    fs.isFile (a.join ⟨fileName⟩) = true ↔
      (a.join ⟨fileName⟩).Fits ∧ ∃ d, fs.Leads a d ∧ fs.Holds d fileName := by
  obtain ⟨init, hpieces, hinit⟩ := Path.exists_splitOn_join a not_mem_fileName
  have hvoid : Path.isVoid fileName.toList = false := by decide +kernel
  have hwalk :
      fs.walk (fs.start (a.join ⟨fileName⟩)) (splitOn '/' (a.join ⟨fileName⟩).text.toList) =
        fs.walk (fs.start a) a.names >>= (fs.enter · fileName.toList) := by
    rw [start_join, hpieces, FileSystem.walk_void, hinit, FileSystem.walk_concat]
  rw [FileSystem.isFile_iff]
  constructor
  · rintro ⟨content, hfind⟩
    obtain ⟨-, hfits, place, hplace, hnode⟩ := FileSystem.find_eq_ok_iff.mp hfind
    rw [hwalk] at hplace
    cases hdir : fs.walk (fs.start a) a.names with
    | error e =>
      rw [hdir] at hplace
      cases hplace
    | ok d =>
      rw [hdir] at hplace
      obtain ⟨hdirectory, hstep⟩ := FileSystem.enter_eq_ok hvoid hplace
      rw [hstep, step_fileName] at hnode
      exact ⟨hfits, d, ⟨hdir, hdirectory⟩, content, hnode⟩
  · rintro ⟨hfits, d, ⟨hdir, hdirectory⟩, content, hnode⟩
    have hstep := FileSystem.enter_step hdirectory hvoid (by rw [step_fileName]; exact hnode)
    rw [step_fileName] at hstep
    rw [hdir] at hwalk
    refine ⟨content, FileSystem.find_eq_ok_iff.mpr
      ⟨fun hempty => ?_, hfits, _, hwalk.trans hstep, hnode⟩⟩
    rw [hempty] at hpieces
    have hlast := congrArg List.getLast? hpieces
    rw [List.getLast?_concat] at hlast
    exact absurd hlast (by decide +kernel)

end Below

/-! ## The search -/

section Search

variable {fs : FileSystem} {start p a : Path}

/-- The paths above a path start where it does. -/
theorem start_of_mem_ancestors (ha : a ∈ start.ancestors) : fs.start a = fs.start start := by
  rw [FileSystem.start, FileSystem.start, (Path.names_of_mem_ancestors ha).2.1]

/-- The system takes the paths above with a path that it takes. -/
theorem fits_of_mem_ancestors (hfits : (start.join ⟨fileName⟩).Fits) (ha : a ∈ start.ancestors) :
    (a.join ⟨fileName⟩).Fits :=
  (Path.utf8ByteSize_join_of_mem_ancestors ha not_mem_fileName).trans_lt hfits

/-- The search, among the paths above. -/
theorem findFile_eq (fs : FileSystem) (start : Path) :
    findFile fs start =
      (start.ancestors.find? fun a => fs.isFile (a.join ⟨fileName⟩)).map (·.join ⟨fileName⟩) := by
  rw [findFile, List.find?_map]
  rfl

/-- **The search looks into the directories** that the paths above lead to, and nowhere else. -/
theorem findFile_eq_none_iff (fs : FileSystem) (start : Path) :
    findFile fs start = none ↔
      ∀ a ∈ start.ancestors, (a.join ⟨fileName⟩).Fits → ∀ d, fs.Leads a d →
        ¬ fs.Holds d fileName := by
  rw [findFile_eq, Option.map_eq_none_iff, List.find?_eq_none]
  refine forall₂_congr fun a ha => ?_
  rw [isFile_join]
  push Not
  rfl

/-- **What it finds** is below a path above that leads to the file's directory, and no path above
with more names leads to a directory with such a file. -/
theorem findFile_eq_some (h : findFile fs start = some p) :
    ∃ a ∈ start.ancestors, p = a.join ⟨fileName⟩ ∧ fs.isFile p = true ∧
      (∃ d, fs.Leads a d ∧ fs.Holds d fileName) ∧
      ∀ b ∈ start.ancestors, (b.join ⟨fileName⟩).Fits → ∀ d, fs.Leads b d →
        fs.Holds d fileName → b.names.length ≤ a.names.length := by
  rw [findFile_eq] at h
  obtain ⟨a, hfind, rfl⟩ := Option.map_eq_some_iff.mp h
  have hfile : fs.isFile (a.join ⟨fileName⟩) = true := by simpa using List.find?_some hfind
  refine ⟨a, List.mem_of_find?_eq_some hfind, rfl, hfile, (isFile_join.mp hfile).2,
    fun b hb hfits d hleads hholds => ?_⟩
  exact Path.find?_ancestors hfind hb (isFile_join.mpr ⟨hfits, d, hleads, hholds⟩)

end Search

end Config

/-! ## Upwards -/

/-- **A path climbs** if the paths above it lead to places at or above the one that it leads to. -/
def Path.Climbs (p : Path) (workingDirectory : Place) : Prop :=
  ∀ a ∈ p.ancestors, a.place workingDirectory <:+ p.place workingDirectory

namespace Config

/-- **The search looks upwards.** What it finds is a file with the name of configuration files, in
the directory that the path leads to or in one above it; and no directory between the two has such a
file. -/
def LooksUpwards (fs : FileSystem) (start : Path) : Prop :=
  ∀ p, findFile fs start = some p →
    fs.isFile p = true ∧ p.fileName = some fileName.toList ∧
    ∃ d, p.place fs.workingDirectory = fileName :: d ∧ d <:+ start.place fs.workingDirectory ∧
      fs.Holds d fileName ∧
      ∀ d', d <:+ d' → d' <:+ start.place fs.workingDirectory → fs.Holds d' fileName → d' = d

section Upwards

variable {fs : FileSystem} {start p : Path} {workingDirectory d : Place}

/-- The names of a path mean something. -/
theorem isVoid_of_mem_names {n : List Char} (h : n ∈ p.names) : Path.isVoid n = false := by
  simpa using (List.mem_filter.mp h).2

/-- Where a path leads to, by the start of the walk. -/
theorem place_eq (fs : FileSystem) (p : Path) :
    p.place fs.workingDirectory = p.names.foldl Place.step (fs.start p) := rfl

/-- **A path leads nowhere else** than its names say. -/
theorem eq_place_of_leads (h : fs.Leads p d) : d = p.place fs.workingDirectory :=
  FileSystem.walk_eq_ok (fun _ hn => isVoid_of_mem_names hn) h.1

/-- The file below a path is where the path leads to. -/
theorem place_join (a : Path) (workingDirectory : Place) :
    (a.join ⟨fileName⟩).place workingDirectory = fileName :: a.place workingDirectory := by
  rw [Path.place, Path.place, names_join, Path.isAbsolute_join a not_mem_fileName,
    List.foldl_append, List.foldl_cons, List.foldl_nil, step_fileName]

/-- The last name of the file below a path. -/
theorem fileName_join (a : Path) : (a.join ⟨fileName⟩).fileName = some fileName.toList := by
  rw [Path.fileName, names_join, List.getLast?_concat]
  decide +kernel

/-- A path climbs if its first names lead to places at or above the one that all of them lead to. -/
theorem climbs_iff (start : Path) (fs : FileSystem) :
    start.Climbs fs.workingDirectory ↔
      ∀ ns, ns <+: start.names →
        ns.foldl Place.step (fs.start start) <:+ start.place fs.workingDirectory := by
  constructor
  · intro h ns hns
    obtain ⟨a, ha, rfl⟩ := Path.exists_mem_ancestors hns
    rw [← start_of_mem_ancestors ha]
    exact h a ha
  · intro h a ha
    rw [place_eq, start_of_mem_ancestors ha]
    exact h a.names (Path.names_of_mem_ancestors ha).1

/-- **A path that climbs is searched upwards.** -/
theorem looksUpwards_of_climbs (hfits : (start.join ⟨fileName⟩).Fits)
    (hclimbs : start.Climbs fs.workingDirectory) : LooksUpwards fs start := by
  intro p hp
  obtain ⟨a, ha, rfl, hfile, ⟨d, hleads, hholds⟩, hlongest⟩ := findFile_eq_some hp
  obtain rfl := eq_place_of_leads hleads
  refine ⟨hfile, fileName_join a, _, place_join a _, hclimbs a ha, hholds,
    fun d' habove hbelow hholds' => ?_⟩
  -- Behind the names of the path found, the others come to the directory for the first time.
  obtain ⟨rest, hrest⟩ := (Path.names_of_mem_ancestors ha).1
  have hbase : a.place fs.workingDirectory = a.names.foldl Place.step (fs.start start) := by
    rw [place_eq, start_of_mem_ancestors ha]
  have hplace : start.place fs.workingDirectory =
      rest.foldl Place.step (a.place fs.workingDirectory) := by
    rw [hbase, ← List.foldl_append, hrest]
    rfl
  have hway : ∀ ms, ms <+: rest → ms.foldl Place.step (a.place fs.workingDirectory) <:+
      rest.foldl Place.step (a.place fs.workingDirectory) := by
    intro ms hms
    rw [← hplace, hbase, ← List.foldl_append]
    exact (climbs_iff start fs).mp hclimbs _ (hrest ▸ (List.prefix_append_right_inj _).mpr hms)
  obtain ⟨ms, hms, hfirst, hup⟩ := Place.exists_first hway habove (hplace ▸ hbelow)
  obtain ⟨b, hb, hnames⟩ := Path.exists_mem_ancestors
    (hrest ▸ (List.prefix_append_right_inj a.names).mpr hms : a.names ++ ms <+: start.names)
  have hleads' : fs.Leads b d' := by
    refine ⟨?_, hholds'.isDirectory⟩
    have hvoid : ∀ n ∈ ms, Path.isVoid n = false := fun n hn =>
      isVoid_of_mem_names (hrest ▸ List.mem_append_right _ (hms.subset hn))
    have hwalk := FileSystem.walk_of_isDirectory hvoid
      fun l hl => hholds'.isDirectory.of_suffix (hup l hl)
    rw [start_of_mem_ancestors hb, ← start_of_mem_ancestors ha, hnames, FileSystem.walk_append,
      hleads.1]
    exact hwalk.trans (congrArg _ hfirst)
  have hlength := hlongest b hb (fits_of_mem_ancestors hfits hb) d' hleads' hholds'
  rw [hnames, List.length_append] at hlength
  obtain rfl : ms = [] := List.length_eq_zero_iff.mp (by omega)
  exact hfirst.symm

/-- Among the initial segments for which something fails there is a shortest one. -/
theorem exists_shortest {α : Type} (P : List α → Prop) {l : List α} (h : ¬ P l) :
    ∃ m, m <+: l ∧ ¬ P m ∧ ∀ k, k <+: m → k ≠ m → P k := by
  induction hlen : l.length using Nat.strong_induction_on generalizing l with
  | _ n ih =>
    by_cases hall : ∀ k, k <+: l → k ≠ l → P k
    · exact ⟨l, List.prefix_refl l, h, hall⟩
    · push Not at hall
      obtain ⟨k, hk, hne, hfails⟩ := hall
      have hshorter : k.length < n :=
        hlen ▸ lt_of_le_of_ne hk.length_le fun heq => hne (hk.eq_of_length heq)
      obtain ⟨m, hm, hrest⟩ := ih k.length hshorter hfails rfl
      exact ⟨m, hm.trans hk, hrest⟩

/-- **Only paths that climb are searched upwards.** Otherwise there is a tree in which the only file
is where a path above leads to, beside the way. -/
theorem climbs_of_looksUpwards (hfits : (start.join ⟨fileName⟩).Fits)
    (hdirectory : ∀ n ∈ workingDirectory, Node.isEntryName n = true)
    (hnames : ∀ n ∈ start.names, n ≠ ['.', '.'] → Node.isEntryName (String.ofList n) = true)
    (h : ∀ root, LooksUpwards ⟨root, workingDirectory⟩ start) : start.Climbs workingDirectory := by
  let base : Place := if start.isAbsolute then [] else workingDirectory
  by_contra hnot
  rw [climbs_iff start ⟨.directory [], workingDirectory⟩] at hnot
  push Not at hnot
  obtain ⟨ns, hns, hbeside⟩ := hnot
  obtain ⟨ms, hms, hfirst, habove⟩ := exists_shortest
    (fun l => l.foldl Place.step base <:+ start.place workingDirectory) hbeside
  replace hms := hms.trans hns
  have hplaces : ∀ l, l <+: start.names → ∀ n ∈ l.foldl Place.step base,
      Node.isEntryName n = true := by
    intro l hl
    refine Place.forall_mem_foldl_step (fun n hn => ?_) fun n hn => hnames n (hl.subset hn)
    dsimp only [base] at hn
    split_ifs at hn
    · cases hn
    · exact hdirectory n hn
  obtain ⟨root, hroot⟩ := FileSystem.exists_root (hplaces _ (List.prefix_refl _)) (hplaces ms hms)
    isEntryName_fileName hfirst
  obtain ⟨hway, hholds, hone⟩ := hroot workingDirectory
  obtain ⟨a, ha, ham⟩ := Path.exists_mem_ancestors hms
  have hleads : FileSystem.Leads ⟨root, workingDirectory⟩ a (ms.foldl Place.step base) := by
    refine ⟨?_, hholds.isDirectory⟩
    rw [start_of_mem_ancestors ha, ham]
    refine FileSystem.walk_of_isDirectory (fun n hn => isVoid_of_mem_names (hms.subset hn))
      fun l hl => ?_
    by_cases heq : l = ms
    · rw [heq]
      exact hholds.isDirectory
    · exact hway.of_suffix (habove l hl heq)
  cases hfind : findFile ⟨root, workingDirectory⟩ start with
  | none =>
    have hnone := (findFile_eq_none_iff _ start).mp hfind a ha (fits_of_mem_ancestors hfits ha)
    exact hnone _ hleads hholds
  | some p =>
    obtain ⟨-, -, d, -, hbelow, hd, -⟩ := h root p hfind
    exact hfirst (hone d hd ▸ hbelow)

/-- **A path without two dots climbs,** and the paths above it lead to the directories from where it
starts to where it leads to. -/
theorem climbs_of_not_mem (fs : FileSystem) (h : ['.', '.'] ∉ start.names) :
    start.Climbs fs.workingDirectory ∧
    ∀ d, (∃ a ∈ start.ancestors, fs.Leads a d) ↔
      fs.start start <:+ d ∧ d <:+ start.place fs.workingDirectory ∧ fs.IsDirectory d := by
  have hclimbs : start.Climbs fs.workingDirectory := by
    rw [climbs_iff]
    rintro ns ⟨rest, hrest⟩
    rw [place_eq, ← hrest, List.foldl_append]
    exact Place.suffix_foldl_step fun hmem => h (hrest ▸ List.mem_append_right ns hmem)
  refine ⟨hclimbs, fun d => ⟨?_, ?_⟩⟩
  · rintro ⟨a, ha, hleads⟩
    obtain rfl := eq_place_of_leads hleads
    refine ⟨?_, hclimbs a ha, hleads.2⟩
    rw [← start_of_mem_ancestors ha]
    exact Place.suffix_foldl_step fun hmem => h ((Path.names_of_mem_ancestors ha).1.subset hmem)
  · rintro ⟨hbase, hplace, hdirectory⟩
    obtain ⟨ms, hms, hfirst, habove⟩ :=
      Place.exists_first ((climbs_iff start fs).mp hclimbs) hbase hplace
    obtain ⟨a, ha, ham⟩ := Path.exists_mem_ancestors hms
    refine ⟨a, ha, ?_, hdirectory⟩
    rw [start_of_mem_ancestors ha, ham, ← hfirst]
    exact FileSystem.walk_of_isDirectory (fun n hn => isVoid_of_mem_names (hms.subset hn))
      fun l hl => hdirectory.of_suffix (habove l hl)

/-- **The law of the search.** It comes to nothing if no path above leads to a directory with a
configuration file, of a path that the system takes. If it takes the longest one, then the search
looks upwards in all trees if the path climbs; and only then, if there can be directories of the
path's names. Paths without two dots climb, and for them the search goes through the directories
from the one that the path leads to up to the one that it starts from. -/
theorem findFile_law (start : Path) (workingDirectory : Place) :
    (∀ root, let fs : FileSystem := ⟨root, workingDirectory⟩
      findFile fs start = none ↔
        ∀ a ∈ start.ancestors, (a.join ⟨fileName⟩).Fits → ∀ d, fs.Leads a d →
          ¬ fs.Holds d fileName) ∧
    ((start.join ⟨fileName⟩).Fits → start.Climbs workingDirectory →
      ∀ root, LooksUpwards ⟨root, workingDirectory⟩ start) ∧
    ((start.join ⟨fileName⟩).Fits → (∀ n ∈ workingDirectory, Node.isEntryName n = true) →
      (∀ n ∈ start.names, n ≠ ['.', '.'] → Node.isEntryName (String.ofList n) = true) →
      (∀ root, LooksUpwards ⟨root, workingDirectory⟩ start) → start.Climbs workingDirectory) ∧
    (['.', '.'] ∉ start.names → start.Climbs workingDirectory ∧
      ∀ root d, let fs : FileSystem := ⟨root, workingDirectory⟩
        (∃ a ∈ start.ancestors, fs.Leads a d) ↔
          fs.start start <:+ d ∧ d <:+ start.place workingDirectory ∧ fs.IsDirectory d) := by
  refine ⟨fun root => findFile_eq_none_iff _ start,
    fun hfits hclimbs root => looksUpwards_of_climbs hfits hclimbs,
    climbs_of_looksUpwards, fun hdots => ⟨?_, fun root => ?_⟩⟩
  · exact (climbs_of_not_mem ⟨.directory [], workingDirectory⟩ hdots).1
  · exact (climbs_of_not_mem ⟨root, workingDirectory⟩ hdots).2

/-- From `/app/src`, in whose directory there is no such file, the file of `/app` is found. The path
`a/..` does not climb, so there is a tree in which it is not searched upwards. -/
theorem findFile_law_app :
    let src : Path := ⟨"/app/src"⟩
    let fs : FileSystem := ⟨.directory [("app", .directory
      [("codet.toml", .file ByteArray.empty), ("src", .directory [])])], ["work"]⟩
    (src.join ⟨fileName⟩).Fits ∧ ['.', '.'] ∉ src.names ∧ src.Climbs ["work"] ∧
    (∃ p, findFile fs src = some p ∧ p.place ["work"] = ["codet.toml", "app"]) ∧
    let back : Path := ⟨"a/.."⟩
    (back.join ⟨fileName⟩).Fits ∧
    (∀ n ∈ ["work"], Node.isEntryName n = true) ∧
    (∀ n ∈ back.names, n ≠ ['.', '.'] → Node.isEntryName (String.ofList n) = true) ∧
    ∃ root, ¬ LooksUpwards ⟨root, ["work"]⟩ back := by
  intro src fs
  have hfits : (src.join ⟨fileName⟩).Fits := by unfold Path.Fits; decide +kernel
  have hdots : ['.', '.'] ∉ src.names := by decide +kernel
  obtain ⟨hnone, hupwards, -, hplain⟩ := findFile_law src ["work"]
  obtain ⟨hclimbs, hleads⟩ := hplain hdots
  have happ : Node.isEntryName "app" = true := by decide +kernel
  have hsrc : Node.isEntryName "src" = true := by decide +kernel
  have hfile : Node.isEntryName "codet.toml" = true := isEntryName_fileName
  have hholds : fs.Holds ["app"] fileName :=
    ⟨ByteArray.empty, by simp [fs, FileSystem.node?, Node.child?, happ, hfile, fileName]⟩
  have hempty : ¬ fs.Holds ["src", "app"] fileName := by
    rintro ⟨content, hcontent⟩
    simp [fs, FileSystem.node?, Node.child?, happ, hsrc, hfile, fileName, List.lookup_cons]
      at hcontent
  have hstart : fs.start src <:+ ["app"] := by decide +kernel
  have hplace : src.place ["work"] = ["src", "app"] := by decide +kernel
  refine ⟨hfits, hdots, hclimbs, ?_, ?_⟩
  · obtain ⟨a, ha, hlead⟩ := (hleads fs.root ["app"]).mpr
      ⟨hstart, hplace ▸ List.suffix_cons _ _, hholds.isDirectory⟩
    cases hfind : findFile fs src with
    | none =>
      have hbelow := fits_of_mem_ancestors hfits ha
      exact absurd hholds ((hnone fs.root).mp hfind a ha hbelow ["app"] hlead)
    | some p =>
      obtain ⟨-, -, d, hp, hbelow, hd, hnearest⟩ := hupwards hfits hclimbs fs.root p hfind
      refine ⟨p, rfl, ?_⟩
      change d <:+ src.place ["work"] at hbelow
      rw [hplace] at hbelow
      rcases List.suffix_cons_iff.mp hbelow with rfl | habove
      · exact absurd hd hempty
      · have heq := hnearest ["app"] habove (hplace ▸ List.suffix_cons _ _) hholds
        rw [← heq] at hp
        exact hp
  · intro back
    have hback : (back.join ⟨fileName⟩).Fits := by unfold Path.Fits; decide +kernel
    have hwork : ∀ n ∈ ["work"], Node.isEntryName n = true := by decide +kernel
    have hnames : ∀ n ∈ back.names, n ≠ ['.', '.'] → Node.isEntryName (String.ofList n) = true := by
      decide +kernel
    refine ⟨hback, hwork, hnames, ?_⟩
    by_contra hall
    push Not at hall
    have hback' := (findFile_law back ["work"]).2.2.1 hback hwork hnames hall
    have hbeside :=
      (climbs_iff back ⟨.directory [], ["work"]⟩).mp hback' [['a']] (by decide +kernel)
    revert hbeside
    decide +kernel

end Upwards

end Config

end Stencil
