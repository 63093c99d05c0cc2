import Mathlib
import Stencil.Lua.Library.Strings
set_option autoImplicit false

/-!
# The segments of a path

A dotted path is searched for runs of bytes without a dot, one after another. What the search finds
are the pieces between the dots, but for those that are empty.

## Main definitions

* `Stencil.Lua.Search.Finds` — what a search finds, one text after another.
* `Stencil.Lua.segmentSearch` — the search for the segments of a path.
* `Stencil.Lua.segments` — the pieces between the dots.

## Main results

* `Stencil.Lua.finds_segments` — the search finds the segments.
* `Stencil.Lua.length_segments_ofText` — there are no more of them than characters, and one.
-/

namespace Stencil.Lua

/-! ## What a search finds -/

/-- **What a search finds,** one text after another. -/
def Search.Finds : Search → List Bytes → Prop
  | s, [] => s.next = .ok none
  | s, b :: bs => ∃ found s', s.next = .ok (some (found, s')) ∧
      matchValues s'.subject found = .ok [.string b] ∧ s'.Finds bs

/-- What a search finds depends on how it goes on. -/
theorem Search.Finds.congr {s s' : Search} (h : s.next = s'.next) {keys : List Bytes}
    (hfinds : s'.Finds keys) : s.Finds keys := by
  cases keys with
  | nil => exact h.trans hfinds
  | cons key keys =>
    obtain ⟨found, t, hnext, hvalues, hrest⟩ := hfinds
    exact ⟨found, t, h.trans hnext, hvalues, hrest⟩

/-! ## Segments -/

/-- The byte of a dot. -/
def dot : UInt8 := Bytes.byteOf '.'

/-- **The segments of a path:** the pieces between the dots that are not empty. -/
def segments (path : Bytes) : List Bytes := (path.splitOn dot).filter (· ≠ [])

/-- A path without bytes has no segment. -/
@[simp] theorem segments_nil : segments [] = [] := rfl

/-- A dot in front adds no segment. -/
theorem segments_dot (path : Bytes) : segments (dot :: path) = segments path := by
  have hsplit : ([] ++ dot :: path).splitOn dot = [] :: path.splitOn dot :=
    List.splitOnP_append_cons_of_forall_mem (by simp) dot (by simp) path
  rw [List.nil_append] at hsplit
  simp [segments, hsplit]

/-- **The bytes up to the first dot** are the first segment. -/
theorem segments_word (b : UInt8) (path : Bytes) (hb : b ≠ dot) :
    segments (b :: path) = (b :: path).takeWhile (· ≠ dot) ::
      segments ((b :: path).dropWhile (· ≠ dot)) := by
  have hword : ∀ c ∈ (b :: path).takeWhile (· ≠ dot), (c == dot) = false := by
    intro c hc
    simpa using List.mem_takeWhile_imp hc
  have hne : (b :: path).takeWhile (· ≠ dot) ≠ [] := by simp [hb]
  have hpath := List.takeWhile_append_dropWhile (p := (· ≠ dot)) (l := b :: path)
  generalize (b :: path).takeWhile (· ≠ dot) = word at hword hne hpath ⊢
  cases hrest : (b :: path).dropWhile (· ≠ dot) with
  | nil =>
    rw [hrest, List.append_nil] at hpath
    have hsplit : word.splitOn dot = [word] := List.splitOnP_eq_singleton hword
    rw [← hpath, segments_nil, segments, hsplit]
    simp [hne]
  | cons c rest =>
    have hc : c = dot := by
      have hhead := List.head?_dropWhile_not (fun c : UInt8 => decide (c ≠ dot)) (b :: path)
      rw [hrest] at hhead
      simpa using hhead
    subst hc
    rw [hrest] at hpath
    have hsplit : (word ++ dot :: rest).splitOn dot = word :: rest.splitOn dot :=
      List.splitOnP_append_cons_of_forall_mem hword dot (by simp) rest
    rw [← hpath, segments_dot, segments, hsplit]
    simp [hne, segments]

/-- **There are no more segments than dots, and one.** -/
theorem length_segments_le (path : Bytes) : (segments path).length ≤ path.count dot + 1 := by
  have hpieces : (path.splitOn dot).length = path.count dot + 1 := by
    induction path with
    | nil => rfl
    | cons b path ih =>
      rw [List.splitOn, List.splitOnP_cons_eq_if_modifyHead, List.count_cons]
      split
      · rw [List.length_cons]
        exact congrArg (· + 1) ih
      · rw [List.length_modifyHead]
        exact ih
  exact (List.length_filter_le _ _).trans_eq hpieces

/-- There is at most one dot among the bytes of a character. -/
theorem count_dot_le (c : Char) : (String.utf8EncodeChar c).count dot ≤ 1 := by
  -- The bytes of a character of more than one byte are all large.
  have hlarge (n low : Nat) (hlow : 128 ≤ low) (hn : n + low < 256) :
      dot ≠ UInt8.ofNat (n + low) := by
    intro heq
    have hnat := congrArg UInt8.toNat heq
    rw [UInt8.toNat_ofNat', Nat.mod_eq_of_lt hn] at hnat
    have hdot : dot.toNat = 46 := rfl
    omega
  unfold String.utf8EncodeChar
  dsimp only
  split_ifs
  · exact List.count_le_length
  all_goals
    rw [List.count_eq_zero_of_not_mem]
    · exact Nat.zero_le _
    · simp only [List.mem_cons, List.not_mem_nil, or_false, not_or]
      repeat' constructor
      all_goals exact hlarge _ _ (by omega) (by omega)

/-- A path has no more segments than characters, and one. -/
theorem length_segments_ofText (path : String) :
    (segments (Bytes.ofText path)).length ≤ path.length + 1 := by
  have hdots (s : List Char) : (Bytes.ofChars s).count dot ≤ s.length := by
    induction s with
    | nil => exact Nat.zero_le _
    | cons c s ih =>
      rw [Bytes.ofChars, List.flatMap_cons, List.count_append, List.length_cons, Nat.add_comm]
      exact Nat.add_le_add ih (count_dot_le c)
  exact (length_segments_le _).trans (Nat.succ_le_succ (hdots path.toList))

/-! ## Matching a segment -/

/-- The bytes other than a dot. -/
def undotted : ByteClass := .set [.byte dot] true

/-- Which bytes these are. -/
theorem contains_undotted (b : UInt8) : undotted.contains b = decide (b ≠ dot) := by
  rw [undotted, ByteClass.contains, ByteClass.someContains, ByteClass.someContains,
    ByteClass.contains, Bool.or_false, Bool.bne_true]
  by_cases hb : b = dot
  · simp [hb]
  · simp [hb, Ne.symm hb]

/-- The places behind bytes of a set end behind the last that can be reached. -/
theorem getLast?_steps (s : ByteClass) (n : Nat) (c : Pattern.Cursor) (h : c.rest.length ≤ n) :
    ∃ d, (Pattern.Cursor.steps s n c).getLast? = some d ∧
      d.position = c.position + (c.rest.takeWhile s.contains).length := by
  induction n generalizing c with
  | zero =>
    have hrest : c.rest = [] := List.eq_nil_of_length_eq_zero (by omega)
    exact ⟨c, rfl, by simp [hrest]⟩
  | succ n ih =>
    obtain ⟨position, before, rest⟩ := c
    cases rest with
    | nil => exact ⟨_, rfl, rfl⟩
    | cons b rest =>
      by_cases hb : s.contains b = true
      · let e : Pattern.Cursor := ⟨position + 1, b, rest⟩
        have hstep : Pattern.Cursor.step s ⟨position, before, b :: rest⟩ = some e := by
          simp [Pattern.Cursor.step, hb, Pattern.Cursor.next, e]
        obtain ⟨d, hlast, hposition⟩ := ih e (by simpa using h)
        refine ⟨d, ?_, ?_⟩
        · rw [Pattern.Cursor.steps, hstep]
          simp [List.getLast?_cons, hlast]
        · show d.position = position + ((b :: rest).takeWhile s.contains).length
          rw [hposition, List.takeWhile_cons_of_pos hb, List.length_cons, Nat.add_comm _ 1,
            ← Nat.add_assoc]
      · have hstep : Pattern.Cursor.step s ⟨position, before, b :: rest⟩ = none := by
          simp [Pattern.Cursor.step, hb]
        refine ⟨⟨position, before, b :: rest⟩, ?_, by simp [hb]⟩
        rw [Pattern.Cursor.steps, hstep]
        rfl

/-- The pattern of a segment. -/
def segmentPattern : Bytes := Bytes.ofText "[^%.]+"

/-- The pattern of a segment asks for one byte without a dot at least. -/
theorem readItems_segmentPattern :
    Pattern.readItems segmentPattern.length (Bytes.numbered segmentPattern) =
      .ok [.class undotted .atLeastOnce] := by
  cbv

/-- **A segment at a place** ends in front of the next dot. -/
theorem matchAt_segment (subject : Bytes) (start : Nat) :
    Pattern.matchAt ⟨false, [.class undotted .atLeastOnce]⟩ subject start =
      if (subject.drop start).takeWhile (· ≠ dot) = [] then none
      else some ⟨start, start + ((subject.drop start).takeWhile (· ≠ dot)).length, []⟩ := by
  have hcontains : undotted.contains = fun b => decide (b ≠ dot) := funext contains_undotted
  unfold Pattern.matchAt
  dsimp only
  rw [List.length_singleton, show 1 + subject.length + 1 = subject.length + 1 + 1 by omega,
    Pattern.run]
  unfold Pattern.Cursor.step Pattern.Cursor.ofPosition
  dsimp only
  cases hrest : subject.drop start with
  | nil => simp
  | cons b rest =>
    by_cases hb : b = dot
    · simp [contains_undotted, hb]
    · obtain ⟨d, hlast, hposition⟩ := getLast?_steps undotted rest.length ⟨start + 1, b, rest⟩
        le_rfl
      have hword : (b :: rest).takeWhile (· ≠ dot) = b :: rest.takeWhile (· ≠ dot) :=
        List.takeWhile_cons_of_pos (by simpa using hb)
      rw [hcontains] at hposition
      obtain ⟨more, hsteps⟩ := List.getLast?_eq_some_iff.mp hlast
      have hstop : start + (b :: rest.takeWhile (· ≠ dot)).length = d.position := by
        rw [hposition, List.length_cons, Nat.add_comm _ 1, ← Nat.add_assoc]
      rw [hword, if_neg (List.cons_ne_nil _ _), hstop]
      simp only [contains_undotted, hb, ne_eq, not_false_eq_true, decide_true, if_true,
        Pattern.Cursor.next, List.headD_cons, List.tail_cons, hsteps, List.reverse_append,
        List.reverse_singleton, List.singleton_append, List.findSome?_cons, Pattern.run,
        Option.map_some]

/-! ## The search -/

/-- The search for the segments of a path. -/
def segmentSearch (path : Bytes) : Search := ⟨path, segmentPattern, 0, none⟩

/-- The search for the segments of a path from a place on. -/
def segmentSearchFrom (path : Bytes) (start : Nat) (last : Option Nat) : Search :=
  ⟨path, segmentPattern, start, last⟩

section Search

variable {path : Bytes} {start : Nat} {last : Option Nat}

/-- Where a search goes on is not looked at behind it. -/
theorem Search.nextFrom_congr {s s' : Search} (hsubject : s.subject = s'.subject)
    (hlast : s.last = s'.last) (p : Pattern) (more start : Nat) :
    s.nextFrom p more start = s'.nextFrom p more start := by
  induction more generalizing start with
  | zero => rfl
  | succ more ih => rw [Search.nextFrom, Search.nextFrom, hsubject, hlast, ih]

/-- How the search for segments goes on. -/
theorem next_segments :
    (segmentSearchFrom path start last).next =
      .ok (((segmentSearchFrom path start last).nextFrom ⟨false, [.class undotted .atLeastOnce]⟩
        (path.length + 1 - start) start).map
          fun m => (m, segmentSearchFrom path m.stop (some m.stop))) := by
  have hitems : Pattern.readItems (segmentSearchFrom path start last).pattern.length
      (Bytes.numbered (segmentSearchFrom path start last).pattern) =
        .ok [.class undotted .atLeastOnce] := readItems_segmentPattern
  rw [Search.next, hitems]
  rfl

/-- There is no segment at the end of the path. -/
theorem nextFrom_end (hrest : path.drop start = []) (s : Search) (hs : s.subject = path)
    (more : Nat) : s.nextFrom ⟨false, [.class undotted .atLeastOnce]⟩ more start = none := by
  induction more generalizing start with
  | zero => rfl
  | succ more ih =>
    have hnext : path.drop (start + 1) = [] := by
      rw [List.drop_eq_nil_iff] at hrest ⊢
      omega
    rw [Search.nextFrom, hs, matchAt_segment, hrest]
    exact ih hnext

/-- A dot is passed over. -/
theorem next_dot {rest : Bytes} (hrest : path.drop start = dot :: rest) :
    (segmentSearchFrom path start last).next = (segmentSearchFrom path (start + 1) last).next := by
  have hstart : start < path.length := by
    refine Nat.lt_of_not_le fun hle => ?_
    rw [List.drop_of_length_le hle] at hrest
    cases hrest
  have hnone : Pattern.matchAt ⟨false, [.class undotted .atLeastOnce]⟩
      (segmentSearchFrom path start last).subject start = none :=
    (matchAt_segment path start).trans (by simp [hrest])
  have hnext : (segmentSearchFrom path start last).nextFrom
        ⟨false, [.class undotted .atLeastOnce]⟩ (path.length + 1 - (start + 1)) (start + 1) =
      (segmentSearchFrom path (start + 1) last).nextFrom
        ⟨false, [.class undotted .atLeastOnce]⟩ (path.length + 1 - (start + 1)) (start + 1) := by
    apply Search.nextFrom_congr <;> rfl
  rw [next_segments, next_segments, ← hnext,
    show path.length + 1 - start = path.length + 1 - (start + 1) + 1 by omega, Search.nextFrom,
    hnone]

/-- **The first byte that is no dot** begins the next segment. -/
theorem next_word {b : UInt8} {rest : Bytes} (hrest : path.drop start = b :: rest) (hb : b ≠ dot)
    (hlast : ∀ n, last = some n → n ≤ start) {stop : Nat}
    (hstop : stop = start + ((b :: rest).takeWhile (· ≠ dot)).length) :
    (segmentSearchFrom path start last).next =
      .ok (some (⟨start, stop, []⟩, segmentSearchFrom path stop (some stop))) := by
  have hne : (b :: rest).takeWhile (· ≠ dot) ≠ [] := by simp [hb]
  have hmatch : Pattern.matchAt ⟨false, [.class undotted .atLeastOnce]⟩
      (segmentSearchFrom path start last).subject start = some ⟨start, stop, []⟩ := by
    refine (matchAt_segment path start).trans ?_
    rw [hrest, if_neg hne, hstop]
  have hnew : some stop ≠ (segmentSearchFrom path start last).last := by
    intro heq
    have hle := hlast stop heq.symm
    have hpos := List.length_pos_iff.mpr hne
    omega
  have hstart : start < path.length := by
    refine Nat.lt_of_not_le fun hle => ?_
    rw [List.drop_of_length_le hle] at hrest
    cases hrest
  rw [next_segments, show path.length + 1 - start = path.length - start + 1 by omega,
    Search.nextFrom, hmatch]
  dsimp only
  rw [if_neg hnew]
  rfl

/-- **The search for segments finds them,** if it has not passed the place from which it goes on.

**Proof sketch.** Induction on what is left of the path: at its end nothing is found, a dot is
passed over, and any other byte begins a segment, which ends in front of the next dot. -/
theorem finds_segments_from (hlast : ∀ n, last = some n → n ≤ start) :
    (segmentSearchFrom path start last).Finds (segments (path.drop start)) := by
  induction h : (path.drop start).length using Nat.strong_induction_on generalizing start last with
  | _ n ih =>
    subst h
    cases hrest : path.drop start with
    | nil =>
      rw [segments_nil, Search.Finds, next_segments, nextFrom_end hrest _ rfl]
      rfl
    | cons b rest =>
      by_cases hb : b = dot
      · subst hb
        have htail : rest = path.drop (start + 1) := by
          rw [← List.tail_drop, hrest, List.tail_cons]
        rw [segments_dot, htail]
        refine .congr (next_dot hrest) (ih _ ?_ (fun n hn => (hlast n hn).trans (by omega)) rfl)
        rw [hrest, htail, List.length_cons]
        omega
      · let word := (b :: rest).takeWhile (· ≠ dot)
        have hpos : 0 < word.length := by simp [word, hb]
        have hpath : word ++ (b :: rest).dropWhile (· ≠ dot) = path.drop start := by
          rw [hrest]
          exact List.takeWhile_append_dropWhile
        have hdrop : path.drop (start + word.length) = (b :: rest).dropWhile (· ≠ dot) := by
          rw [← List.drop_drop, ← hpath, List.drop_left]
        have hslice : slice path (start + 1) (start + word.length) = word := by
          rw [slice, List.drop_take, Nat.add_sub_cancel, ← hpath]
          simp
        rw [segments_word b rest hb]
        refine ⟨_, _, next_word hrest hb hlast rfl,
          congrArg (fun b => Except.ok [Value.string b]) hslice, ?_⟩
        rw [← hdrop]
        refine ih _ ?_ (by rintro _ ⟨⟩; exact le_rfl) rfl
        rw [hdrop, ← hpath, List.length_append]
        omega

/-- **The search for the segments of a path** finds them. -/
theorem finds_segments (path : Bytes) : (segmentSearch path).Finds (segments path) := by
  have hall : (segmentSearchFrom path 0 none).Finds (segments (path.drop 0)) :=
    finds_segments_from (by simp)
  exact hall

end Search

end Stencil.Lua
