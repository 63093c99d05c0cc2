import Mathlib.Data.List.Basic
import Stencil.Include
set_option autoImplicit false

/-!
# Requests for content

A resolver may give content and mark a request as handled in any order and as often as it likes;
only the last word on each counts. A blank name is refused before the resolver is asked, and a
request of any other name is shown to it once.

## Main definitions

* `Stencil.IncludeAction.flag?`, `text?` — what an action says on the mark and on the content.
* `Stencil.IncludeAction.last?` — the last word of a list of actions.
* `Stencil.resolveIncludeIn` — the content for a name, from a resolver with effects.

## Main results

* `Stencil.IncludeRequest.applyAll_eq` — a request after any actions.
* `Stencil.resolveIncludeIn_of_blank`, `resolveIncludeIn_of_not_blank` — when a resolver is asked.
* `Stencil.NameMap.find?_ofList` — the last entry of a name counts.
* `Stencil.resolveInclude_contract` — what comes of a request, whatever the resolver does.
-/

namespace Stencil

/-! ## The last word -/

namespace IncludeAction

/-- What an action says on whether the request is handled. -/
def flag? : IncludeAction → Option Bool
  | setContent _ => none
  | setHandled handled => some handled
  | fulfill _ => some true

/-- The content that an action gives. -/
def text? : IncludeAction → Option String
  | setContent content => some content
  | setHandled _ => none
  | fulfill content => some content

/-- **The last word of a list of actions** on what they may say or leave open. -/
def last? {α : Type} (said : IncludeAction → Option α) (actions : List IncludeAction) : Option α :=
  (actions.filterMap said).getLast?

/-- What is said later counts. -/
theorem last?_cons {α : Type} (said : IncludeAction → Option α) (a : IncludeAction)
    (actions : List IncludeAction) :
    last? said (a :: actions) = (last? said actions).or (said a) := by
  unfold last?
  cases hsaid : said a with
  | none => rw [List.filterMap_cons_none hsaid, Option.or_none]
  | some x =>
    rw [List.filterMap_cons_some hsaid, List.getLast?_cons]
    cases (actions.filterMap said).getLast? <;> rfl

end IncludeAction

open IncludeAction (flag? text? last?)

namespace IncludeRequest

/-- One action leaves the name, and what it says nothing on. -/
theorem apply_eq (r : IncludeRequest) (a : IncludeAction) :
    r.apply a = ⟨r.name, ((text? a).map Text.trimString).getD r.content,
      (flag? a).getD r.handled⟩ := by
  cases a <;> rfl

/-- **A request after any actions:** the last content that was given counts, trimmed, and the last
word on whether the request is handled. -/
theorem applyAll_eq (r : IncludeRequest) (actions : List IncludeAction) :
    r.applyAll actions = ⟨r.name, ((last? text? actions).map Text.trimString).getD r.content,
      (last? flag? actions).getD r.handled⟩ := by
  induction actions generalizing r with
  | nil => rfl
  | cons a actions ih =>
    rw [applyAll, List.foldl_cons]
    refine (ih (r.apply a)).trans ?_
    rw [apply_eq, IncludeAction.last?_cons, IncludeAction.last?_cons]
    cases last? text? actions <;> cases last? flag? actions <;> rfl

/-- A request keeps its name. -/
theorem applyAll_name (r : IncludeRequest) (actions : List IncludeAction) :
    (r.applyAll actions).name = r.name := by
  rw [applyAll_eq]

/-- What a request has come to. -/
def outcome (r : IncludeRequest) : Except Error String :=
  if r.handled then .ok r.content else .error (.unresolvedInclude r.name)

end IncludeRequest

/-! ## Asking a resolver -/

/-- The error for a blank name. -/
def blankName : Error := .invalidArgument "name" "include name must not be blank"

section Asking

variable {m : Type → Type} [Monad m]

/-- **The content for a name, from a resolver with effects.** What the resolver does when it is
asked, and whether it is, can be seen in the monad. -/
def resolveIncludeIn (ask : Option (String → m (List IncludeAction))) (name : String) :
    m (Except Error String) :=
  match IncludeRequest.new name with
  | .error e => pure (.error e)
  | .ok request => match ask with
    | some ask => do
      let actions ← ask name
      return (request.applyAll actions).outcome
    | none => pure request.outcome

/-- Without effects this is the content for a name. -/
theorem run_resolveIncludeIn (resolver : Option Resolver) (name : String) :
    (resolveIncludeIn (m := Id) resolver name).run = resolveInclude resolver name := by
  rw [resolveIncludeIn, resolveInclude, IncludeRequest.new]
  split_ifs
  · rfl
  · cases resolver with
    | none => rfl
    | some resolver =>
      show (IncludeRequest.applyAll ⟨name, "", false⟩ (resolver name)).outcome = _
      rw [IncludeRequest.outcome, IncludeRequest.applyAll_name]

/-- **A blank name is refused without asking.** -/
theorem resolveIncludeIn_of_blank {name : String} (h : Text.isBlankString name = true)
    (ask : Option (String → m (List IncludeAction))) :
    resolveIncludeIn ask name = pure (.error blankName) := by
  rw [resolveIncludeIn, IncludeRequest.new, if_pos h]
  rfl

/-- What the actions on a new request come to. -/
def outcomeOf (name : String) (actions : List IncludeAction) : Except Error String :=
  if last? flag? actions = some true then
    .ok (((last? text? actions).map Text.trimString).getD "")
  else .error (.unresolvedInclude name)

/-- **Any other name is asked for once,** and what comes of it hangs on the last words. -/
theorem resolveIncludeIn_of_not_blank [LawfulMonad m] {name : String}
    (h : Text.isBlankString name = false) (ask : String → m (List IncludeAction)) :
    resolveIncludeIn (some ask) name = outcomeOf name <$> ask name := by
  have houtcome (actions : List IncludeAction) :
      (IncludeRequest.applyAll ⟨name, "", false⟩ actions).outcome = outcomeOf name actions := by
    rw [IncludeRequest.applyAll_eq, IncludeRequest.outcome, outcomeOf]
    cases hlast : last? flag? actions with
    | none => rfl
    | some handled => cases handled <;> rfl
  rw [resolveIncludeIn, IncludeRequest.new, if_neg (by simp [h]), map_eq_pure_bind]
  exact bind_congr fun actions => congrArg pure (houtcome actions)

end Asking

/-! ## What comes of a request -/

/-- **The content for a name** that is not blank, from a resolver. -/
theorem resolveInclude_some {name : String} (h : Text.isBlankString name = false)
    (resolver : Resolver) :
    resolveInclude (some resolver) name = outcomeOf name (resolver name) := by
  rw [← run_resolveIncludeIn]
  exact congrArg Id.run (resolveIncludeIn_of_not_blank (m := Id) h resolver)

/-- A content that is given has no blank at its ends. -/
theorem isBlank_of_resolveInclude {resolver : Option Resolver} {name content : String}
    (h : resolveInclude resolver name = .ok content) :
    (∀ c ∈ content.toList.head?, Text.isBlank c = false) ∧
    ∀ c ∈ content.toList.getLast?, Text.isBlank c = false := by
  have hname : Text.isBlankString name = false := by
    by_contra hblank
    rw [resolveInclude, IncludeRequest.new, if_pos (by simpa using hblank)] at h
    cases h
  cases resolver with
  | none =>
    rw [resolveInclude, IncludeRequest.new, if_neg (by simp [hname])] at h
    cases h
  | some resolver =>
    rw [resolveInclude_some hname, outcomeOf] at h
    split_ifs at h
    cases h
    cases last? text? (resolver name) with
    | none => simp
    | some content =>
      simp only [Option.map_some, Option.getD_some, Text.trimString, String.toList_ofList]
      exact ⟨fun _ => Text.isBlank_head?_trim, fun _ => Text.isBlank_getLast?_trim⟩

/-- A table answers a name that it has, and no other. -/
theorem outcomeOf_table (table : StaticIncludes) (name : String) :
    outcomeOf name (table.resolver name) =
      match NameMap.find? table name with
      | some content => .ok (Text.trimString content)
      | none => .error (.unresolvedInclude name) := by
  rw [StaticIncludes.resolver]
  cases NameMap.find? table name <;> rfl

/-- **What comes of a request, whatever the resolver does.** A blank name is refused, and the
resolver is not asked. Any other name is unresolved if there is no resolver, or if the last word of
the resolver on it is not that the request is handled; and otherwise it has the content that was
given last, trimmed, or none. So no content begins or ends with a blank. A table answers a name with
the content that was put in for it last, and no other name. -/
theorem resolveInclude_contract (name : String) :
    (Text.isBlankString name = true →
      (∀ resolver, resolveInclude resolver name = .error blankName) ∧
      ∀ {m : Type → Type} [Monad m] (ask : Option (String → m (List IncludeAction))),
        resolveIncludeIn ask name = pure (.error blankName)) ∧
    (Text.isBlankString name = false →
      resolveInclude none name = .error (.unresolvedInclude name) ∧
      (∀ resolver : Resolver, last? flag? (resolver name) ≠ some true →
        resolveInclude (some resolver) name = .error (.unresolvedInclude name)) ∧
      (∀ resolver : Resolver, last? flag? (resolver name) = some true →
        resolveInclude (some resolver) name =
          .ok ((last? text? (resolver name)).elim "" Text.trimString)) ∧
      (∀ (before after : List (String × String)) (content : String), (∀ e ∈ after, e.1 ≠ name) →
        resolveInclude
            (some (StaticIncludes.resolver (.ofList (before ++ (name, content) :: after)))) name =
          .ok (Text.trimString content)) ∧
      ∀ entries : List (String × String), (∀ e ∈ entries, e.1 ≠ name) →
        resolveInclude (some (StaticIncludes.resolver (.ofList entries))) name =
          .error (.unresolvedInclude name)) ∧
    ∀ resolver content, resolveInclude resolver name = .ok content →
      (∀ c ∈ content.toList.head?, Text.isBlank c = false) ∧
      ∀ c ∈ content.toList.getLast?, Text.isBlank c = false := by
  refine ⟨fun hblank => ⟨fun resolver => ?_, fun ask => resolveIncludeIn_of_blank hblank ask⟩,
    fun hname => ⟨?_, fun resolver hlast => ?_, fun resolver hlast => ?_,
      fun before after content hafter => ?_, fun entries hentries => ?_⟩,
    fun resolver content => isBlank_of_resolveInclude⟩
  · rw [← run_resolveIncludeIn, resolveIncludeIn_of_blank hblank]
    rfl
  · rw [resolveInclude, IncludeRequest.new, if_neg (by simp [hname])]
    rfl
  · rw [resolveInclude_some hname, outcomeOf, if_neg hlast]
  · rw [resolveInclude_some hname, outcomeOf, if_pos hlast]
    cases last? text? (resolver name) <;> rfl
  · rw [resolveInclude_some hname, outcomeOf_table, NameMap.find?_ofList_of_last before _ hafter]
  · rw [resolveInclude_some hname, outcomeOf_table, NameMap.find?_ofList_of_forall_ne hentries]

/-- A name of two blanks is refused. A request that is fulfilled, revoked, given other content and
marked again has the other content; where it is revoked last, it is unresolved. Of two contents of
one name in a table the second counts. -/
theorem resolveInclude_contract_revoked :
    let answering : Resolver := fun _ =>
      [.fulfill "a", .setHandled false, .setContent " b\n", .setHandled true]
    let revoking : Resolver := fun _ => [.fulfill "a", .setHandled false]
    resolveInclude (some answering) " \t" = .error blankName ∧
    resolveInclude (some answering) "n" = .ok "b" ∧
    resolveInclude (some revoking) "n" = .error (.unresolvedInclude "n") ∧
    resolveInclude (some (StaticIncludes.resolver
      (.ofList [("n", "first"), ("n", "second "), ("o", "")]))) "n" = .ok "second" ∧
    resolveInclude (some (StaticIncludes.resolver (.ofList [("o", "")]))) "n" =
      .error (.unresolvedInclude "n") := by
  intro answering revoking
  obtain ⟨-, hunhandled, hhandled, htable, hother⟩ :=
    (resolveInclude_contract "n").2.1 (by decide)
  refine ⟨((resolveInclude_contract " \t").1 (by decide)).1 _, ?_, hunhandled revoking (by decide),
    ?_, hother _ (by decide)⟩
  · rw [hhandled answering (by decide)]
    exact congrArg Except.ok (by decide)
  · refine (htable [("n", "first")] [("o", "")] "second " (by decide)).trans ?_
    exact congrArg Except.ok (by decide)

end Stencil
