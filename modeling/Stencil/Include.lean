import Stencil.Error
import Stencil.NameMap
import Stencil.Text.Blank
set_option autoImplicit false

/-!
# Includes

A template asks for named content when it is rendered. The request is shown to a resolver, which
may give content and may mark the request as handled; a request that nobody handles fails.

## Main definitions

* `Stencil.IncludeRequest` — a name, the content so far, and whether it has been handled.
* `Stencil.IncludeAction` — what can be done to a request.
* `Stencil.Resolver` — a choice of actions for each name.
* `Stencil.StaticIncludes` — a table of contents, as a resolver.
* `Stencil.resolveInclude` — the content for a name.
-/

namespace Stencil

/-! ## Requests -/

/-- **A request for content.** -/
structure IncludeRequest where
  name : String
  content : String
  handled : Bool
  deriving DecidableEq, Repr

/-- **What can be done to a request.** -/
inductive IncludeAction where
  /-- Give content, which is trimmed. -/
  | setContent (content : String)
  /-- Say whether the request is handled. -/
  | setHandled (handled : Bool)
  /-- Give content and say that the request is handled. -/
  | fulfill (content : String)
  deriving DecidableEq, Repr

namespace IncludeRequest

/-- A new request. Its name must not be blank. -/
def new (name : String) : Except Error IncludeRequest :=
  if Text.isBlankString name then
    .error (.invalidArgument "name" "include name must not be blank")
  else .ok ⟨name, "", false⟩

/-- The request after an action. -/
def apply (r : IncludeRequest) : IncludeAction → IncludeRequest
  | .setContent content => { r with content := Text.trimString content }
  | .setHandled handled => { r with handled }
  | .fulfill content => { r with content := Text.trimString content, handled := true }

/-- The request after actions, in order. -/
def applyAll (r : IncludeRequest) (actions : List IncludeAction) : IncludeRequest :=
  actions.foldl apply r

end IncludeRequest

/-! ## Resolvers -/

/-- **A resolver:** the actions that it takes on a request, by the name asked for. -/
abbrev Resolver := String → List IncludeAction

/-- **A table of contents.** -/
abbrev StaticIncludes := NameMap String

/-- The resolver that fulfills the names of a table. -/
def StaticIncludes.resolver (table : StaticIncludes) : Resolver := fun name =>
  match NameMap.find? table name with
  | some content => [.fulfill content]
  | none => []

/-- **The content for a name,** from a resolver if there is one. -/
def resolveInclude (resolver : Option Resolver) (name : String) : Except Error String :=
  match IncludeRequest.new name with
  | .error e => .error e
  | .ok request =>
    let request := match resolver with
      | some r => request.applyAll (r name)
      | none => request
    if request.handled then .ok request.content else .error (.unresolvedInclude name)

end Stencil
