import Stencil.Proofs.Lua.Layout
import Stencil.Lua.Reader
import Stencil.Lua.Scope
set_option autoImplicit false

/-!
# The statements of a program

The program for a template of literals, includes and values has the statements of the prelude, one
statement for each import, the function that renders, with one statement for each portion of the
template, and the function of the state that it gives.

## Main definitions

* `Stencil.Lua.Piece` — a literal or an include.
* `Stencil.Lua.Portion` — a piece or a value.
* `Stencil.Lua.preambleTree`, `renderStat` — the statements before the function that renders, and
  that function.

## Main results

* `Stencil.Lua.Reader.block_statement_eq` — a block is read statement by statement.
* `Stencil.Lua.block_portions`, `block_imports_eq`, `block_prelude_eq` — the statements of the
  portions, of the imports and of the prelude.
* `Stencil.Lua.block_render_eq` — the function that renders.
-/

namespace Stencil.Lua

/-! ## Pieces -/

/-- **A piece of a template:** a literal, or an include of a name. -/
inductive Piece where
  | literal (text : String)
  | inclusion (name : String)
  deriving DecidableEq, Repr

namespace Piece

/-- The line of a piece in the program. -/
def line : Piece → String
  | literal text => writeStatement (quote text)
  | inclusion name => writeStatement ("codet.include(" ++ quote name ++ ")")

/-- The tokens of a piece. -/
def tokens : Piece → List Token
  | literal text => literalTokens text
  | inclusion name => inclusionTokens name

/-- The expression of which a piece is the value. -/
def value (n : Nat) : Piece → Exp
  | literal text => .string (Bytes.ofText text)
  | inclusion name => .call n (.field n (.var "codet".toList) "include".toList)
      [.string (Bytes.ofText name)]

/-- The statement of a piece at a line. -/
def stat (p : Piece) (n : Nat) : Stat := .call (.call n (.var "__write".toList) [p.value n])

/-- The line of a piece has its tokens. -/
theorem lineReads (p : Piece) : LineReads p.line p.tokens := by
  cases p with
  | literal text => exact lineReads_literal text
  | inclusion name => exact lineReads_inclusion name

end Piece

/-! ## Portions -/

/-- **A portion of a template:** a piece, what a name stands for, or an entry of that. -/
inductive Portion where
  | piece (p : Piece)
  | whole (name : String)
  | entry (name key : String)
  deriving DecidableEq, Repr

namespace Portion

/-- The names that are written in a portion. -/
def names : Portion → List String
  | piece _ => []
  | whole name => [name]
  | entry name key => [name, key]

/-- The line of a portion in the program. -/
def line : Portion → String
  | piece p => p.line
  | whole name => writeStatement name
  | entry name key => writeStatement (name ++ "." ++ key)

/-- The tokens of a portion. -/
def tokens : Portion → List Token
  | piece p => p.tokens
  | whole name =>
    [.name "__write".toList, .symbol .leftParen, .name name.toList, .symbol .rightParen]
  | entry name key =>
    [.name "__write".toList, .symbol .leftParen, .name name.toList, .symbol .dot,
      .name key.toList, .symbol .rightParen]

/-- The expression of which a portion is the value. -/
def value (n : Nat) : Portion → Exp
  | piece p => p.value n
  | whole name => .var name.toList
  | entry name key => .field n (.var name.toList) key.toList

/-- The statement of a portion at a line. -/
def stat (p : Portion) (n : Nat) : Stat := .call (.call n (.var "__write".toList) [p.value n])

/-- **The line of a portion** has its tokens, if its names can be written. -/
theorem lineReads {p : Portion} (h : ∀ name ∈ p.names, isIdentifier name = true) :
    LineReads p.line p.tokens := by
  have hopen : ReadsAs Anything "  __write(".toList [.name "__write".toList, .symbol .leftParen] :=
    readsAs_anything 4 fun _ _ _ => rfl
  cases p with
  | piece p => exact p.lineReads
  | whole name =>
    have hlist : (whole name).line.toList = "  __write(".toList ++ (name.toList ++ [')']) := by
      simp [line, writeStatement]
    have hname := (readsAs_identifier (h name (by simp [names]))).append readsAs_close
      (by simp [NameEnd, isNameChar])
    refine ⟨?_, by simp [line, writeStatement]⟩
    rw [hlist]
    exact hopen.append hname fun _ _ => trivial
  | entry name key =>
    have hlist : (entry name key).line.toList =
        "  __write(".toList ++ (name.toList ++ (['.'] ++ (key.toList ++ [')']))) := by
      simp [line, writeStatement]
    have hkey := h key (by simp [names])
    have hfield := (readsAs_identifier hkey).append readsAs_close (by simp [NameEnd, isNameChar])
    have hdot := readsAs_dot.append hfield fun tail _ => by
      obtain ⟨c, rest, hchars, hc⟩ := exists_of_isIdentifier hkey
      exact ⟨c, rest ++ ([')'] ++ tail), by simp [hchars], hc⟩
    have hname := (readsAs_identifier (h name (by simp [names]))).append hdot
      (by simp [NameEnd, isNameChar])
    refine ⟨?_, by simp [line, writeStatement]⟩
    rw [hlist]
    exact hopen.append hname fun _ _ => trivial

end Portion

/-! ## Trees -/

/-- The statements of the prelude before its function. -/
def preludeTree : Block :=
  [.declare [("__modules".toList, .regular)] [.varargs 2],
   .declare [("__concat".toList, .regular)]
    [.field 3 (.var "table".toList) "concat".toList],
   .declare [("__tostring".toList, .regular)] [.var "tostring".toList],
   .declare [("__type".toList, .regular)] [.var "type".toList],
   .declare [("__gmatch".toList, .regular)]
    [.field 6 (.var "string".toList) "gmatch".toList]]

/-- The body of the loop that walks along the segments of a path. -/
def segmentBody : Block :=
  [.choose (.binary 15 .ne (.call 15 (.var "__type".toList) [.var "value".toList])
      (.string (Bytes.ofText "table")))
    [.assign 16 [.var "value".toList] [.nil], .leave] [],
   .assign 19 [.var "value".toList] [.index 19 (.var "value".toList) (.var "segment".toList)]]

/-- The statement for an import that is not found. -/
def notFoundStat : Stat :=
  .call (.call 22 (.var "error".toList)
    [.binary 22 .concat (.string (Bytes.ofText "module '"))
      (.binary 22 .concat (.var "path".toList) (.string (Bytes.ofText "' not found"))),
     .number (.int 2)])

/-- The walk along the segments of a path. -/
def walkBody : Block :=
  [.declare [("value".toList, .regular)] [.var "_G".toList],
   .genericFor 14 ["segment".toList]
    [.call 14 (.var "__gmatch".toList) [.var "path".toList, .string (Bytes.ofText "[^%.]+")]]
    segmentBody,
   .choose (.binary 21 .eq (.var "value".toList) .nil) [notFoundStat] [],
   .yields [.var "value".toList]]

/-- The body of the function that finds an import. -/
def importBody : Block :=
  [.declare [("module".toList, .regular)]
    [.index 9 (.var "__modules".toList) (.var "path".toList)],
   .choose (.binary 10 .ne (.var "module".toList) .nil) [.yields [.var "module".toList]] []] ++
  walkBody

/-- The function that finds an import, when reading has come to a line behind it. -/
def importFunction (endLine : Nat) : Stat :=
  .declareFunction "__import".toList (.function ["path".toList] false importBody endLine)

/-- An import: the local that is bound, and the path. -/
abbrev Import := String × String

/-- The statement of an import at a line. -/
def importStat (i : Import) (n : Nat) : Stat :=
  .declare [(i.1.toList, .regular)]
    [.call n (.var "__import".toList) [.string (Bytes.ofText i.2)]]

/-- The body of the function that adds to the output, when it begins at a line. -/
def writeBody (n : Nat) : Block :=
  [.choose (.binary (n + 1) .ne (.var "value".toList) .nil)
    [.assign (n + 2)
      [.index (n + 2) (.var "__out".toList)
        (.binary (n + 2) .add (.unary (n + 2) .length (.var "__out".toList)) (.number (.int 1)))]
      [.call (n + 2) (.var "__tostring".toList) [.var "value".toList]]] []]

/-- The statements before the portions, from a line on. -/
def prologueTree (n : Nat) : Block :=
  [.declare [("__out".toList, .regular)] [.table n []],
   .declareFunction "__write".toList (.function ["value".toList] false (writeBody (n + 1)) (n + 6))]

/-- The statements of portions, one for each line. -/
def portionTree (n : Nat) (portions : List Portion) : Block :=
  (portions.zipIdx n).map fun (p, i) => p.stat i

/-- The statement that ends the function that renders. -/
def concatStat (n : Nat) : Stat := .yields [.call n (.var "__concat".toList) [.var "__out".toList]]

/-- The body of the function that renders, from a line on. -/
def renderBody (n : Nat) (portions : List Portion) : Block :=
  prologueTree n ++ portionTree (n + 6) portions ++ [concatStat (n + 6 + portions.length)]

/-- The function that renders, for any parameters, when a line in front of it has a number. -/
def renderStat (parameters : List Ident) (n : Nat) (portions : List Portion) : Stat :=
  .declareFunction "__render".toList
    (.function parameters false (renderBody (n + 2) portions) (n + 8 + portions.length + 3))

/-- The statements of imports, one for each line. -/
def importTree (n : Nat) (imports : List Import) : Block :=
  (imports.zipIdx n).map fun (i, l) => importStat i l

/-- **The statements before the function that renders.** -/
def preambleTree (imports : List Import) : Block :=
  preludeTree ++ [importFunction 27] ++ importTree 27 imports

/-- The expression of an argument for the function that renders. -/
def Passed.value : Passed → Exp
  | state => .var "__state".toList
  | property name => .index 0 (.var "__state".toList) (.string (Bytes.ofText name))

/-! ## Reading a block -/

namespace Reader

/-- A keyword that does not stand at a place is not accepted there. -/
theorem acceptWord_ne {k : Keyword} {p : Place} (h : tokenAt p ≠ .keyword k) :
    acceptWord k p = .ok (false, p) := by
  rw [acceptWord, current_bind]
  cases ht : tokenAt p with
  | keyword j =>
    have hj : j ≠ k := by
      rintro rfl
      exact h ht
    dsimp only
    rw [if_neg hj]
    rfl
  | _ => rfl

/-- Whether a token begins a statement other than a `return`. -/
def begins : Token → Bool
  | .keyword .«return» => false
  | t => !endsBlock t

/-- A reading with statements in front of those that were read. -/
def behind (b : Block) (r : Except Nat (Block × Place)) : Except Nat (Block × Place) :=
  r.map fun (c, p) => (b ++ c, p)

/-- Statements in front of statements in front of those that were read. -/
theorem behind_behind (b c : Block) (r : Except Nat (Block × Place)) :
    behind b (behind c r) = behind (b ++ c) r := by
  cases r with
  | error e => rfl
  | ok r => simp [behind, Except.map]

/-- What was read behind statements. -/
theorem exists_of_behind {b c : Block} {r : Except Nat (Block × Place)} {p : Place}
    (h : behind b r = .ok (c, p)) : ∃ rest, r = .ok (rest, p) ∧ c = b ++ rest := by
  obtain ⟨⟨rest, q⟩, hr, heq⟩ := exists_of_map_eq_ok h
  obtain ⟨rfl, rfl⟩ := Prod.mk.inj heq
  exact ⟨rest, hr, rfl⟩

/-- **A block that begins with a statement** goes on behind it. -/
theorem block_begins {fuel : Nat} {p : Place} (h : begins (tokenAt p) = true) :
    block (fuel + 1) p = (do
      match ← statement fuel with
      | some s => return s :: (← block fuel)
      | none => block fuel : Reader Block) p := by
  have hreturn : tokenAt p ≠ .keyword .«return» := by
    intro heq
    rw [heq] at h
    cases h
  have hend : endsBlock (tokenAt p) = false := by
    unfold begins at h
    split at h
    · cases h
    · simpa using h
  rw [block, current_bind, hend, if_neg (by simp)]
  simp only [bind, StateT.bind, Except.bind, acceptWord_ne hreturn]
  rfl

/-- **A block is read statement by statement.** -/
theorem block_statement_eq (fuel : Nat) {p q : Place} {s : Stat}
    (h : begins (tokenAt p) = true) (hs : statement fuel p = .ok (some s, q)) :
    block (fuel + 1) p = behind [s] (block fuel q) := by
  rw [block_begins h]
  cases hb : block fuel q <;>
    simp [bind, StateT.bind, Except.bind, hs, hb, pure, StateT.pure, Except.pure, behind,
      Except.map]

/-- A block that is read behind a statement. -/
theorem block_statement {fuel : Nat} {p q r : Place} {s : Stat} {b : Block}
    (h : begins (tokenAt p) = true)
    (hs : statement fuel p = .ok (some s, q)) (hb : block fuel q = .ok (b, r)) :
    block (fuel + 1) p = .ok (s :: b, r) := by
  rw [block_statement_eq fuel h hs, hb]
  rfl

/-- **Lines of a block,** each of which is a statement in front of tokens of a kind, and itself
begins with tokens of that kind. -/
theorem block_lines_eq {α : Type} {tokens : α → List Token} {stat : α → Nat → Stat}
    {fuel n l : Nat} {rest : List Located} (kind : Nat → List Located → Prop) (as : List α)
    (hstat : ∀ a fuel n l k rest, kind k rest →
      statement (fuel + 20) ⟨l, (tokens a).map (⟨·, n⟩) ++ rest⟩ = .ok (some (stat a n), ⟨n, rest⟩))
    (hbegins : ∀ a n l rest, begins (tokenAt ⟨l, (tokens a).map (⟨·, n⟩) ++ rest⟩) = true)
    (hkind : ∀ a n rest, kind n ((tokens a).map (⟨·, n⟩) ++ rest))
    (hrest : kind (n + as.length) rest) (hfuel : 20 ≤ fuel) :
    ∃ l', block (fuel + as.length) ⟨l, locate n (as.map tokens) ++ rest⟩ =
      behind ((as.zipIdx n).map fun (a, i) => stat a i) (block fuel ⟨l', rest⟩) := by
  induction as generalizing n l with
  | nil =>
    refine ⟨l, ?_⟩
    cases hb : block fuel ⟨l, rest⟩ <;> simp [locate, behind, Except.map, hb]
  | cons a as ih =>
    have hbehind : kind (n + 1 + as.length) rest := by
      rwa [Nat.add_assoc, Nat.add_comm 1]
    have hnext : kind (n + 1) (locate (n + 1) (as.map tokens) ++ rest) := by
      cases as with
      | nil => exact hrest
      | cons a as =>
        rw [List.map_cons, locate, List.append_assoc]
        exact hkind a _ _
    have hline : statement (fuel + as.length)
        ⟨l, (tokens a).map (⟨·, n⟩) ++ (locate (n + 1) (as.map tokens) ++ rest)⟩ =
          .ok (some (stat a n), ⟨n, locate (n + 1) (as.map tokens) ++ rest⟩) := by
      obtain ⟨k, rfl⟩ := Nat.exists_eq_add_of_le hfuel
      rw [show 20 + k + as.length = k + as.length + 20 by omega]
      exact hstat a _ n l _ _ hnext
    obtain ⟨l', hmore⟩ := ih (n := n + 1) (l := n) hbehind
    refine ⟨l', ?_⟩
    rw [List.map_cons, locate, List.append_assoc, List.length_cons, ← Nat.add_assoc,
      block_statement_eq _ (hbegins a n l _) hline, hmore, behind_behind, List.zipIdx_cons]
    rfl

/-- A block that is read behind lines. -/
theorem block_lines {α : Type} {tokens : α → List Token} {stat : α → Nat → Stat}
    {fuel n l : Nat} {rest : List Located} {b : Block} {r : Place}
    (kind : Nat → List Located → Prop) (as : List α)
    (hstat : ∀ a fuel n l k rest, kind k rest →
      statement (fuel + 20) ⟨l, (tokens a).map (⟨·, n⟩) ++ rest⟩ = .ok (some (stat a n), ⟨n, rest⟩))
    (hbegins : ∀ a n l rest, begins (tokenAt ⟨l, (tokens a).map (⟨·, n⟩) ++ rest⟩) = true)
    (hkind : ∀ a n rest, kind n ((tokens a).map (⟨·, n⟩) ++ rest))
    (hrest : kind (n + as.length) rest)
    (hb : ∀ l, block fuel ⟨l, rest⟩ = .ok (b, r)) (hfuel : 20 ≤ fuel) :
    block (fuel + as.length) ⟨l, locate n (as.map tokens) ++ rest⟩ =
      .ok ((as.zipIdx n).map (fun (a, i) => stat a i) ++ b, r) := by
  obtain ⟨l', heq⟩ := block_lines_eq (l := l) kind as hstat hbegins hkind hrest hfuel
  rw [heq, hb]
  rfl

/-- A sign that must be there, and is. -/
theorem expect_cons {s : Symbol} {l n : Nat} {tokens : List Located}
    (h : arrive n tokens = .ok ⟨n, tokens⟩) :
    expect s ⟨l, ⟨.symbol s, n⟩ :: tokens⟩ = .ok ((), ⟨n, tokens⟩) := by
  simp [expect, accept, current, tokenAt, lineAt, advance, h, bind, StateT.bind, Except.bind,
    Except.map, pure, StateT.pure, Except.pure]

/-- A keyword that must be there, and is. -/
theorem expectWord_cons {k : Keyword} {l n : Nat} {tokens : List Located}
    (h : arrive n tokens = .ok ⟨n, tokens⟩) :
    expectWord k ⟨l, ⟨.keyword k, n⟩ :: tokens⟩ = .ok ((), ⟨n, tokens⟩) := by
  simp [expectWord, acceptWord, current, tokenAt, lineAt, advance, h, bind, StateT.bind,
    Except.bind, Except.map, pure, StateT.pure, Except.pure]

/-- Parameters up to the closing parenthesis, one at least. -/
theorem parameters_names {fuel l n : Nat} {tokens : List Located} (ps : List Ident)
    (hne : ps ≠ []) (hfuel : ps.length ≤ fuel) (h : arrive n tokens = .ok ⟨n, tokens⟩) :
    parameters fuel ⟨l, (commas (ps.map fun p => [.name p])).map (⟨·, n⟩) ++
      ⟨.symbol .rightParen, n⟩ :: tokens⟩ = .ok ((ps, false), ⟨n, tokens⟩) := by
  induction ps generalizing fuel l with
  | nil => exact absurd rfl hne
  | cons p ps ih =>
    obtain ⟨fuel, rfl⟩ : ∃ k, fuel = k + 1 := ⟨fuel - 1, by rw [List.length_cons] at hfuel; omega⟩
    cases ps with
    | nil =>
      show (do expect .rightParen; return ([p], false) : Reader (List Ident × Bool))
        ⟨n, ⟨.symbol .rightParen, n⟩ :: tokens⟩ = _
      simp only [bind, StateT.bind, Except.bind, expect_cons h]
      rfl
    | cons p' ps =>
      have hmore := ih (l := n) (by simp) (Nat.le_of_succ_le_succ hfuel)
      obtain ⟨more, hnext⟩ : ∃ more, (commas ((p' :: ps).map fun p => [.name p])).map (⟨·, n⟩) ++
          ⟨.symbol .rightParen, n⟩ :: tokens = (⟨.name p', n⟩ :: more : List Located) := by
        cases ps with
        | nil => exact ⟨_, rfl⟩
        | cons p'' ps => exact ⟨_, rfl⟩
      have hlist : (commas ((p :: p' :: ps).map fun p => [.name p])).map (⟨·, n⟩) ++
          ⟨.symbol .rightParen, n⟩ :: tokens =
            (⟨.name p, n⟩ :: ⟨.symbol .comma, n⟩ :: ⟨.name p', n⟩ :: more : List Located) := by
        rw [← hnext]
        simp
      rw [hnext] at hmore
      rw [hlist]
      show (do
        let rest ← parameters fuel
        return (p :: rest.1, rest.2) : Reader (List Ident × Bool))
          ⟨n, ⟨.name p', n⟩ :: more⟩ = _
      simp only [bind, StateT.bind, Except.bind, hmore]
      rfl

/-- **Parameters in parentheses.** -/
theorem parameterList_names {fuel l n : Nat} {tokens : List Located} {ps : List Ident}
    (hfuel : ps.length ≤ fuel) (h : arrive n tokens = .ok ⟨n, tokens⟩) :
    parameterList fuel ⟨l, ⟨.symbol .leftParen, n⟩ ::
      ((commas (ps.map fun p => [.name p])).map (⟨·, n⟩) ++ ⟨.symbol .rightParen, n⟩ :: tokens)⟩ =
        .ok ((ps, false), ⟨n, tokens⟩) := by
  cases ps with
  | nil =>
    have hclose : accept .rightParen ⟨n, ⟨.symbol .rightParen, n⟩ :: tokens⟩ =
        .ok (true, ⟨n, tokens⟩) := by
      simp [accept, current, tokenAt, lineAt, advance, h, bind, StateT.bind, Except.bind,
        Except.map, pure, StateT.pure, Except.pure]
    show (do if ← accept .rightParen then return ([], false) else parameters fuel :
      Reader (List Ident × Bool)) ⟨n, ⟨.symbol .rightParen, n⟩ :: tokens⟩ = _
    simp only [bind, StateT.bind, Except.bind, hclose]
    rfl
  | cons p ps =>
    have hmore := parameters_names (l := n) (p :: ps) (by simp) hfuel h
    obtain ⟨more, hfirst⟩ : ∃ more, (commas ((p :: ps).map fun p => [.name p])).map (⟨·, n⟩) ++
        ⟨.symbol .rightParen, n⟩ :: tokens = (⟨.name p, n⟩ :: more : List Located) := by
      cases ps with
      | nil => exact ⟨_, rfl⟩
      | cons p' ps => exact ⟨_, rfl⟩
    rw [hfirst] at hmore ⊢
    exact hmore

/-- **A local function** is read from its parameters and its body. -/
theorem statement_function {fuel l n e k : Nat} {f : Ident} {ps : List Ident}
    {tokens rest : List Located} {b : Block} (hfuel : ps.length ≤ fuel + 1)
    (htokens : arrive n tokens = .ok ⟨n, tokens⟩) (hrest : arrive k rest = .ok ⟨k, rest⟩)
    (hb : block (fuel + 1) ⟨n, tokens⟩ = .ok (b, ⟨e, ⟨.keyword .«end», k⟩ :: rest⟩)) :
    statement (fuel + 3) ⟨l, ⟨.keyword .«local», n⟩ :: ⟨.keyword .function, n⟩ :: ⟨.name f, n⟩ ::
        ⟨.symbol .leftParen, n⟩ :: ((commas (ps.map fun p => [.name p])).map (⟨·, n⟩) ++
          ⟨.symbol .rightParen, n⟩ :: tokens)⟩ =
      .ok (some (.declareFunction f (.function ps false b (lineAt ⟨k, rest⟩))), ⟨k, rest⟩) := by
  have hbody : functionBody (fuel + 2) false ⟨n, ⟨.symbol .leftParen, n⟩ ::
      ((commas (ps.map fun p => [.name p])).map (⟨·, n⟩) ++
        ⟨.symbol .rightParen, n⟩ :: tokens)⟩ =
        .ok (.function ps false b (lineAt ⟨k, rest⟩), ⟨k, rest⟩) := by
    rw [functionBody]
    simp only [bind, StateT.bind, Except.bind, parameterList_names hfuel htokens, hb,
      expectWord_cons hrest]
    rfl
  -- The steps in front of the parameters do not look at them.
  generalize (commas (ps.map fun p => [.name p])).map (⟨·, n⟩) ++
    ⟨.symbol .rightParen, n⟩ :: tokens = us at hbody ⊢
  rw [statement]
  show (do return some (.declareFunction f (← functionBody (fuel + 2) false)) :
    Reader (Option Stat)) ⟨n, ⟨.symbol .leftParen, n⟩ :: us⟩ = _
  simp only [bind, StateT.bind, Except.bind, hbody]
  rfl

end Reader

/-! ## The parts of a program -/

/-- Tokens at a line that begin with the call that writes, or with a `return`. -/
inductive Continues (l : Nat) : List Located → Prop
  | write (rest : List Located) : Continues l (⟨.name "__write".toList, l⟩ :: rest)
  | yields (rest : List Located) : Continues l (⟨.keyword .«return», l⟩ :: rest)

/-- The statement of a portion. -/
theorem statement_portion (p : Portion) (fuel n l k : Nat) {rest : List Located}
    (h : Continues k rest) :
    Reader.statement (fuel + 20) ⟨l, p.tokens.map (⟨·, n⟩) ++ rest⟩ =
      .ok (some (p.stat n), ⟨n, rest⟩) := by
  cases p with
  | piece p =>
    cases p with
    | literal text => cases h <;> rfl
    | inclusion name => cases h <;> rfl
  | whole name => cases h <;> rfl
  | entry name key => cases h <;> rfl

/-- A portion is written. -/
theorem exists_tokens_portion (p : Portion) :
    ∃ ts, p.tokens = .name "__write".toList :: ts := by
  cases p with
  | piece p => cases p <;> exact ⟨_, rfl⟩
  | whole name => exact ⟨_, rfl⟩
  | entry name key => exact ⟨_, rfl⟩

/-- The tokens of a portion continue. -/
theorem continues_portion (p : Portion) (n : Nat) (rest : List Located) :
    Continues n (p.tokens.map (⟨·, n⟩) ++ rest) := by
  obtain ⟨ts, hts⟩ := exists_tokens_portion p
  rw [hts]
  exact .write _

/-- The tokens of portions continue. -/
theorem continues_portions (portions : List Portion) (n : Nat) {rest : List Located}
    (h : Continues (n + portions.length) rest) :
    Continues n (locate n (portions.map Portion.tokens) ++ rest) := by
  cases portions with
  | nil => exact h
  | cons p portions =>
    rw [List.map_cons, locate, List.append_assoc]
    exact continues_portion p n _

/-- **The statements of the portions** are read one for each line. -/
theorem block_portions (fuel n l : Nat) {rest : List Located} {b : Block} {r : Place}
    (portions : List Portion) (h : Continues (n + portions.length) rest)
    (hb : ∀ l, Reader.block fuel ⟨l, rest⟩ = .ok (b, r)) (hfuel : 20 ≤ fuel) :
    Reader.block (fuel + portions.length)
      ⟨l, locate n (portions.map Portion.tokens) ++ rest⟩ =
        .ok (portionTree n portions ++ b, r) := by
  refine Reader.block_lines Continues portions
    (fun p fuel n l k _ => statement_portion p fuel n l k) ?_ continues_portion h hb hfuel
  intro p n l rest
  obtain ⟨ts, hts⟩ := exists_tokens_portion p
  rw [hts]
  rfl

/-- **The statements of the imports** are read one for each line. -/
theorem block_imports_eq (fuel n l : Nat) {rest : List Located} (imports : List Import)
    (hrest : ∃ k more, rest = ⟨.keyword .«local», k⟩ :: more) (hfuel : 20 ≤ fuel) :
    ∃ l', Reader.block (fuel + imports.length)
        ⟨l, locate n (imports.map fun i => importTokens i.1 i.2) ++ rest⟩ =
      Reader.behind (importTree n imports) (Reader.block fuel ⟨l', rest⟩) := by
  refine Reader.block_lines_eq (fun _ rest => ∃ k more, rest = ⟨.keyword .«local», k⟩ :: more)
    imports ?_ (fun _ _ _ _ => rfl) (fun _ _ _ => ⟨_, _, rfl⟩) hrest hfuel
  rintro i fuel n l _ _ ⟨k, more, rfl⟩
  rfl

/-- **The statements before the portions.** -/
theorem block_prologue {fuel n l : Nat} {rest : List Located} {b : Block} {r : Place}
    (h : Continues (n + 6) rest) (hb : ∀ l, Reader.block (fuel + 30) ⟨l, rest⟩ = .ok (b, r)) :
    Reader.block (fuel + 32) ⟨l, locate n prologueTokens ++ rest⟩ =
      .ok (prologueTree n ++ b, r) := by
  have hout : Reader.statement (fuel + 31) ⟨l, locate n prologueTokens ++ rest⟩ =
      .ok (some (.declare [("__out".toList, .regular)] [.table n []]),
        ⟨n, locate (n + 1) (prologueTokens.drop 1) ++ rest⟩) := rfl
  have hbody (t : Token) (more : List Located) :
      Reader.block (fuel + 28)
          ⟨n + 1, locate (n + 2) (prologueTokens.drop 2) ++ ⟨t, n + 6⟩ :: more⟩ =
        .ok (writeBody (n + 1),
          ⟨n + 4, ⟨.keyword .«end», n + 5⟩ :: ⟨t, n + 6⟩ :: more⟩) := by
    cbv
  have hwrite : Reader.statement (fuel + 30)
      ⟨n, locate (n + 1) (prologueTokens.drop 1) ++ rest⟩ =
        .ok (some (.declareFunction "__write".toList
          (.function ["value".toList] false (writeBody (n + 1)) (n + 6))), ⟨n + 5, rest⟩) := by
    cases h with
    | write rest =>
      exact @Reader.statement_function _ _ _ _ _ _ ["value".toList] _ _ _ (by simp) rfl rfl
        (hbody _ _)
    | yields rest =>
      exact @Reader.statement_function _ _ _ _ _ _ ["value".toList] _ _ _ (by simp) rfl rfl
        (hbody _ _)
  exact Reader.block_statement rfl hout (Reader.block_statement rfl hwrite (hb _))

/-- The statement that ends the function that renders. -/
theorem block_concat (fuel n l k : Nat) (rest : List Located) :
    Reader.block (fuel + 20) ⟨l, concatTokens.map (⟨·, n⟩) ++ ⟨.keyword .«end», k⟩ :: rest⟩ =
      .ok ([concatStat n], ⟨n, ⟨.keyword .«end», k⟩ :: rest⟩) := rfl

/-- The body of the function that renders. -/
theorem block_renderBody (fuel n l : Nat) (portions : List Portion) (rest : List Located) :
    Reader.block (fuel + portions.length + 32) ⟨l, locate n (prologueTokens ++
        portions.map Portion.tokens) ++ (concatTokens.map (⟨·, n + 6 + portions.length⟩) ++
          ⟨.keyword .«end», n + 6 + portions.length + 1⟩ :: rest)⟩ =
      .ok (renderBody n portions,
        ⟨n + 6 + portions.length, ⟨.keyword .«end», n + 6 + portions.length + 1⟩ :: rest⟩) := by
  have hreturn : Continues (n + 6 + portions.length)
      (concatTokens.map (⟨·, n + 6 + portions.length⟩) ++
        ⟨.keyword .«end», n + 6 + portions.length + 1⟩ :: rest) := .yields _
  have hportions (l : Nat) := block_portions (fuel + 30) (n + 6) l portions hreturn
    (fun l => block_concat _ _ l _ _) (by omega)
  rw [locate_append, List.append_assoc, renderBody, List.append_assoc]
  refine block_prologue (continues_portions portions _ hreturn) fun l => ?_
  rw [Nat.add_right_comm]
  exact hportions l

/-- The tokens of the beginning of the rendering function, in front of others. -/
theorem map_openTokens_append (parameters : List String) (n : Nat) (rest : List Located) :
    (openTokens parameters).map (⟨·, n⟩) ++ rest = ⟨.keyword .«local», n⟩ ::
      ⟨.keyword .function, n⟩ :: ⟨.name "__render".toList, n⟩ :: ⟨.symbol .leftParen, n⟩ ::
        ((commas ((parameters.map String.toList).map fun p => [.name p])).map (⟨·, n⟩) ++
          ⟨.symbol .rightParen, n⟩ :: rest) := by
  simp [openTokens, Function.comp_def]

/-- **The function that renders,** in front of what the program gives. -/
theorem block_render_eq (fuel n l : Nat) (parameters : List String) (portions : List Portion)
    {rest : List Located}
    (hrest : ∃ more, rest = ⟨.keyword .«return», n + 8 + portions.length + 3⟩ :: more) :
    Reader.block (fuel + parameters.length + portions.length + 60) ⟨l,
        locate n ([[], openTokens parameters] ++ (prologueTokens ++ portions.map Portion.tokens) ++
          [concatTokens, [.keyword .«end»]]) ++ rest⟩ =
      Reader.behind [renderStat (parameters.map String.toList) n portions]
        (Reader.block (fuel + parameters.length + portions.length + 59)
          ⟨n + 8 + portions.length + 1, rest⟩) := by
  obtain ⟨more, rfl⟩ := hrest
  have hbody := block_renderBody (fuel + parameters.length + 25) (n + 2) (n + 1) portions
    (⟨.keyword .«return», n + 8 + portions.length + 3⟩ :: more)
  rw [show fuel + parameters.length + 25 + portions.length + 32 =
    fuel + parameters.length + portions.length + 57 by omega] at hbody
  have htokens : locate n ([[], openTokens parameters] ++
      (prologueTokens ++ portions.map Portion.tokens) ++ [concatTokens, [.keyword .«end»]]) ++
        ⟨.keyword .«return», n + 8 + portions.length + 3⟩ :: more =
      (openTokens parameters).map (⟨·, n + 1⟩) ++
        (locate (n + 2) (prologueTokens ++ portions.map Portion.tokens) ++
          (concatTokens.map (⟨·, n + 2 + 6 + portions.length⟩) ++
            ⟨.keyword .«end», n + 2 + 6 + portions.length + 1⟩ ::
              ⟨.keyword .«return», n + 8 + portions.length + 3⟩ :: more)) := by
    have hprologue : prologueTokens.length = 6 := rfl
    simp only [locate_append, locate, List.length_map, hprologue, List.append_assoc, List.map_nil,
      List.nil_append, List.map_cons, List.cons_append]
  rw [htokens, map_openTokens_append]
  refine Reader.block_statement_eq _ rfl ?_
  refine Reader.statement_function ?_ rfl rfl hbody
  rw [List.length_map]
  omega

/-- **The statements of the prelude.** -/
theorem block_prelude_eq (fuel l : Nat) {rest : List Located}
    (hrest : ∃ more, rest = ⟨.keyword .«local», 27⟩ :: more) :
    Reader.block (fuel + 46) ⟨l, locate 2 preludeTokens ++ rest⟩ =
      Reader.behind (preludeTree ++ [importFunction 27]) (Reader.block (fuel + 40) ⟨25, rest⟩) := by
  obtain ⟨more, rfl⟩ := hrest
  have himport : Reader.statement (fuel + 40)
      ⟨6, locate 7 (preludeTokens.drop 5) ++ ⟨.keyword .«local», 27⟩ :: more⟩ =
        .ok (some (importFunction 27), ⟨25, ⟨.keyword .«local», 27⟩ :: more⟩) := by
    cbv
  let left (i : Nat) : Place :=
    ⟨i + 1, locate (i + 2) (preludeTokens.drop i) ++ ⟨.keyword .«local», 27⟩ :: more⟩
  have h1 := Reader.block_statement_eq (fuel + 45) (s := preludeTree[0])
    (p := ⟨l, locate 2 preludeTokens ++ ⟨.keyword .«local», 27⟩ :: more⟩) (q := left 1) rfl rfl
  have h2 := Reader.block_statement_eq (fuel + 44) (p := left 1) (q := left 2)
    (s := preludeTree[1]) rfl rfl
  have h3 := Reader.block_statement_eq (fuel + 43) (p := left 2) (q := left 3)
    (s := preludeTree[2]) rfl rfl
  have h4 := Reader.block_statement_eq (fuel + 42) (p := left 3) (q := left 4)
    (s := preludeTree[3]) rfl rfl
  have h5 := Reader.block_statement_eq (fuel + 41) (p := left 4) (q := left 5)
    (s := preludeTree[4]) rfl rfl
  have h6 := Reader.block_statement_eq (fuel + 40) (p := left 5) rfl himport
  rw [h1, h2, h3, h4, h5, h6]
  simp only [Reader.behind_behind]
  rfl

/-! ## Counting tokens -/

/-- The number of tokens of lines. -/
theorem length_locate (n : Nat) (tss : List (List Token)) :
    (locate n tss).length = tss.flatten.length := by
  induction tss generalizing n with
  | nil => rfl
  | cons ts tss ih => simp [locate, ih]

/-- Lines with tokens have no fewer of them than lines. -/
theorem length_le_length_flatten {α : Type} (tokens : α → List Token) (as : List α)
    (h : ∀ a, tokens a ≠ []) : as.length ≤ (as.map tokens).flatten.length := by
  induction as with
  | nil => simp
  | cons a as ih =>
    have ha := List.length_pos_iff.mpr (h a)
    rw [List.map_cons, List.flatten_cons, List.length_append, List.length_cons]
    omega

/-! ## The rules on names -/

namespace Scope

/-- A call keeps the rules in front of a block that does. -/
theorem checkBlock_call {s : Scope} {before : List Ident} {e : Exp} {rest : Block}
    (he : ∀ s : Scope, s.checkExp e = .ok ()) (hrest : s.checkBlock before rest = .ok ()) :
    s.checkBlock before (.call e :: rest) = .ok () := by
  have hstep : s.checkBlock before (.call e :: rest) =
      (checkExp { s with
        labels := before ++ labelsAhead false rest ++ s.labels
        taken := before ++ s.taken } e).bind fun _ => s.checkBlock before rest := rfl
  rw [hstep, he]
  exact hrest

/-- A declaration keeps the rules if its values do, and what follows does with more variables. -/
theorem checkBlock_declare {s : Scope} {before : List Ident} {names : List (Ident × Attribute)}
    {values : List Exp} {rest : Block}
    (hvalues : ∀ labels taken, checkExps { s with labels, taken } values = .ok ())
    (hrest : ∀ s : Scope, s.checkBlock before rest = .ok ()) :
    s.checkBlock before (.declare names values :: rest) = .ok () := by
  have hstep : s.checkBlock before (.declare names values :: rest) =
      (checkExps { s with
        labels := before ++ labelsAhead false rest ++ s.labels
        taken := before ++ s.taken } values).bind fun _ =>
          (s.declare (names.map fun name => (name.1, name.2 != .regular))).checkBlock
            before rest := rfl
  rw [hstep, hvalues]
  exact hrest _

/-- A function keeps the rules if its body does, and what follows does with one more variable. -/
theorem checkBlock_declareFunction {s : Scope} {before params : List Ident} {name : Ident}
    {body rest : Block} {endLine : Nat} (hbody : ∀ s : Scope, s.checkBlock [] body = .ok ())
    (hrest : ∀ s : Scope, s.checkBlock before rest = .ok ()) :
    s.checkBlock before (.declareFunction name (.function params false body endLine) :: rest) =
      .ok () := by
  have hstep : s.checkBlock before
      (.declareFunction name (.function params false body endLine) :: rest) =
        (checkBlock (Scope.enter (Scope.declareNames { s with
          labels := before ++ labelsAhead false rest ++ s.labels
          taken := before ++ s.taken } [name]) params false endLine) [] body).bind fun _ =>
            (s.declareNames [name]).checkBlock before rest := rfl
  rw [hstep, hbody]
  exact hrest _

/-- The portions of a template keep the rules. -/
theorem checkBlock_portions {s : Scope} {before : List Ident} {n : Nat}
    (portions : List Portion) {rest : Block} (hrest : s.checkBlock before rest = .ok ()) :
    s.checkBlock before (portionTree n portions ++ rest) = .ok () := by
  induction portions generalizing n with
  | nil => exact hrest
  | cons p portions ih =>
    refine checkBlock_call (fun s => ?_) ih
    cases p with
    | piece p => cases p <;> rfl
    | whole name => rfl
    | entry name key => rfl

/-- Imports keep the rules, if what follows does with more variables. -/
theorem checkBlock_imports {s : Scope} {before : List Ident} {n : Nat} (imports : List Import)
    {rest : Block} (hrest : ∀ s : Scope, s.checkBlock before rest = .ok ()) :
    s.checkBlock before (importTree n imports ++ rest) = .ok () := by
  induction imports generalizing s n with
  | nil => exact hrest s
  | cons i imports ih => exact ih

/-- The function that renders keeps the rules, if what follows does with one more variable. -/
theorem checkBlock_renderStat {s : Scope} {before : List Ident} (parameters : List Ident) (n : Nat)
    (portions : List Portion) {rest : Block}
    (hrest : ∀ s : Scope, s.checkBlock before rest = .ok ()) :
    s.checkBlock before (renderStat parameters n portions :: rest) = .ok () := by
  refine checkBlock_declareFunction (fun s => ?_) hrest
  rw [renderBody, List.append_assoc]
  refine checkBlock_declare (fun _ _ => rfl) fun s => ?_
  exact checkBlock_declareFunction (fun _ => rfl) fun _ => checkBlock_portions portions rfl

/-- The body of the function that finds an import keeps the rules. -/
theorem checkBlock_importBody (s : Scope) : s.checkBlock [] importBody = .ok () := rfl

end Scope

/-- **A program keeps the rules** on names, if what stands behind its imports does. -/
theorem check_preambleTree (imports : List Import) {rest : Block} (endLine : Nat)
    (hrest : ∀ s : Scope, s.checkBlock [] rest = .ok ()) :
    (preambleTree imports ++ rest).check endLine = .ok () := by
  rw [preambleTree, List.append_assoc, List.append_assoc]
  refine Scope.checkBlock_declare (fun _ _ => rfl) fun _ => ?_
  refine Scope.checkBlock_declare (fun _ _ => rfl) fun _ => ?_
  refine Scope.checkBlock_declare (fun _ _ => rfl) fun _ => ?_
  refine Scope.checkBlock_declare (fun _ _ => rfl) fun _ => ?_
  refine Scope.checkBlock_declare (fun _ _ => rfl) fun _ => ?_
  refine Scope.checkBlock_declareFunction Scope.checkBlock_importBody fun s => ?_
  exact Scope.checkBlock_imports imports hrest

end Stencil.Lua
