import Stencil.Proofs.Lua.Quoting
import Stencil.Lua.Program
set_option autoImplicit false

/-!
# The tokens of a program

A program for a template is made of lines, and each line is read as tokens of its own, whatever
follows it. The lines are those of the fixed text, and one for each import and each part.

## Main definitions

* `Stencil.Lua.LineReads` — the tokens of a line.
* `Stencil.Lua.locate` — the tokens of lines, each with its number.
* `Stencil.Lua.commas` — tokens with commas between them.
* `Stencil.Lua.Passed` — an argument for the rendering function.
* `Stencil.Lua.preludeTokens`, `prologueTokens` — the tokens of the fixed lines.

## Main results

* `Stencil.Lua.lex_lines_append`, `lex_lines` — the tokens of lines, and of a text of lines.
* `Stencil.Lua.lineReads_prelude`, `lineReads_import`, `lineReads_literal`, `lineReads_inclusion`,
  `lineReads_open`, `lineReads_end` — the lines of a program.
-/

namespace Stencil.Lua

/-! ## Lines -/

/-- **The tokens of a line,** whatever comes on the next one. -/
def LineReads (l : String) (ts : List Token) : Prop :=
  ReadsAs LineEnd l.toList ts ∧ l.toList.head? ≠ some '\r'

/-- The tokens of lines, each with its number. -/
def locate (line : Nat) : List (List Token) → List Located
  | [] => []
  | ts :: rest => ts.map (⟨·, line⟩) ++ locate (line + 1) rest

/-- Tokens of lines, and of those behind them. -/
theorem locate_append (line : Nat) (tss uss : List (List Token)) :
    locate line (tss ++ uss) = locate line tss ++ locate (line + tss.length) uss := by
  induction tss generalizing line with
  | nil => rfl
  | cons ts tss ih =>
    rw [List.cons_append, locate, locate, ih, List.append_assoc, List.length_cons,
      Nat.add_comm tss.length 1, Nat.add_assoc]

/-- The characters of lines. -/
theorem toList_lines (ls : List String) :
    (lines ls).toList = ls.flatMap fun l => l.toList ++ ['\n'] := by
  induction ls with
  | nil => rfl
  | cons l ls ih =>
    unfold lines at ih ⊢
    rw [List.map_cons, String.join_cons, String.toList_append, ih]
    simp

/-- **The tokens of lines** in front of a text are those of each line. -/
theorem lex_lines_append {ls : List String} {tss : List (List Token)}
    (h : List.Forall₂ LineReads ls tss) {tail : List Char} (htail : tail.head? ≠ some '\r')
    (line : Nat) :
    lex line ((lines ls).toList ++ tail) = locate line tss ++ lex (line + ls.length) tail := by
  rw [toList_lines]
  induction h generalizing line with
  | nil => rfl
  | @cons l ts ls tss hl hls ih =>
    have hnext : ((ls.flatMap fun l => l.toList ++ ['\n']) ++ tail).head? ≠ some '\r' := by
      cases hls with
      | nil => exact htail
      | @cons l' _ ls' _ hl' _ =>
        rw [List.flatMap_cons, List.append_assoc, List.append_assoc]
        cases hchars : l'.toList with
        | nil => simp
        | cons c u =>
          have hne := hl'.2
          rw [hchars] at hne
          simpa using hne
    rw [List.flatMap_cons, List.append_assoc, List.append_assoc, List.singleton_append,
      hl.1 line _ ⟨_, rfl⟩, lex_lf line hnext, ih, locate, List.append_assoc, List.length_cons,
      Nat.add_comm ls.length 1, Nat.add_assoc]

/-- **The tokens of a text of lines** are those of each line. -/
theorem lex_lines {ls : List String} {tss : List (List Token)}
    (h : List.Forall₂ LineReads ls tss) (line : Nat) :
    lex line (lines ls).toList = locate line tss ++ [⟨.finish, line + ls.length⟩] := by
  have htail : ([] : List Char).head? ≠ some '\r' := by simp
  simpa only [List.append_nil, lex_nil] using lex_lines_append h htail line

/-! ## Lists with commas -/

/-- **Tokens with commas between them.** -/
def commas (tss : List (List Token)) : List Token := [.symbol .comma].intercalate tss

@[simp] theorem commas_nil : commas [] = [] := rfl

@[simp] theorem commas_singleton (ts : List Token) : commas [ts] = ts := by
  simp [commas]

@[simp] theorem commas_cons_cons (ts us : List Token) (tss : List (List Token)) :
    commas (ts :: us :: tss) = ts ++ .symbol .comma :: commas (us :: tss) := by
  simp [commas, List.intercalate_cons_cons]

/-! ## Lines of a program -/

/-- A line is read by computation, if it has no more tokens and blanks than a fixed number. -/
theorem lineReads_of_steps {l : String} {ts : List Token}
    (h : ∀ fuel line tail, ∃ left, tokensFrom (fuel + 64) line (l.toList ++ '\n' :: tail) =
      ts.map (⟨·, line⟩) ++ tokensFrom (fuel + left) line ('\n' :: tail))
    (hc : l.toList.head? ≠ some '\r') : LineReads l ts := by
  refine ⟨?_, hc⟩
  rintro line _ ⟨tail, rfl⟩
  obtain ⟨left, hsteps⟩ := h ((l.toList ++ '\n' :: tail).length + 1) line tail
  rw [tokensFrom_eq_lex line (by omega), tokensFrom_eq_lex line] at hsteps
  · exact hsteps
  · rw [List.length_append]
    omega

/-- An empty line has no tokens. -/
theorem lineReads_empty : LineReads "" [] := ⟨fun _ _ _ => rfl, by simp⟩

/-- **A comment to the end of its line:** two dashes, with no bracket behind them that goes on over
line breaks. -/
def IsComment (l : String) : Prop :=
  ∃ s, l.toList = '-' :: '-' :: s ∧ s.head? ≠ some '[' ∧ ∀ c ∈ s, isBreak c = false

/-- A comment has no tokens. -/
theorem IsComment.lineReads {l : String} (h : IsComment l) : LineReads l [] := by
  obtain ⟨s, hl, hlong, hbreak⟩ := h
  refine ⟨?_, by simp [hl]⟩
  rintro line _ ⟨tail, rfl⟩
  have hopen : longOpening (s ++ '\n' :: tail) = none := by
    cases s with
    | nil => rfl
    | cons c s =>
      have hc : c ≠ '[' := by simpa using hlong
      unfold longOpening
      split <;> simp_all
  have hdrop : (s ++ '\n' :: tail).dropWhile (fun c => !isBreak c) = '\n' :: tail := by
    rw [List.dropWhile_append_of_pos (by simpa using hbreak)]
    rfl
  have hskip : skipComment line (s ++ '\n' :: tail) = .ok ⟨(), line, '\n' :: tail⟩ := by
    unfold skipComment
    rw [hopen]
    dsimp only
    rw [hdrop]
  rw [hl, lex, List.map_nil, List.nil_append]
  show tokensFrom _ line ('-' :: '-' :: (s ++ '\n' :: tail)) = _
  rw [tokensFrom, hskip]
  refine tokensFrom_eq_lex line ?_
  simp
  omega

/-- A text that a given number of steps reads, whatever follows. -/
theorem readsAs_anything {u : List Char} {ts : List Token} (k : Nat)
    (h : ∀ fuel line tail, tokensFrom (fuel + k) line (u ++ tail) =
      ts.map (⟨·, line⟩) ++ tokensFrom fuel line tail) : ReadsAs Anything u ts :=
  readsAs_of_steps k fun fuel line tail _ => h fuel line tail

/-- **A name is one token** in front of what does not go on with it. -/
theorem readsAs_name {name : List Char} (hname : isNameText name = true)
    (hkeyword : Keyword.ofText? name = none) :
    ReadsAs (fun s => ∀ c ∈ s.head?, isNameChar c = false) name [.name name] := by
  intro line tail htail
  obtain ⟨c, name, rfl⟩ : ∃ c s, name = c :: s := by
    cases name with
    | nil => cases hname
    | cons c s => exact ⟨c, s, rfl⟩
  obtain ⟨hstart, hall⟩ : isNameStart c = true ∧ ∀ d ∈ name, isNameChar d = true := by
    simpa [isNameText] using hname
  have hchars : ∀ d ∈ c :: name, isNameChar d = true := by
    intro d hd
    rcases List.mem_cons.mp hd with rfl | hd
    · unfold isNameStart at hstart
      unfold isNameChar
      grind [Char.isAlphanum]
    · exact hall d hd
  have hspan : ((c :: name) ++ tail).takeWhile isNameChar = c :: name := by
    rw [List.takeWhile_append_of_pos hchars]
    cases tail with
    | nil => simp
    | cons d tail =>
      have hd : isNameChar d = false := htail d rfl
      simp [hd]
  have hread : readToken line (c :: (name ++ tail)) = .ok ⟨.name (c :: name), line, tail⟩ := by
    rw [readToken, if_pos hstart]
    rw [List.cons_append] at hspan
    simp only [hspan, hkeyword]
    simp
  have hne : ∀ d : Char, isNameStart d = false → c ≠ d := by
    rintro d hd rfl
    rw [hstart] at hd
    cases hd
  have hspace : Number.isSpace c = false := by
    have hlow : ∀ n < 14, isNameStart (Char.ofNat n) = false := by decide
    have hhigh : 14 ≤ c.toNat := by
      refine Nat.le_of_not_lt fun hlt => ?_
      have hno := hlow c.toNat hlt
      rw [Char.ofNat_toNat, hstart] at hno
      cases hno
    have hle : ¬ c ≤ '\r' := fun hle => by
      have : c.toNat ≤ 13 := UInt32.le_iff_toNat_le.mp hle
      omega
    simp [Number.isSpace, hne ' ' rfl, hle]
  have hbreak : isBreak c = false := by simp [isBreak, hne '\n' rfl, hne '\r' rfl]
  exact lex_of_readToken hspace hbreak (hne '-' rfl) hread

/-! ## Lines with a given text -/

/-- The closing parenthesis at the end of a line. -/
theorem readsAs_close : ReadsAs LineEnd [')'] [.symbol .rightParen] := by
  refine readsAs_of_steps 1 ?_
  rintro fuel line _ ⟨tail, rfl⟩
  rfl

/-- An identifier begins like a name. -/
theorem exists_of_isIdentifier {name : String} (h : isIdentifier name = true) :
    ∃ c s, name.toList = c :: s ∧ isNameStart c = true := by
  obtain ⟨htext, -⟩ := Bool.and_eq_true_iff.mp h
  cases hname : name.toList with
  | nil =>
    rw [hname] at htext
    cases htext
  | cons c s =>
    rw [hname] at htext
    exact ⟨c, s, rfl, (Bool.and_eq_true_iff.mp htext).1⟩

/-- **A dot in front of a name** is neither part of a numeral nor of a longer sign. -/
theorem readsAs_dot :
    ReadsAs (fun s => ∃ c t, s = c :: t ∧ isNameStart c = true) ['.'] [.symbol .dot] := by
  rintro line _ ⟨c, t, rfl, hc⟩
  have hdot : c ≠ '.' := by
    rintro rfl
    cases hc
  have hdigit : c.isDigit = false := by
    rw [isNameStart, Bool.or_eq_true, beq_iff_eq] at hc
    rcases hc with hletter | rfl
    · grind [Char.isAlpha, Char.isUpper, Char.isLower, Char.isDigit]
    · rfl
  have hsymbol : readSymbol ('.' :: c :: t) = some (.dot, c :: t) := by
    rw [readSymbol]
    · rfl
    all_goals simp [hdot]
  have hread : readToken line ('.' :: c :: t) = .ok ⟨.symbol .dot, line, c :: t⟩ := by
    rw [readToken, if_neg (by decide), startsNumeral, hdigit, hsymbol]
    rfl
  exact lex_of_readToken (by decide) (by decide) (by decide) hread

/-- The tokens of the statement that binds a local to an import. -/
def importTokens (binding path : String) : List Token :=
  [.keyword .«local», .name binding.toList, .symbol .assign, .name "__import".toList,
    .symbol .leftParen, .string (Bytes.ofText path), .symbol .rightParen]

/-- **The line of an import.** -/
theorem lineReads_import {binding : String} (hname : isIdentifier binding = true) (path : String) :
    LineReads (importStatement binding path) (importTokens binding path) := by
  obtain ⟨htext, hkeyword⟩ : isNameText binding.toList = true ∧
      Keyword.ofText? binding.toList = none := by
    simpa [isIdentifier] using hname
  have hlist : (importStatement binding path).toList = "local ".toList ++ (binding.toList ++
      (" = __import(".toList ++ (quoteText path.toList ++ [')']))) := by
    simp [importStatement, quote]
  have hlocal : ReadsAs Anything "local ".toList [.keyword .«local»] :=
    readsAs_anything 2 fun _ _ _ => rfl
  have hcall : ReadsAs Anything " = __import(".toList
      [.symbol .assign, .name "__import".toList, .symbol .leftParen] :=
    readsAs_anything 5 fun _ _ _ => rfl
  have hquote := (readsAs_quoteText path.toList).append readsAs_close fun _ _ => trivial
  have hvalue := hcall.append hquote fun _ _ => trivial
  have hbound := (readsAs_name htext hkeyword).append hvalue (by simp [isNameChar])
  refine ⟨?_, by simp [hlist]⟩
  rw [hlist]
  exact hlocal.append hbound fun _ _ => trivial

/-- The tokens of the statement that writes a literal. -/
def literalTokens (text : String) : List Token :=
  [.name "__write".toList, .symbol .leftParen, .string (Bytes.ofText text), .symbol .rightParen]

/-- **The line of a literal.** -/
theorem lineReads_literal (text : String) :
    LineReads (writeStatement (quote text)) (literalTokens text) := by
  have hlist : (writeStatement (quote text)).toList =
      "  __write(".toList ++ (quoteText text.toList ++ [')']) := by
    simp [writeStatement, quote]
  have hopen : ReadsAs Anything "  __write(".toList [.name "__write".toList, .symbol .leftParen] :=
    readsAs_anything 4 fun _ _ _ => rfl
  have hquote := (readsAs_quoteText text.toList).append readsAs_close fun _ _ => trivial
  refine ⟨?_, by simp [writeStatement]⟩
  rw [hlist]
  exact hopen.append hquote fun _ _ => trivial

/-- The tokens of the statement that writes an include. -/
def inclusionTokens (name : String) : List Token :=
  [.name "__write".toList, .symbol .leftParen, .name "codet".toList, .symbol .dot,
    .name "include".toList, .symbol .leftParen, .string (Bytes.ofText name), .symbol .rightParen,
    .symbol .rightParen]

/-- **The line of an include.** -/
theorem lineReads_inclusion (name : String) :
    LineReads (writeStatement ("codet.include(" ++ quote name ++ ")")) (inclusionTokens name) := by
  have hlist : (writeStatement ("codet.include(" ++ quote name ++ ")")).toList =
      "  __write(codet.include(".toList ++ (quoteText name.toList ++ ([')'] ++ [')'])) := by
    simp [writeStatement, quote]
  have hopen : ReadsAs Anything "  __write(codet.include(".toList
      [.name "__write".toList, .symbol .leftParen, .name "codet".toList, .symbol .dot,
        .name "include".toList, .symbol .leftParen] :=
    readsAs_anything 8 fun _ _ _ => rfl
  have hinner : ReadsAs Anything [')'] [.symbol .rightParen] := readsAs_anything 1 fun _ _ _ => rfl
  have hclose := hinner.append readsAs_close fun _ _ => trivial
  have hquote := (readsAs_quoteText name.toList).append hclose fun _ _ => trivial
  refine ⟨?_, by simp [writeStatement]⟩
  rw [hlist]
  exact hopen.append hquote fun _ _ => trivial

/-! ## Fixed lines -/

/-- The tokens of the prelude. -/
def preludeTokens : List (List Token) :=
  [[.keyword .«local», .name "__modules".toList, .symbol .assign, .symbol .ellipsis],
   [.keyword .«local», .name "__concat".toList, .symbol .assign, .name "table".toList,
    .symbol .dot, .name "concat".toList],
   [.keyword .«local», .name "__tostring".toList, .symbol .assign, .name "tostring".toList],
   [.keyword .«local», .name "__type".toList, .symbol .assign, .name "type".toList],
   [.keyword .«local», .name "__gmatch".toList, .symbol .assign, .name "string".toList,
    .symbol .dot, .name "gmatch".toList],
   [],
   [.keyword .«local», .keyword .function, .name "__import".toList, .symbol .leftParen,
    .name "path".toList, .symbol .rightParen],
   [.keyword .«local», .name "module".toList, .symbol .assign, .name "__modules".toList,
    .symbol .leftBracket, .name "path".toList, .symbol .rightBracket],
   [.keyword .«if», .name "module".toList, .symbol .notEqual, .keyword .nil, .keyword .«then»],
   [.keyword .«return», .name "module".toList],
   [.keyword .«end»],
   [.keyword .«local», .name "value".toList, .symbol .assign, .name "_G".toList],
   [.keyword .«for», .name "segment".toList, .keyword .«in», .name "__gmatch".toList,
    .symbol .leftParen, .name "path".toList, .symbol .comma, .string (Bytes.ofText "[^%.]+"),
    .symbol .rightParen, .keyword .«do»],
   [.keyword .«if», .name "__type".toList, .symbol .leftParen, .name "value".toList,
    .symbol .rightParen, .symbol .notEqual, .string (Bytes.ofText "table"), .keyword .«then»],
   [.name "value".toList, .symbol .assign, .keyword .nil],
   [.keyword .«break»],
   [.keyword .«end»],
   [.name "value".toList, .symbol .assign, .name "value".toList, .symbol .leftBracket,
    .name "segment".toList, .symbol .rightBracket],
   [.keyword .«end»],
   [.keyword .«if», .name "value".toList, .symbol .equal, .keyword .nil, .keyword .«then»],
   [.name "error".toList, .symbol .leftParen, .string (Bytes.ofText "module '"), .symbol .concat,
    .name "path".toList, .symbol .concat, .string (Bytes.ofText "' not found"), .symbol .comma,
    .number (.int 2), .symbol .rightParen],
   [.keyword .«end»],
   [.keyword .«return», .name "value".toList],
   [.keyword .«end»],
   []]

/-- The tokens of the beginning of the rendering function's body. -/
def prologueTokens : List (List Token) :=
  [[.keyword .«local», .name "__out".toList, .symbol .assign, .symbol .leftBrace,
    .symbol .rightBrace],
   [.keyword .«local», .keyword .function, .name "__write".toList, .symbol .leftParen,
    .name "value".toList, .symbol .rightParen],
   [.keyword .«if», .name "value".toList, .symbol .notEqual, .keyword .nil, .keyword .«then»],
   [.name "__out".toList, .symbol .leftBracket, .symbol .hash, .name "__out".toList,
    .symbol .plus, .number (.int 1), .symbol .rightBracket, .symbol .assign,
    .name "__tostring".toList, .symbol .leftParen, .name "value".toList, .symbol .rightParen],
   [.keyword .«end»],
   [.keyword .«end»]]

/-- The last lines of a program: the end of the rendering function, and what the program gives. -/
def endLines (arguments : List String) : List String :=
  ["  return __concat(__out)", "end", "",
   "return function(__state)",
   "  return __render(" ++ ", ".intercalate arguments ++ ")",
   "end"]

/-- The lines of the prelude up to the loop over the segments of a path. -/
theorem lineReads_prelude_take :
    List.Forall₂ LineReads (prelude.take 12) (preludeTokens.take 12) := by
  unfold prelude preludeTokens
  repeat' refine List.Forall₂.cons ?_ ?_
  all_goals first
    | exact List.Forall₂.nil
    | exact lineReads_empty
    | exact lineReads_of_steps (fun _ _ _ => ⟨_, rfl⟩) (by decide)

/-- The lines of the prelude from that loop on. -/
theorem lineReads_prelude_drop :
    List.Forall₂ LineReads (prelude.drop 12) (preludeTokens.drop 12) := by
  unfold prelude preludeTokens
  repeat' refine List.Forall₂.cons ?_ ?_
  all_goals first
    | exact List.Forall₂.nil
    | exact lineReads_empty
    | exact lineReads_of_steps (fun _ _ _ => ⟨_, rfl⟩) (by decide)

/-- **The lines of the prelude.** -/
theorem lineReads_prelude : List.Forall₂ LineReads prelude preludeTokens := by
  simpa only [List.take_append_drop] using
    List.rel_append lineReads_prelude_take lineReads_prelude_drop

/-- The lines before the parts. -/
theorem lineReads_prologue : List.Forall₂ LineReads renderPrologue prologueTokens := by
  unfold renderPrologue prologueTokens
  repeat' refine List.Forall₂.cons ?_ ?_
  all_goals first
    | exact List.Forall₂.nil
    | exact lineReads_of_steps (fun _ _ _ => ⟨_, rfl⟩) (by decide)

/-! ## The lines of the rendering function -/

/-- What does not go on with a name. -/
def NameEnd (s : List Char) : Prop := ∀ c ∈ s.head?, isNameChar c = false

/-- **Texts with commas between them.** -/
theorem readsAs_commas {texts : List (List Char)} {tss : List (List Token)}
    (h : List.Forall₂ (ReadsAs NameEnd) texts tss) :
    ReadsAs NameEnd (", ".toList.intercalate texts) (commas tss) := by
  induction h with
  | nil => exact fun _ _ _ => rfl
  | @cons text ts texts tss htext hrest ih =>
    cases hrest with
    | nil => simpa using htext
    | @cons text' us texts tss htext' hrest =>
      have hcomma : ReadsAs Anything ", ".toList [.symbol .comma] :=
        readsAs_anything 2 fun _ _ _ => rfl
      have hmore := htext.append (hcomma.append ih fun _ _ => trivial)
        (by simp [NameEnd, isNameChar])
      rw [List.intercalate_cons_cons, commas_cons_cons, List.append_assoc]
      exact hmore

/-- The tokens of the beginning of the rendering function, for any parameters. -/
def openTokens (parameters : List String) : List Token :=
  [.keyword .«local», .keyword .function, .name "__render".toList, .symbol .leftParen] ++
    commas (parameters.map fun p => [.name p.toList]) ++ [.symbol .rightParen]

/-- An identifier is a name that is no keyword. -/
theorem readsAs_identifier {name : String} (h : isIdentifier name = true) :
    ReadsAs NameEnd name.toList [.name name.toList] := by
  obtain ⟨htext, hkeyword⟩ : isNameText name.toList = true ∧
      Keyword.ofText? name.toList = none := by
    simpa [isIdentifier] using h
  exact readsAs_name htext hkeyword

/-- **The line at which the rendering function begins.** -/
theorem lineReads_open {parameters : List String} (h : ∀ p ∈ parameters, isIdentifier p = true) :
    LineReads ("local function __render(" ++ ", ".intercalate parameters ++ ")")
      (openTokens parameters) := by
  have hlist : ("local function __render(" ++ ", ".intercalate parameters ++ ")").toList =
      "local function __render(".toList ++
        (", ".toList.intercalate (parameters.map String.toList) ++ [')']) := by
    simp
  have hopen : ReadsAs Anything "local function __render(".toList
      [.keyword .«local», .keyword .function, .name "__render".toList, .symbol .leftParen] :=
    readsAs_anything 6 fun _ _ _ => rfl
  have hparameters : List.Forall₂ (ReadsAs NameEnd) (parameters.map String.toList)
      (parameters.map fun p => [.name p.toList]) := by
    rw [List.forall₂_map_left_iff, List.forall₂_map_right_iff, List.forall₂_same]
    exact fun p hp => readsAs_identifier (h p hp)
  have hend := (readsAs_commas hparameters).append readsAs_close (by simp [NameEnd, isNameChar])
  refine ⟨?_, by simp⟩
  rw [hlist, openTokens, List.append_assoc]
  exact hopen.append hend fun _ _ => trivial

/-- **An argument for the rendering function:** the state, or a property of it. -/
inductive Passed where
  | state
  | property (name : String)

namespace Passed

/-- How an argument is written. -/
def text : Passed → String
  | state => "__state"
  | property name => "__state[" ++ quote name ++ "]"

/-- The tokens of an argument. -/
def tokens : Passed → List Token
  | state => [.name "__state".toList]
  | property name =>
    [.name "__state".toList, .symbol .leftBracket, .string (Bytes.ofText name),
      .symbol .rightBracket]

/-- The text of an argument has its tokens. -/
theorem readsAs (a : Passed) : ReadsAs NameEnd a.text.toList a.tokens := by
  have hstate : ReadsAs NameEnd "__state".toList [.name "__state".toList] :=
    readsAs_identifier (by decide)
  cases a with
  | state => exact hstate
  | property name =>
    have hlist : (property name).text.toList =
        "__state".toList ++ (['['] ++ (quoteText name.toList ++ [']'])) := by
      simp [text, quote]
    -- A bracket in front of a bracket or an equals sign might begin a long string.
    have hopen : ReadsAs (fun s => ∃ r, s = '"' :: r) ['['] [.symbol .leftBracket] := by
      refine readsAs_of_steps 1 ?_
      rintro fuel line _ ⟨r, rfl⟩
      rfl
    have hclose : ReadsAs Anything [']'] [.symbol .rightBracket] :=
      readsAs_anything 1 fun _ _ _ => rfl
    have hname := (readsAs_quoteText name.toList).append hclose fun _ _ => trivial
    have hkey := hopen.append hname fun tail _ => ⟨_, by simp [quoteText]; rfl⟩
    have hall := hstate.append hkey (by simp [NameEnd, isNameChar])
    rw [hlist]
    exact fun line tail _ => hall line tail trivial

end Passed

/-- The tokens of the function that a program gives, for any arguments. -/
def entryTokens (as : List Passed) : List Token :=
  [.keyword .«return», .keyword .function, .symbol .leftParen, .name "__state".toList,
    .symbol .rightParen, .keyword .«return», .name "__render".toList, .symbol .leftParen] ++
    (commas (as.map Passed.tokens) ++ [.symbol .rightParen, .keyword .«end»])

/-- The tokens of the last lines, for any arguments. -/
def closeTokens (as : List Passed) : List Token :=
  [.keyword .«return», .name "__concat".toList, .symbol .leftParen, .name "__out".toList,
    .symbol .rightParen, .keyword .«end»] ++ entryTokens as

/-- **The line at which the rendering function is called.** -/
theorem lineReads_pass (as : List Passed) :
    LineReads ("  return __render(" ++ ", ".intercalate (as.map Passed.text) ++ ")")
      ([.keyword .«return», .name "__render".toList, .symbol .leftParen] ++
        (commas (as.map Passed.tokens) ++ [.symbol .rightParen])) := by
  have hlist : ("  return __render(" ++ ", ".intercalate (as.map Passed.text) ++ ")").toList =
      "  return __render(".toList ++
        (", ".toList.intercalate ((as.map Passed.text).map String.toList) ++ [')']) := by
    simp
  have hopen : ReadsAs Anything "  return __render(".toList
      [.keyword .«return», .name "__render".toList, .symbol .leftParen] :=
    readsAs_anything 6 fun _ _ _ => rfl
  have harguments : List.Forall₂ (ReadsAs NameEnd) ((as.map Passed.text).map String.toList)
      (as.map Passed.tokens) := by
    rw [List.map_map, List.forall₂_map_left_iff, List.forall₂_map_right_iff, List.forall₂_same]
    exact fun a _ => a.readsAs
  have hend := (readsAs_commas harguments).append readsAs_close (by simp [NameEnd, isNameChar])
  refine ⟨?_, by simp⟩
  rw [hlist]
  exact hopen.append hend fun _ _ => trivial

/-- The tokens of the statement that ends the rendering function. -/
def concatTokens : List Token :=
  [.keyword .«return», .name "__concat".toList, .symbol .leftParen, .name "__out".toList,
    .symbol .rightParen]

/-- The tokens of the last lines, line by line. -/
def endTokens (as : List Passed) : List (List Token) :=
  [concatTokens,
   [.keyword .«end»],
   [],
   [.keyword .«return», .keyword .function, .symbol .leftParen, .name "__state".toList,
    .symbol .rightParen],
   [.keyword .«return», .name "__render".toList, .symbol .leftParen] ++
    (commas (as.map Passed.tokens) ++ [.symbol .rightParen]),
   [.keyword .«end»]]

/-- **The last lines.** -/
theorem lineReads_end (as : List Passed) :
    List.Forall₂ LineReads (endLines (as.map Passed.text)) (endTokens as) := by
  refine .cons ?_ (.cons ?_ (.cons lineReads_empty (.cons ?_
    (.cons (lineReads_pass as) (.cons ?_ .nil)))))
  all_goals exact lineReads_of_steps (fun _ _ _ => ⟨_, rfl⟩) (by decide)

/-- The tokens of the last lines, one line behind the other. -/
theorem flatten_endTokens (as : List Passed) : (endTokens as).flatten = closeTokens as := by
  simp [endTokens, concatTokens, closeTokens, entryTokens]

end Stencil.Lua
