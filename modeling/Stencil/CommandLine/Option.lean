set_option autoImplicit false

/-!
# Options on the command line

An option has a long name behind two dashes and may have a letter behind one. Its value follows
an equals sign, or stands right behind the letter, or is the next argument. Two dashes alone end
the options; a single dash is no option.

## Main definitions

* `Stencil.CommandLine.Name` — the options that there are.
* `Stencil.CommandLine.Item` — what an argument turns out to be.
* `Stencil.CommandLine.scan` — the items of a list of arguments.
-/

namespace Stencil.CommandLine

/-- **The options.** -/
inductive Name where
  | config
  | verbose
  | json
  | state
  | param
  | includes
  deriving DecidableEq, Repr

namespace Name

/-- The long name of an option. -/
def long : Name → String
  | config => "config"
  | verbose => "verbose"
  | json => "json"
  | state => "state"
  | param => "param"
  | includes => "include"

/-- The letter of an option. -/
def letter? : Name → Option Char
  | config => some 'c'
  | verbose => some 'v'
  | json => none
  | state => some 's'
  | param => some 'p'
  | includes => some 'i'

/-- Whether an option has a value. -/
def takesValue : Name → Bool
  | verbose | json => false
  | _ => true

/-- Whether an option can be given more than once. -/
def repeats : Name → Bool
  | includes => true
  | _ => false

end Name

/-- **What an argument turns out to be.** -/
inductive Item where
  | flag (name : Name)
  | option (name : Name) (value : List Char)
  | argument (text : List Char)
  deriving DecidableEq, Repr

/-- What one argument says by itself. -/
inductive Reading where
  /-- An argument that is no option. -/
  | plain
  /-- Options, all of them complete. -/
  | complete (items : List Item)
  /-- Options, the last of which has its value in the next argument. -/
  | waiting (items : List Item) (name : Name)
  /-- No option that is known here. -/
  | unknown
  deriving DecidableEq, Repr

/-! ## One argument -/

/-- Whether an argument begins like an option. -/
def looksLikeOption : List Char → Bool
  | '-' :: _ :: _ => true
  | _ => false

/-- What a long option says, behind its two dashes. -/
def readLong (known : List Name) (s : List Char) : Reading :=
  let word := s.takeWhile (· != '=')
  match known.find? (·.long.toList == word), s.drop word.length with
  | none, _ => .unknown
  | some name, [] => if name.takesValue then .waiting [] name else .complete [.flag name]
  | some name, _ :: value =>
    if name.takesValue then .complete [.option name value] else .unknown

/-- What letters behind one dash say. The first that takes a value takes all that follows. -/
def readLetters (known : List Name) : List Char → Reading
  | [] => .complete []
  | c :: s => match known.find? (·.letter? == some c) with
    | none => .unknown
    | some name =>
      if name.takesValue then
        match s with
        | [] => .waiting [] name
        | '=' :: value => .complete [.option name value]
        | value => .complete [.option name value]
      else match readLetters known s with
        | .complete items => .complete (.flag name :: items)
        | .waiting items last => .waiting (.flag name :: items) last
        | r => r

/-- **What one argument says.** -/
def readArgument (known : List Name) : List Char → Reading
  | '-' :: '-' :: s => readLong known s
  | '-' :: c :: s => readLetters known (c :: s)
  | _ => .plain

/-! ## All arguments -/

/-- **The items of a list of arguments,** and the arguments that are left. With `stops`, reading
stops in front of the first argument that is no option. None for what is no list of options and
arguments. -/
def scan (known : List Name) (stops : Bool) :
    List (List Char) → Option (List Item × List (List Char))
  | [] => some ([], [])
  | a :: rest =>
    if a = ['-', '-'] then
      if stops then none else some (rest.map .argument, [])
    else match readArgument known a with
      | .unknown => none
      | .plain =>
        if stops then some ([], a :: rest)
        else (scan known stops rest).map fun (items, left) => (.argument a :: items, left)
      | .complete found =>
        (scan known stops rest).map fun (items, left) => (found ++ items, left)
      | .waiting found name => match rest with
        | [] => none
        | value :: rest =>
          if looksLikeOption value then none
          else (scan known stops rest).map fun (items, left) =>
            (found ++ .option name value :: items, left)

/-! ## Looking at items -/

/-- The values of an option, in order. -/
def valuesOf (name : Name) (items : List Item) : List (List Char) :=
  items.filterMap fun
    | .option n value => if n = name then some value else none
    | _ => none

/-- Whether a flag is set. -/
def isSet (name : Name) (items : List Item) : Bool := items.contains (.flag name)

/-- The arguments that are no options, in order. -/
def argumentsOf (items : List Item) : List (List Char) :=
  items.filterMap fun
    | .argument text => some text
    | _ => none

/-- The option that an item is one of. -/
def Item.name? : Item → Option Name
  | flag name | option name _ => some name
  | argument _ => none

/-- Whether no option is given more often than it can be. -/
def noneRepeated (items : List Item) : Bool :=
  let names := (items.filterMap Item.name?).filter (!·.repeats)
  names.all fun n => names.count n == 1

end Stencil.CommandLine
