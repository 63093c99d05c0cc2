import Stencil.Handler
import Stencil.Lua.Name
set_option autoImplicit false

/-!
# Programs in Lua for templates

A program is a chunk that takes the table of the referenced modules and returns a function of the
state. It binds one local for each import, and has one statement for each part of the template.

## Main definitions

* `Stencil.Lua.prelude` — what each program begins with.
* `Stencil.Lua.importBinding` — the local that an import is bound to.
* `Stencil.Lua.Signature` — the parameters of the rendering function and where they come from.
* `Stencil.Lua.partStatement` — the statement for a part.
* `Stencil.Lua.generate` — the program.
-/

namespace Stencil.Lua

/-! ## Fixed text -/

/-- The comment in the first line, which names the language and the type of the state. -/
def header (input : HandlerInput) : String :=
  "-- codet template program (" ++ input.language ++ ", state " ++ input.stateType.name ++ ")"

/-- **What each program begins with:** the globals that it needs, and the function that finds an
import, first among the modules and then along the dots of its path among the globals. -/
def prelude : List String :=
  ["local __modules = ...",
   "local __concat = table.concat",
   "local __tostring = tostring",
   "local __type = type",
   "local __gmatch = string.gmatch",
   "",
   "local function __import(path)",
   "  local module = __modules[path]",
   "  if module ~= nil then",
   "    return module",
   "  end",
   "  local value = _G",
   "  for segment in __gmatch(path, \"[^%.]+\") do",
   "    if __type(value) ~= \"table\" then",
   "      value = nil",
   "      break",
   "    end",
   "    value = value[segment]",
   "  end",
   "  if value == nil then",
   "    error(\"module '\" .. path .. \"' not found\", 2)",
   "  end",
   "  return value",
   "end",
   ""]

/-- The beginning of the rendering function: the pieces of the output, and how to add one. -/
def renderPrologue : List String :=
  ["  local __out = \x7b\x7d",
   "  local function __write(value)",
   "    if value ~= nil then",
   "      __out[#__out + 1] = __tostring(value)",
   "    end",
   "  end"]

/-! ## Imports -/

/-- The last segment of a dotted path. -/
def lastSegment (path : String) : String :=
  String.ofList (((Text.splitOn '.' path.toList).getLast?).getD [])

/-- **The local that an import is bound to:** the last segment of its path. It must be usable,
except that the support table may be imported under its own name. -/
def importBinding (path : String) : Except Error String :=
  let binding := lastSegment path
  if isIdentifier binding && (!isReserved binding || path == supportName) then .ok binding
  else .error (.invalidArgument "imports" s!"import '{path}' does not end in a usable Lua name")

/-- The statement that binds a local to an import. -/
def importStatement (binding path : String) : String :=
  "local " ++ binding ++ " = __import(" ++ quote path ++ ")"

/-- The statement of one import. -/
def importLine (path : String) : Except Error String :=
  (importBinding path).map fun binding => importStatement binding path

/-- The statements of all imports. The support table is always among them. -/
def importLines (imports : NameSet) : Except Error (List String) :=
  (imports.toList.mapM importLine).map fun lines =>
    if imports.contains supportName then lines
    else lines ++ [importStatement supportName supportName]

/-! ## Parameters -/

/-- **The parameters of the rendering function** and the arguments for them. -/
structure Signature where
  parameters : List String
  arguments : List String

/-- The signature with the whole state as one parameter. -/
def namedSignature (name : String) : Except Error Signature :=
  if isUsable name then .ok ⟨[name], ["__state"]⟩
  else .error (.invalidArgument "parameter_name" s!"'{name}' is not a usable Lua identifier")

/-- One parameter for a property of the state. -/
def propertyParameter (typeName property : String) : Except Error String :=
  if isUsable property then .ok property
  else .error (.invalidArgument "state_type"
    s!"property '{property}' of {typeName} is not a usable Lua identifier")

/-- The signature with a parameter for each property of the state. -/
def propertySignature (stateType : StateType) : Except Error Signature :=
  (stateType.properties.mapM (propertyParameter stateType.name)).map fun parameters =>
    ⟨parameters, parameters.map fun p => "__state[" ++ quote p ++ "]"⟩

/-- **The signature for an input.** -/
def signature (input : HandlerInput) : Except Error Signature :=
  if input.isPropertyMode then propertySignature input.stateType
  else namedSignature (Text.trimString input.parameterName)

/-! ## Parts -/

/-- Whether a part is a block with both its markers. -/
def isBlock (part : List Char) : Bool :=
  ['<', '%'].isPrefixOf part && Template.blockEndText.isSuffixOf part

/-- The statement that writes the value of an expression. -/
def writeStatement (expression : String) : String := "  __write(" ++ expression ++ ")"

/-- What stands between the markers of a block. -/
def blockInside (part : List Char) : List Char := (part.drop 2).take (part.length - 4)

/-- **The statement for a part,** if it needs one. A literal is written as it is; a block is code,
or an expression whose value is written, or an include. -/
def partStatement (part : String) : Except Error (Option String) :=
  let text := part.toList
  if isBlock text then
    match Template.classify text with
    | some .inclusion =>
      let name := String.ofList ((Template.includeName text).getD [])
      .ok (some (writeStatement ("codet.include(" ++ quote name ++ ")")))
    | some .configuration =>
      .error (.invalidArgument "code_parts"
        s!"configuration directive left in code parts: {part}")
    | none =>
      if text.length < 4 then .error .overlappingMarkers
      else match blockInside text with
        | '=' :: expression =>
          .ok (some (writeStatement (String.ofList (Text.trim expression))))
        | code => .ok (some ("  " ++ String.ofList (Text.trim code)))
  else if text.isEmpty then .ok none
  else .ok (some (writeStatement (quote part)))

/-- The statements for all parts. -/
def bodyLines (parts : List String) : Except Error (List String) :=
  (parts.mapM partStatement).map fun statements => statements.filterMap id

/-! ## Programs -/

/-- A text of lines, each with its line break. -/
def lines (ls : List String) : String := String.join (ls.map (· ++ "\n"))

/-- **The program for an input.** -/
def generate (input : HandlerInput) : Except Error String := do
  let s ← signature input
  let imports ← importLines input.imports
  let body ← bodyLines input.codeParts
  return lines (
    [header input] ++ prelude ++ imports ++ [""] ++
    ["local function __render(" ++ ", ".intercalate s.parameters ++ ")"] ++ renderPrologue ++
    body ++
    ["  return __concat(__out)", "end", "",
     "return function(__state)",
     "  return __render(" ++ ", ".intercalate s.arguments ++ ")",
     "end"])

end Stencil.Lua
