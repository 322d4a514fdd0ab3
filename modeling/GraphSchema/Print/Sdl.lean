/-
  GraphSchema.Print.Sdl — a schema in the schema definition language.

  Blocks stand in the order of the types, with an empty line between two. A schema block
  comes first unless the roots have their usual names. Built-in scalars are left out,
  known by their names. A description stands above what it describes: as a quoted string,
  or as a block between triple quotes if it has several lines. Arguments stand on the line
  of their field. Default values and reasons are written as values of the language, which
  are JSON but for the names of object fields and the blanks after separators.
-/

import GraphSchema.Json.Text
import GraphSchema.Schema.Basic
import GraphSchema.Text.Lines

namespace GraphSchema

namespace Sdl

/-! ## Values -/

mutual

def value : Json → String
  | .array items => "[" ++ values items ++ "]"
  | .object members => "\x7b" ++ entries members ++ "\x7d"
  | leaf => leaf.text

def values : List Json → String
  | [] => ""
  | [item] => value item
  | item :: rest => value item ++ ", " ++ values rest

def entries : List (String × Json) → String
  | [] => ""
  | [(name, item)] => name ++ ": " ++ value item
  | (name, item) :: rest => name ++ ": " ++ value item ++ ", " ++ entries rest

end

def defaultValue : Option Json → String
  | none => ""
  | some default => " = " ++ value default

/-! ## Descriptions and deprecations -/

/-- Three quotes in a row get a backslash in front. -/
def escapeTripleQuotes : List Char → List Char
  | '"' :: '"' :: '"' :: rest => '\\' :: '"' :: '"' :: '"' :: escapeTripleQuotes rest
  | c :: rest => c :: escapeTripleQuotes rest
  | [] => []

def tripleQuote : String := "\"\"\""

/-- A line of a block; an empty one is not indented. -/
def blockLine (indent : String) (line : List Char) : String :=
  if line.isEmpty then "\n" else indent ++ String.ofList (escapeTripleQuotes line) ++ "\n"

def block (indent : String) (text : List Char) : String :=
  indent ++ tripleQuote ++ "\n" ++ String.join ((linesOf text).map (blockLine indent)) ++
    indent ++ tripleQuote ++ "\n"

def description (indent : String) : Option String → String
  | none => ""
  | some text =>
    if text.toList.contains '\n' then block indent text.toList
    else indent ++ quoted text ++ "\n"

/-- The reason that goes without saying. -/
def usualReason : String := "No longer supported"

def deprecation : Option String → String
  | none => ""
  | some reason =>
    if reason = usualReason ∨ reason = "" then " @deprecated"
    else " @deprecated(reason: " ++ quoted reason ++ ")"

/-! ## Types -/

def argument (argument : Argument) : String :=
  argument.name ++ ": " ++ argument.type.display ++ defaultValue argument.defaultValue

def arguments (args : List Argument) : String :=
  if args.isEmpty then "" else "(" ++ joinWith ", " (args.map argument) ++ ")"

/-- Lines between braces. -/
def braced (lines : List String) : String := "\x7b\n" ++ String.join lines ++ "\x7d"

def field (field : FieldDefinition) : String :=
  description "  " field.description ++ "  " ++ field.name ++ arguments field.args ++ ": " ++
    field.type.display ++ deprecation field.deprecationReason ++ "\n"

def enumValue (value : EnumValue) : String :=
  description "  " value.description ++ "  " ++ value.name ++
    deprecation value.deprecationReason ++ "\n"

def inputField (field : InputField) : String :=
  description "  " field.description ++ "  " ++ field.name ++ ": " ++ field.type.display ++
    defaultValue field.defaultValue ++ "\n"

def implementsClause (interfaces : List String) : String :=
  if interfaces.isEmpty then "" else " implements " ++ joinWith " & " interfaces

/-- The definition without its description. -/
def body : TypeDefinition → String
  | .scalar type => "scalar " ++ type.name
  | .object type =>
    "type " ++ type.name ++ implementsClause type.interfaces ++ " " ++
      braced (type.fields.values.map field)
  | .interface type => "interface " ++ type.name ++ " " ++ braced (type.fields.values.map field)
  | .union type => "union " ++ type.name ++ " = " ++ joinWith " | " (type.types.map (·.name))
  | .enum type => "enum " ++ type.name ++ " " ++ braced (type.values.map enumValue)
  | .inputObject type => "input " ++ type.name ++ " " ++ braced (type.fields.values.map inputField)

def type (type : TypeDefinition) : String := description "" type.description ++ body type

/-! ## The whole schema -/

def rootLine (operation name : String) : String := "  " ++ operation ++ ": " ++ name ++ "\n"

/-- The schema block; none if the roots are `Query` and, where there is one, `Mutation`. -/
def roots (schema : Schema) : Option String :=
  let mutation := schema.mutation.map ObjectType.name
  if schema.query.name = "Query" ∧ mutation.all (· == "Mutation") then none
  else
    some ("schema " ++
      braced (rootLine "query" schema.query.name :: mutation.toList.map (rootLine "mutation")))

def blocks (schema : Schema) : List String :=
  (roots schema).toList ++
    (schema.types.values.filter fun definition => !isBuiltinScalar definition.name).map type

def schema (schema : Schema) : String := joinWith "\n\n" (blocks schema)

end Sdl

end GraphSchema
