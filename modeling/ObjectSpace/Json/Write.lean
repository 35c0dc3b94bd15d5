import ObjectSpace.Json.Basic

set_option autoImplicit false

namespace ObjectSpace.Json

def hexDigit (value : Nat) : Char := Nat.digitChar (value % 16)

def escape (c : Char) : String :=
  if c = '"' then "\\\""
  else if c = '\\' then "\\\\"
  else if c.toNat = 8 then "\\b"
  else if c.toNat = 12 then "\\f"
  else if c = '\n' then "\\n"
  else if c = '\r' then "\\r"
  else if c = '\t' then "\\t"
  else if c.toNat < 0x20 then
    "\\u00" ++ String.ofList [hexDigit (c.toNat / 16), hexDigit c.toNat]
  else c.toString

def quote (text : String) : String := "\"" ++ String.join (text.toList.map escape) ++ "\""

def writeText : JsonText → String
  | .plain text => quote text
  | .unpaired => quote "\uFFFD"

structure Layout where
  newPart : Nat → String
  afterColon : String

def Layout.compact : Layout where
  newPart := fun _ => ""
  afterColon := ""

def Layout.pretty : Layout where
  newPart := fun depth => "\n" ++ String.ofList (List.replicate (2 * depth) ' ')
  afterColon := " "

mutual

def write (layout : Layout) (depth : Nat) : Json → String
  | .null => "null"
  | .bool true => "true"
  | .bool false => "false"
  | .integer value => toString value
  | .otherNumber => "-0"
  | .string text => writeText text
  | .array [] => "[]"
  | .array (first :: rest) =>
      "[" ++ layout.newPart (depth + 1) ++ write layout (depth + 1) first
        ++ writeItems layout (depth + 1) rest ++ layout.newPart depth ++ "]"
  | .object [] => "\x7b\x7d"
  | .object ((name, value) :: rest) =>
      "\x7b" ++ layout.newPart (depth + 1) ++ writeText name ++ ":" ++ layout.afterColon
        ++ write layout (depth + 1) value ++ writeMembers layout (depth + 1) rest
        ++ layout.newPart depth ++ "\x7d"

def writeItems (layout : Layout) (depth : Nat) : List Json → String
  | [] => ""
  | item :: rest =>
      "," ++ layout.newPart depth ++ write layout depth item ++ writeItems layout depth rest

def writeMembers (layout : Layout) (depth : Nat) : List (JsonText × Json) → String
  | [] => ""
  | (name, value) :: rest =>
      "," ++ layout.newPart depth ++ writeText name ++ ":" ++ layout.afterColon
        ++ write layout depth value ++ writeMembers layout depth rest

end

def compact (json : Json) : String := write .compact 0 json

def pretty (json : Json) : String := write .pretty 0 json

end ObjectSpace.Json
