import ManagedLayout.Json.Basic
import ManagedLayout.Text.Quoted

/-!
# Writing JSON texts

A value is written on one line (`Json.compact`), or with one item or member a line, indented by two
blanks for each level (`Json.pretty`). Strings are escaped only where the format demands it.
-/

namespace ManagedLayout.Json

/-- How one character is written inside a string. -/
def escapedChar (char : Char) : String :=
  match char with
  | '"' => "\\\""
  | '\\' => "\\\\"
  | '\x08' => "\\b"
  | '\x0c' => "\\f"
  | '\n' => "\\n"
  | '\r' => "\\r"
  | '\t' => "\\t"
  | _ =>
    if char.toNat < 0x10 then "\\u000" ++ Text.hexadecimal char.toNat
    else if char.toNat < 0x20 then "\\u00" ++ Text.hexadecimal char.toNat
    else char.toString

/-- A string between its quotes. -/
def stringText (text : String) : String :=
  "\"" ++ text.toList.foldl (fun done char ↦ done ++ escapedChar char) "" ++ "\""

mutual

/-- The text of a value on one line. -/
def compact : Json → String
  | null => "null"
  | bool true => "true"
  | bool false => "false"
  | number value => value.text
  | string text => stringText text
  | array items => "[" ++ ",".intercalate (compactItems items) ++ "]"
  | object members => "\x7b" ++ ",".intercalate (compactMembers members) ++ "\x7d"
  | meaningless => "null"

/-- The texts of the items of an array. -/
def compactItems : List Json → List String
  | [] => []
  | item :: rest => item.compact :: compactItems rest

/-- The texts of the members of an object. -/
def compactMembers : List (String × Json) → List String
  | [] => []
  | (key, value) :: rest => (stringText key ++ ":" ++ value.compact) :: compactMembers rest

end

/-- A line break and the indentation of a level. -/
def lineBreak (level : Nat) : String := "\n" ++ String.ofList (List.replicate (2 * level) ' ')

/-- Lines between brackets, one level deeper than the brackets themselves. -/
def block (level : Nat) (left right : String) (lines : List String) : String :=
  if lines.isEmpty then left ++ right
  else
    left ++ lineBreak (level + 1) ++ ("," ++ lineBreak (level + 1)).intercalate lines
      ++ lineBreak level ++ right

mutual

/-- The text of a value on as many lines as it has parts, at an indentation level. -/
def prettyAt (level : Nat) : Json → String
  | array items => block level "[" "]" (prettyItems (level + 1) items)
  | object members => block level "\x7b" "\x7d" (prettyMembers (level + 1) members)
  | value => value.compact

/-- The texts of the items of an array. -/
def prettyItems (level : Nat) : List Json → List String
  | [] => []
  | item :: rest => item.prettyAt level :: prettyItems level rest

/-- The texts of the members of an object. -/
def prettyMembers (level : Nat) : List (String × Json) → List String
  | [] => []
  | (key, value) :: rest =>
    (stringText key ++ ": " ++ value.prettyAt level) :: prettyMembers level rest

end

/-- The text of a value on as many lines as it has parts. -/
def pretty (value : Json) : String := value.prettyAt 0

end ManagedLayout.Json
