import DocComment.Dump.Node
import DocComment.Text.Ending

/-!
JSON with two spaces for each level. Quotes, backslashes and control characters are escaped and every
other character stands for itself.
-/

namespace DocComment.Node.Json

def hexDigit (value : Nat) : Char := Nat.digitChar (value % 16)

def escapeChar (c : Char) : List Char :=
  if c = '\x22' then ['\\', '\x22']
  else if c = '\\' then ['\\', '\\']
  else if c = '\x08' then ['\\', 'b']
  else if c = '\t' then ['\\', 't']
  else if c = '\n' then ['\\', 'n']
  else if c = '\x0c' then ['\\', 'f']
  else if c = '\r' then ['\\', 'r']
  else if c.toNat < 0x20 then ['\\', 'u', '0', '0', hexDigit (c.toNat / 16), hexDigit c.toNat]
  else [c]

def quoted (text : String) : String :=
  "\"" ++ String.ofList (text.toList.flatMap escapeChar) ++ "\""

def newline (indent : Nat) : String := "\n" ++ Text.spaces indent

mutual

/-- The node, with its inner lines behind the given indent. -/
def render (indent : Nat) : Node → String
  | .text value => quoted value
  | .number value => toString value
  | .flag value => if value then "true" else "false"
  | .list items =>
      if items.isEmpty then "[]"
      else "[" ++ renderItems (indent + 2) items ++ newline indent ++ "]"
  | .record fields =>
      if fields.isEmpty then "\x7b\x7d"
      else "\x7b" ++ renderFields (indent + 2) fields ++ newline indent ++ "\x7d"

def renderItems (indent : Nat) : List Node → String
  | [] => ""
  | [item] => newline indent ++ render indent item
  | item :: items => newline indent ++ render indent item ++ "," ++ renderItems indent items

def renderFields (indent : Nat) : List (String × Node) → String
  | [] => ""
  | [(name, value)] => newline indent ++ quoted name ++ ": " ++ render indent value
  | (name, value) :: fields =>
      newline indent ++ quoted name ++ ": " ++ render indent value ++ "," ++
        renderFields indent fields

end

end DocComment.Node.Json

namespace DocComment.Node

def json (node : Node) : String := Json.render 0 node

end DocComment.Node
