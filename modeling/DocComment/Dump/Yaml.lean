import DocComment.Dump.Node
import DocComment.Dump.YamlScalar

/-!
YAML in block style: one field or item to a line, records two spaces inside their name, lists at the
indent of theirs.
-/

namespace DocComment.Node.Yaml

def valueIndent (indent : Nat) : Node → Nat
  | .list (_ :: _) => indent
  | _ => indent + 2

/-- What stands between the colon of a field and its value. -/
def lead (indent : Nat) (value : Node) : String :=
  match value with
  | .list (_ :: _) | .record (_ :: _) => "\n" ++ Text.spaces (valueIndent indent value)
  | _ => " "

mutual

/-- The node from where the line stands, with its further lines behind the given indent and a line
break at its end. -/
def render (indent : Nat) : Node → String
  | .text value => scalar indent value
  | .number value => toString value ++ "\n"
  | .flag value => if value then "true\n" else "false\n"
  | .list items => if items.isEmpty then "[]\n" else renderItems indent items
  | .record fields => if fields.isEmpty then "\x7b\x7d\n" else renderFields indent fields

def renderItems (indent : Nat) : List Node → String
  | [] => ""
  | [item] => "- " ++ render (indent + 2) item
  | item :: items =>
      "- " ++ render (indent + 2) item ++ Text.spaces indent ++ renderItems indent items

def renderFields (indent : Nat) : List (String × Node) → String
  | [] => ""
  | [(name, value)] => name ++ ":" ++ lead indent value ++ render (valueIndent indent value) value
  | (name, value) :: fields =>
      name ++ ":" ++ lead indent value ++ render (valueIndent indent value) value ++
        Text.spaces indent ++ renderFields indent fields

end

end DocComment.Node.Yaml

namespace DocComment.Node

def yaml (node : Node) : String := Yaml.render 0 node

end DocComment.Node
