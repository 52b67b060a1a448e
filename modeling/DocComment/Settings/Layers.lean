import DocComment.Settings.Toml

/-!
Settings in layers: the built-in ones, then files in order, then single overrides. A later layer wins
name by name, and overrides win over every file whenever they were made.
-/

namespace DocComment.Settings

/-- The steps of a dotted path: letters, digits, spaces, underscores and hyphens with single points
between them. -/
def isStepChar (c : Char) : Bool := c.isAlphanum || c == ' ' || c == '_' || c == '-'

/-- The path that a text spells, from a step that starts with what was read of it so far. -/
def pathFrom? (step : List Char) : List Char → Option (List String)
  | [] => if step.isEmpty then none else some [String.ofList step]
  | c :: cs =>
      if c = '.' then
        if step.isEmpty then none else (pathFrom? [] cs).map (String.ofList step :: ·)
      else if isStepChar c then pathFrom? (step ++ [c]) cs
      else none

def path? (text : String) : Option (List String) := pathFrom? [] text.toList

structure Layers where
  /-- The files; one that is absent or malformed has no entries to give. -/
  files : List (Option (List (String × Value))) := []
  overrides : List (List String × Value) := []
  deriving Inhabited

namespace Layers

def withFile (layers : Layers) (text : Option String) : Layers :=
  { layers with files := layers.files ++ [text.bind Toml.parse?] }

def withOptionalFile (layers : Layers) (text : Option String) : Layers :=
  if text.isSome then layers.withFile text else layers

/-- A second value for the same path takes the place of the first. -/
def putOverride (path : List String) (value : Value) :
    List (List String × Value) → List (List String × Value)
  | [] => [(path, value)]
  | (known, old) :: rest =>
      if known = path then (known, value) :: rest else (known, old) :: putOverride path value rest

def withOverride? (layers : Layers) (name : String) (value : Value) : Option Layers :=
  (path? name).map fun path =>
    { layers with overrides := putOverride (path.map Value.lower) value layers.overrides }

/-- A name in a file that spells a path is one. -/
def fileEntry (root : Value) (entry : String × Value) : Value :=
  Value.assignAt ((path? entry.1).getD [entry.1]) entry.2 root

def merged? (layers : Layers) : Option Value :=
  (layers.files.mapM id).map fun files =>
    let below := files.foldl (fun root entries => entries.foldl fileEntry root)
      (Value.ofSettings {})
    layers.overrides.foldl (fun root (path, value) => Value.assignAt path value root) below

def build? (layers : Layers) : Option Settings := layers.merged?.bind Value.toSettings?

end Layers

end DocComment.Settings
