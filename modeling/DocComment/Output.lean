import DocComment.Comment.Layout
import DocComment.Declaration.Recognition
import DocComment.Dump.Json
import DocComment.Dump.Yaml
import DocComment.Error

/-!
What is written for a line: its tokens, its symbol or its comment, each in formats of its own. A line
that cannot be scanned has no tokens and no symbol, but still a comment, the empty one.
-/

namespace DocComment

inductive Stage where
  | token | symbol | comment
  deriving DecidableEq, Repr, Inhabited

def Stage.all : List Stage := [.token, .symbol, .comment]

def Stage.name : Stage → String
  | .token => "token"
  | .symbol => "symbol"
  | .comment => "comment"

inductive Format where
  | simple | json | yaml | snippet | plain
  deriving DecidableEq, Repr, Inhabited

def Format.all : List Format := [.simple, .json, .yaml, .snippet, .plain]

def Format.name : Format → String
  | .simple => "simple"
  | .json => "json"
  | .yaml => "yaml"
  | .snippet => "snippet"
  | .plain => "plain"

def Format.ofName? (name : String) : Option Format := Format.all.find? (·.name == name)

structure OutputSpec where
  stage : Stage
  format : Format
  deriving DecidableEq, Repr, Inhabited

namespace OutputSpec

def available : List OutputSpec :=
  [⟨.token, .simple⟩, ⟨.token, .json⟩, ⟨.token, .yaml⟩,
   ⟨.symbol, .simple⟩, ⟨.symbol, .json⟩, ⟨.symbol, .yaml⟩,
   ⟨.comment, .snippet⟩, ⟨.comment, .plain⟩]

def name (spec : OutputSpec) : String := spec.stage.name ++ "-" ++ spec.format.name

def splitAtHyphen? : List Char → Option (List Char × List Char)
  | [] => none
  | c :: cs =>
      if c = '-' then some ([], cs)
      else (splitAtHyphen? cs).map fun (before, after) => (c :: before, after)

def parse (text : String) : Except FormatError OutputSpec :=
  match splitAtHyphen? text.toList with
  | none => .error (.unknown text)
  | some (before, after) =>
      match Stage.all.find? (·.name == String.ofList before), Format.ofName? (String.ofList after) with
      | some stage, some format =>
          if available.contains ⟨stage, format⟩ then .ok ⟨stage, format⟩
          else .error (.inapplicable text stage.name)
      | _, _ => .error (.unknown text)

end OutputSpec

def formatTokens (tokens : List Token) : Format → Except FormatError String
  | .simple => .ok (Text.joinWith " " (tokens.map (·.shown)))
  | .json => .ok (Node.list (tokens.map (·.node))).json
  | .yaml => .ok (Node.list (tokens.map (·.node))).yaml
  | .snippet => .error (.commentOnly "snippet")
  | .plain => .error (.commentOnly "plain")

namespace Symbol

def marked (mark : String) (value : Option String) : String :=
  match value with
  | some value => mark ++ value
  | none => ""

def Param.outline (param : Param) : String :=
  "\n  param " ++ param.name ++ marked ": " param.type ++ marked " = " param.value

def Return.outline (returns : Return) : String :=
  if returns.present then "\n  returns" ++ marked " " returns.type else ""

def outline (symbol : Symbol) : String :=
  Text.trimEnd (symbol.kind.name ++ " " ++ symbol.name ++ marked ": " symbol.varType ++
    Text.joinWith "" (symbol.params.map (·.outline)) ++ symbol.returns.outline)

end Symbol

def formatSymbol (symbol : Symbol) : Format → Except FormatError String
  | .simple => .ok symbol.outline
  | .json => .ok symbol.node.json
  | .yaml => .ok symbol.node.yaml
  | .snippet => .error (.commentOnly "snippet")
  | .plain => .error (.commentOnly "plain")

namespace Language

/-- The comment for a line, as a snippet; empty if the line cannot be scanned. -/
def comment (language : Language) (settings : Settings) (line : String) : String :=
  let layout : Comment.Layout := { settings, language }
  match language.parse line with
  | .ok symbol => layout.render symbol
  | .error _ => layout.emptyBlock

def output (language : Language) (settings : Settings) (spec : OutputSpec) (line : String) :
    Except Error String :=
  match spec.stage with
  | .token => do
      let tokens ← (language.tokens line).mapError .scan
      (formatTokens tokens spec.format).mapError .format
  | .symbol => do
      let symbol ← (language.parse line).mapError .scan
      (formatSymbol symbol spec.format).mapError .format
  | .comment =>
      let snippet := language.comment settings line
      .ok (if spec.format = .plain then Field.strip snippet else snippet)

def named (id : String) : Except Error Language :=
  match ofId? id with
  | some language => .ok language
  | none => .error (.unsupportedLanguage id)

end Language

end DocComment
