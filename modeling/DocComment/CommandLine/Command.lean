import DocComment.CommandLine.Arguments
import DocComment.Output
import DocComment.Settings.Layers
import DocComment.TagCatalogue

/-!
The commands and what each prints. Reading files and standard input is left to the caller, who is
told what a command needs.
-/

namespace DocComment.CommandLine

structure RenderOptions where
  line : Option String := none
  language : String := "javascript"
  config : Option String := none
  style : Option String := none
  spacing : Option Nat := none
  plain : Bool := false
  deriving DecidableEq, Repr, Inhabited

structure InspectOptions where
  line : Option String := none
  language : String := "javascript"
  format : String := "symbol-simple"
  deriving DecidableEq, Repr, Inhabited

inductive Command where
  | render (options : RenderOptions)
  | inspect (options : InspectOptions)
  | tags (language : String)
  | languages
  deriving DecidableEq, Repr, Inhabited

/-- Options that may stand on either side of the command. -/
def globalRules : List OptionRule :=
  [⟨"verbose", some 'v', .nothing⟩, ⟨"quiet", some 'q', .nothing⟩, ⟨"help", some 'h', .nothing⟩]

def languageRule : OptionRule := ⟨"language", some 'l', .text⟩

def topRules : List OptionRule := ⟨"version", some 'V', .nothing⟩ :: globalRules

def renderRules : List OptionRule :=
  [languageRule, ⟨"config", some 'c', .text⟩, ⟨"style", none, .text⟩, ⟨"spacing", none, .count⟩,
   ⟨"plain", none, .nothing⟩] ++ globalRules

def inspectRules : List OptionRule :=
  [languageRule, ⟨"format", some 'f', .text⟩] ++ globalRules

def tagsRules : List OptionRule := languageRule :: globalRules

def languageOf (given : Given) : String := (given.value? "language").getD "javascript"

def readRender (words : List String) : Except Stop Command := do
  let given ← readWords renderRules 1 words
  .ok (.render {
    line := given.words.head?, language := languageOf given, config := given.value? "config"
    style := given.value? "style", spacing := (given.value? "spacing").bind count?
    plain := given.flags.contains "plain" })

def readInspect (words : List String) : Except Stop Command := do
  let given ← readWords inspectRules 1 words
  .ok (.inspect {
    line := given.words.head?, language := languageOf given
    format := (given.value? "format").getD "symbol-simple" })

def readTags (words : List String) : Except Stop Command := do
  let given ← readWords tagsRules 0 words
  .ok (.tags (languageOf given))

def readLanguages (words : List String) : Except Stop Command := do
  let _ ← readWords globalRules 0 words
  .ok .languages

def commandNames : List String := ["render", "inspect", "tags", "languages"]

def readNamed (name : String) (words : List String) : Except Stop Command :=
  match name with
  | "render" => readRender words
  | "inspect" => readInspect words
  | "tags" => readTags words
  | "languages" => readLanguages words
  | "help" =>
      match words with
      | [] => .error .help
      | [word] =>
          if commandNames.contains word || word == "help" then .error .help else .error .misuse
      | _ => .error .misuse
  | _ => .error .misuse

def read (given : Given) : List String → Except Stop Command
  | [] => .error .misuse
  | word :: rest =>
      if word = "--" then .error .misuse
      else if isOption word then
        match readOption topRules given word with
        | .ok (given, _) => read given rest
        | .error stop => .error stop
      else readNamed word rest

def parse (words : List String) : Except Stop Command := read {} words

def Command.config? : Command → Option String
  | .render options => options.config
  | _ => none

/-- The command has no line of its own and takes the first one of the input. -/
def Command.readsInput : Command → Bool
  | .render options => options.line.isNone
  | .inspect options => options.line.isNone
  | _ => false

/-- The first line of a text, without the characters that end it. -/
def firstLine (input : String) : String :=
  let line := input.toList.takeWhile (· != '\n')
  Text.dropLastRun '\r' (String.ofList line)

def RenderOptions.settings (options : RenderOptions) (file : Option String) :
    Except Error Settings :=
  let base : Settings.Layers := {}
  let withFile := if options.config.isSome then base.withFile file else base
  let overridden := do
    let styled ← match options.style with
      | some style => withFile.withOverride? "comment_style" (.text style)
      | none => some withFile
    match options.spacing with
    | some spacing => styled.withOverride? "column_spacing" (.integer spacing)
    | none => some styled
  match overridden.bind (·.build?) with
  | some settings => .ok settings
  | none => .error .settings

def padded (width : Nat) (text : String) : String :=
  text ++ Text.spaces (width - text.length)

def tagLine (tag : Tag) : String := padded 16 tag.label ++ tag.detail ++ "\n"

def languageLine (language : Language) : String :=
  padded 12 language.id ++ Text.joinWith ", " language.aliases ++ "\n"

/-- What a command prints, given the text of its settings file and the input. -/
def Command.run (file : Option String) (input : String) : Command → Except Error String
  | .render options => do
      let language ← Language.named options.language
      let settings ← options.settings file
      let line := options.line.getD (firstLine input)
      let format := if options.plain then Format.plain else .snippet
      let written ← language.output settings ⟨.comment, format⟩ line
      .ok (written ++ "\n")
  | .inspect options => do
      let language ← Language.named options.language
      let spec ← (OutputSpec.parse options.format).mapError .format
      let line := options.line.getD (firstLine input)
      let written ← language.output {} spec line
      .ok (written ++ "\n")
  | .tags id => do
      let language ← Language.named id
      .ok (Text.joinWith "" (language.tags.map tagLine))
  | .languages => .ok (Text.joinWith "" (Language.all.map languageLine))

def versionText : String := "docblock 0.1.0\n"

end DocComment.CommandLine
