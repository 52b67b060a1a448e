import Mathlib.Control.Monad.Basic
import DocComment.Proofs.Signature

/-!
Mixins and functions of the language of at-rules. A parameter is a word with a dollar sign, and what
follows its colon is a value up to a comma of the list, however many words with dollar signs, colons
and brackets stand in it. The main statement is that recognition reads a declaration back exactly,
with its parameter list or without.
-/

namespace DocComment.AtRule

open Token Grammar DefaultValue

structure DollarWord where
  text : String
  marked : Text.firstChar? text = some '$'

def DollarWord.lexeme (name : DollarWord) : Lexeme := word name.text

theorem DollarWord.is_dollar_word (name : DollarWord) :
    isDollarWord (ofLexeme name.lexeme) = true := by
  simp [isDollarWord, lexeme, name.marked]

inductive Ending where
  | bare
  | variadic
  | default (value : Value)

namespace Ending

def lexemes : Ending → List Lexeme
  | .bare => []
  | .variadic => [(.ellipsis, "...")]
  | .default value => (.colon, ":") :: value.lexemes

def value? : Ending → Option String
  | .bare | .variadic => none
  | .default value => value.text

end Ending

/-- `$name`, `$name...` or `$name: value`. -/
structure Parameter where
  name : DollarWord
  ending : Ending := .bare

namespace Parameter

def lexemes (parameter : Parameter) : List Lexeme :=
  parameter.name.lexeme :: parameter.ending.lexemes

def param (parameter : Parameter) : Symbol.Param where
  name := parameter.name.text
  value := parameter.ending.value?

end Parameter

structure Declaration where
  keyword : grammar.Keyword .functionWord
  name : grammar.Name
  parameters : Option (List Parameter) := none

namespace Declaration

def listLexemes (declaration : Declaration) : List Lexeme :=
  match declaration.parameters with
  | none => []
  | some parameters =>
      (.openParen, "(") :: separated (parameters.map (·.lexemes)) ++ [(.closeParen, ")")]

def lexemes (declaration : Declaration) : List Lexeme :=
  declaration.keyword.lexeme :: declaration.name.lexeme :: declaration.listLexemes

/-- A function returns something, of a type nobody writes; a mixin does not. -/
def symbol (declaration : Declaration) : Symbol where
  name := declaration.name.text
  kind := .function
  params := (declaration.parameters.getD []).map (·.param)
  returns := { present := declaration.keyword.text == "function", type := none }
  varType := none

end Declaration

def listReading (symbol : Symbol) (value : Bool) (previous : Option Kind) : Reading where
  symbol
  expects := { parameter := true, value, previous }

section

variable {symbol : Symbol} (kind : symbol.kind = .function)
include kind

theorem step_list_reading {value : Bool} {previous : Option Kind} (lexeme : Lexeme) :
    Language.scss.stepUnlessDone (listReading symbol value previous) (ofLexeme lexeme) =
      Language.past (parameters (listReading symbol value previous) (ofLexeme lexeme)) lexeme.1 :=
  Language.step_in_list .scss _ _ kind rfl rfl

/-- Where a value is not expected, or ends here, every token is one of the list. -/
theorem step_list_token {value : Bool} {previous : Option Kind} {lexeme : Lexeme}
    (noValue : value = true → nestingAfter? 0 lexeme.1 = none) :
    Language.scss.stepUnlessDone (listReading symbol value previous) (ofLexeme lexeme) =
      Language.past (listToken (listReading symbol value previous) (ofLexeme lexeme))
        lexeme.1 := by
  rw [step_list_reading kind]
  cases value with
  | false => rfl
  | true => simp [parameters, listReading, Expectations.inList, expected?, collect?, noValue rfl]

theorem step_name (name : DollarWord) (previous : Option Kind) :
    Language.scss.stepUnlessDone (listReading symbol false previous) (ofLexeme name.lexeme) =
      listReading (symbol.pushParam { name := name.text }) false (some .identifier) := by
  rw [step_list_token kind (by simp)]
  have marked := name.is_dollar_word
  rw [DollarWord.lexeme] at marked ⊢
  simp [listToken, marked, listReading, Reading.mapSymbol, Language.past]

theorem read_ending (name : DollarWord) (ending : Ending) :
    ∃ value previous,
      Language.scss.read
          (listReading (symbol.pushParam { name := name.text }) false (some .identifier))
          ending.lexemes =
        listReading (symbol.pushParam { name := name.text, value := ending.value? }) value
          previous := by
  have pushed : (symbol.pushParam { name := name.text }).kind = .function := kind
  cases ending with
  | bare => exact ⟨false, some .identifier, rfl⟩
  | variadic =>
      refine ⟨false, some .ellipsis, ?_⟩
      rw [Ending.lexemes, Language.read_cons, step_list_token pushed (by simp)]
      rfl
  | default value =>
      have colon : Language.scss.stepUnlessDone
          (listReading (symbol.pushParam { name := name.text }) false (some .identifier))
          (ofLexeme (.colon, ":")) =
            listReading (symbol.pushParam { name := name.text }) true (some .colon) := by
        rw [step_list_token pushed (by simp)]
        rfl
      have collects : Language.CollectsValue (listReading symbol true (some .colon)).expects :=
        ⟨rfl, rfl, rfl, rfl⟩
      refine ⟨true, lastKind (some .colon) value.lexemes, ?_⟩
      rw [Ending.lexemes, Language.read_cons, colon]
      exact Language.read_default .scss kind collects rfl value

end

def AwaitsEntry (symbol : Symbol) (reading : Reading) : Prop :=
  symbol.kind = .function ∧ ∃ previous, reading = listReading symbol false previous

def EndsEntry (symbol : Symbol) (reading : Reading) : Prop :=
  symbol.kind = .function ∧ ∃ value previous, reading = listReading symbol value previous

section

variable {symbol : Symbol} {reading : Reading}

theorem AwaitsEntry.ends (awaits : AwaitsEntry symbol reading) : EndsEntry symbol reading := by
  obtain ⟨kind, previous, rfl⟩ := awaits
  exact ⟨kind, false, previous, rfl⟩

theorem AwaitsEntry.parameter (awaits : AwaitsEntry symbol reading) (parameter : Parameter) :
    EndsEntry (symbol.withParams [parameter.param])
      (Language.scss.read reading parameter.lexemes) := by
  obtain ⟨kind, previous, rfl⟩ := awaits
  refine ⟨kind, ?_⟩
  rw [Parameter.lexemes, Language.read_cons, step_name kind]
  exact read_ending kind parameter.name parameter.ending

theorem EndsEntry.comma (ends : EndsEntry symbol reading) :
    AwaitsEntry symbol (Language.scss.stepUnlessDone reading (ofLexeme (.comma, ","))) := by
  obtain ⟨kind, value, previous, rfl⟩ := ends
  refine ⟨kind, some .comma, ?_⟩
  rw [step_list_token kind (fun _ => rfl)]
  rfl

/-- The whole list declares one parameter for each entry, in order. -/
theorem AwaitsEntry.list (awaits : AwaitsEntry symbol reading) (entries : List Parameter) :
    EndsEntry (symbol.withParams (entries.map (·.param)))
      (Language.scss.read reading (separated (entries.map (·.lexemes)))) := by
  rw [List.map_eq_flatMap]
  exact Language.read_separated Parameter.lexemes (fun entry => [entry.param]) AwaitsEntry
    EndsEntry (fun entry awaits => awaits.parameter entry) EndsEntry.comma AwaitsEntry.ends
    entries awaits

theorem EndsEntry.close (ends : EndsEntry symbol reading) :
    Language.scss.stepUnlessDone reading (ofLexeme (.closeParen, ")")) =
      ⟨symbol, { listClosed := true, previous := some .closeParen }⟩ := by
  obtain ⟨kind, value, previous, rfl⟩ := ends
  rw [step_list_token kind (fun _ => rfl)]
  rfl

end

def introduced (declaration : Declaration) : Symbol where
  name := declaration.name.text
  kind := .function
  returns := { present := declaration.keyword.text == "function" }

def namelessReading (keyword : grammar.Keyword .functionWord) : Reading where
  symbol := { kind := .function, returns := { present := keyword.text == "function" } }
  expects := { name := true, previous := some .identifier }

theorem step_keyword (keyword : grammar.Keyword .functionWord) :
    Language.scss.stepUnlessDone {} (ofLexeme keyword.lexeme) = namelessReading keyword := by
  have notClass : Language.scss.grammar.admits (ofLexeme (word keyword.text)) .classWord = false :=
    Language.not_admits_other .scss keyword.has (by decide) (by decide) (by decide)
  simp [Language.stepUnlessDone, Language.step, Language.classRule, Keyword.lexeme, notClass,
    Language.functionRule, function, keyword.admits, Symbol.toFunction, Language.parameterRule,
    parameters, Expectations.inList, Language.variableRule, variableRule, namelessReading]

theorem step_function_name (declaration : Declaration) :
    Language.scss.stepUnlessDone (namelessReading declaration.keyword)
        (ofLexeme declaration.name.lexeme) =
      ⟨introduced declaration, { previous := some .identifier }⟩ := by
  have rule : Language.scss.functionRule (namelessReading declaration.keyword)
      (ofLexeme declaration.name.lexeme) =
        ⟨introduced declaration, { previous := some .identifier }⟩ := by
    simp [Language.functionRule, function, namelessReading, Name.lexeme, declaration.name.accepted,
      Reading.named, introduced]
  have stepped := Language.step_past_list .scss (namelessReading declaration.keyword)
    (ofLexeme declaration.name.lexeme) rfl (by rw [rule]; rfl) (by rw [rule]; rfl)
  rw [rule] at stepped
  exact stepped

theorem read_list_lexemes (declaration : Declaration) :
    ∃ expects : Expectations, expects.inList = false ∧ expects.done = false ∧
      Language.scss.read ⟨introduced declaration, { previous := some .identifier }⟩
          declaration.listLexemes = ⟨declaration.symbol, expects⟩ := by
  unfold Declaration.listLexemes Declaration.symbol
  cases declaration.parameters with
  | none => exact ⟨{ previous := some .identifier }, rfl, rfl, rfl⟩
  | some parameters =>
      have opened : Language.scss.stepUnlessDone
          ⟨introduced declaration, { previous := some .identifier }⟩ (ofLexeme (.openParen, "(")) =
            listReading (introduced declaration) false (some .openParen) := rfl
      have awaits : AwaitsEntry (introduced declaration)
          (listReading (introduced declaration) false (some .openParen)) := ⟨rfl, _, rfl⟩
      refine ⟨{ listClosed := true, previous := some .closeParen }, rfl, rfl, ?_⟩
      dsimp only
      rw [List.cons_append, Language.read_cons, opened, Language.read_append]
      exact (awaits.list parameters).close

/-- Past the name and the list, if there is one, the reading is outside of every list. -/
theorem read_declaration (declaration : Declaration) :
    ∃ expects : Expectations, expects.inList = false ∧ expects.done = false ∧
      Language.scss.read {} declaration.lexemes = ⟨declaration.symbol, expects⟩ := by
  rw [Declaration.lexemes, Language.read_cons, Language.read_cons, step_keyword,
    step_function_name]
  exact read_list_lexemes declaration

/-- A brace or a semicolon outside of the list ends the declaration. -/
theorem read_body {symbol : Symbol} {expects : Expectations} (kind : symbol.kind = .function)
    (outside : expects.inList = false) (undone : expects.done = false) (rest : List Lexeme)
    (ends : ∀ lexeme ∈ rest.head?, lexeme.1 = .openBrace ∨ lexeme.1 = .semicolon) :
    (Language.scss.read ⟨symbol, expects⟩ rest).symbol = symbol := by
  cases rest with
  | nil => rfl
  | cons lexeme rest =>
      have sign : lexeme.1 = .openBrace ∨ lexeme.1 = .semicolon := ends lexeme rfl
      have rule : Language.scss.functionRule ⟨symbol, expects⟩ (ofLexeme lexeme) =
          Reading.finished ⟨symbol, expects⟩ := by
        rcases sign with sign | sign <;>
          simp [Language.functionRule, function, kind, sign, outside]
      rw [Language.read_cons, Language.stepUnlessDone, if_neg (by simp [undone]),
        Language.step_past_list .scss _ _ kind (by rw [rule]; exact kind)
          (by rw [rule]; exact outside), rule, Language.read_of_done _ _ _ rfl]
      rfl

/-- A mixin or a function is read back exactly: its name, one parameter for each entry with its
default value, and that only a function returns something. So is the line that holds it, its at
signs removed. -/
theorem recognize_at_rule_function (declaration : Declaration) (tokens rest : List Token)
    (spelled : tokens.map lexeme = declaration.lexemes)
    (ends : ∀ token ∈ rest.head?, token.kind = .openBrace ∨ token.kind = .semicolon) :
    Language.scss.recognize (tokens ++ rest) = declaration.symbol ∧
      ∀ line : String,
        scanSignificant (String.ofList (line.toList.filter (· != '@'))) = .ok (tokens ++ rest) →
          Language.scss.parse line = .ok declaration.symbol := by
  obtain ⟨expects, outside, undone, read⟩ := read_declaration declaration
  have recognized : Language.scss.recognize (tokens ++ rest) = declaration.symbol := by
    rw [Language.recognize_eq_read, List.map_append, Language.read_append, spelled, read]
    refine read_body rfl outside undone (rest.map lexeme) ?_
    cases rest with
    | nil => simp
    | cons token rest => simpa [lexeme] using ends
  refine ⟨recognized, ?_⟩
  intro line scanned
  have prepared : Language.scss.tokens line = .ok (tokens ++ rest) := scanned
  rw [Language.parse, prepared, Except.map, recognized]

def sampleDeclaration : Declaration where
  keyword := ⟨"mixin", by decide⟩
  name := ⟨"theme", by decide⟩
  parameters := some [
    { name := ⟨"$size", by decide⟩ },
    { name := ⟨"$colors", by decide⟩
      ending := .default {
        lexemes := [word "map-get", (.openParen, "("), (.openParen, "("), word "a", (.colon, ":"),
          word "$b", (.comma, ","), word "c", (.colon, ":"), (.number, "1"), (.closeParen, ")"),
          (.comma, ","), word "k", (.closeParen, ")")]
        balanced := ⟨by decide, by decide⟩
        commas := by decide } },
    { name := ⟨"$rest", by decide⟩, ending := .variadic }]

def sampleLine : String := "@mixin theme($size,$colors:map-get((a:$b,c:1),k),$rest...)\x7b"

def sampleTokens : List Token :=
  significant (layOut 0
    (word "mixin" :: (.whitespace, " ") :: sampleDeclaration.lexemes.tail ++
      [(.openBrace, "\x7b")]))

theorem parse_sample_mixin :
    sampleTokens.dropLast.map lexeme = sampleDeclaration.lexemes ∧
      scanSignificant (String.ofList (sampleLine.toList.filter (· != '@'))) =
        .ok (sampleTokens.dropLast ++ sampleTokens.getLast?.toList) ∧
      Language.scss.parse sampleLine = .ok {
        name := "theme"
        kind := .function
        params := [{ name := "$size" }, { name := "$colors", value := some "map-get((a:$b,c:1),k)" },
          { name := "$rest" }]
        returns := { present := false } } := by
  have spelled : sampleTokens.dropLast.map lexeme = sampleDeclaration.lexemes := by decide +kernel
  have scanned : scanSignificant (String.ofList (sampleLine.toList.filter (· != '@'))) =
      .ok (sampleTokens.dropLast ++ sampleTokens.getLast?.toList) := by decide +kernel
  have ends : ∀ token ∈ sampleTokens.getLast?.toList.head?,
      token.kind = .openBrace ∨ token.kind = .semicolon := by decide +kernel
  refine ⟨spelled, scanned, ?_⟩
  rw [(recognize_at_rule_function sampleDeclaration _ _ spelled ends).2 sampleLine scanned]
  decide +kernel

end DocComment.AtRule
