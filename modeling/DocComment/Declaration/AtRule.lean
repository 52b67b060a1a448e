import DocComment.Declaration.DefaultValue
import DocComment.Language.Basic

/-!
SCSS: at-rules introduce mixins and functions. Parameters are words with a dollar sign and have no
types; the type of a variable is that of the literal it is given.
-/

namespace DocComment.AtRule

def grammar : Grammar := Language.scss.grammar

/-- The line without its at signs, so that an at-rule starts with a plain word. -/
def withoutAtSigns (line : String) : String :=
  String.ofList (line.toList.filter (· != '@'))

def isDollarWord (token : Token) : Bool :=
  token.kind == .identifier && Text.firstChar? token.text == some '$'

def literalType? (token : Token) : Option String :=
  match token.kind with
  | .number => some "Number"
  | .hash => some "Color"
  | .string => some "String"
  | .openParen => some "List"
  | .identifier =>
      if token.text = "true" ∨ token.text = "false" then some "Bool"
      else if token.text = "null" then some "Null"
      else none
  | _ => none

def function (reading : Reading) (token : Token) : Reading :=
  let expects := reading.expects
  if reading.symbol.kind == .unset && grammar.admits token .functionWord then
    { symbol := reading.symbol.toFunction (token.text == "function")
      expects := { expects with name := true } }
  else if reading.symbol.kind ≠ .function then reading
  else
    match token.kind with
    | .identifier =>
        if expects.name && grammar.isName token then
          { reading.named token.text with expects.name := false }
        else reading
    | .openParen =>
        if !expects.parameter && !expects.listClosed then { reading with expects := expects.openList }
        else reading
    | .openBrace | .semicolon => if expects.inList then reading else reading.finished
    | _ => reading

def listToken (reading : Reading) (token : Token) : Reading :=
  match token.kind with
  | .closeParen => reading.mapExpects (·.closeList)
  | .comma => reading.mapExpects (·.nextParameter)
  | .colon => { reading with expects.value := true }
  | _ =>
      if isDollarWord token then reading.mapSymbol (·.pushParam { name := token.text })
      else reading

def parameters (reading : Reading) (token : Token) : Reading :=
  if reading.expects.inList then
    (DefaultValue.expected? reading token).getD (listToken reading token)
  else reading

def variableRule (reading : Reading) (token : Token) : Reading :=
  match reading.symbol.kind with
  | .unset =>
      if grammar.admits token .reserved then reading.finished
      else if isDollarWord token then
        { reading with symbol.kind := .var, symbol.name := token.text }
      else reading.finished
  | .var =>
      if reading.expects.value then
        { reading with symbol.varType := literalType? token, expects.done := true }
      else if token.kind = .colon then { reading with expects.value := true }
      else reading.finished
  | .classLike | .function => reading

end DocComment.AtRule
