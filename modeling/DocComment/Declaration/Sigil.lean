import DocComment.Declaration.DefaultValue
import DocComment.Declaration.TypeText
import DocComment.Language.Basic

/-!
PHP: variables and parameters carry a dollar sign, so every bare word ahead of one belongs to its
type. Functions and classes have bare names, which may be qualified.
-/

namespace DocComment.Sigil

def grammar : Grammar := Language.php.grammar

def isTypeWord (token : Token) : Bool :=
  token.kind.isWord && Spelling.qualified token.text && !grammar.isKeyword token.text

def isDeclaredName (token : Token) : Bool :=
  isTypeWord token && !grammar.admits token .builtinType

def afterList (reading : Reading) (token : Token) : Reading :=
  match if reading.expects.returnType then TypeText.extendReturn? reading token else none with
  | some extended => extended
  | none =>
      let settled := { reading with expects.returnType := false }
      match token.kind with
      | .colon =>
          if settled.expects.follows .closeParen then { settled with expects.returnType := true }
          else settled
      | .openBrace | .semicolon | .fatArrow => settled.finished
      | _ => settled

def function (reading : Reading) (token : Token) : Reading :=
  let kind := reading.symbol.kind
  if kind = .function ∧ reading.expects.listClosed then afterList reading token
  else if grammar.admits token .functionWord && (kind == .unset || kind == .var) then
    { symbol := reading.symbol.toFunction true
      expects := { reading.expects with name := true, value := false } }
  else if kind ≠ .function then reading
  else if reading.expects.name && isDeclaredName token then
    { reading with
      symbol.name := token.text
      symbol.returns.present := token.text != "__construct"
      expects.name := false }
  else if token.kind == .openParen && !reading.expects.parameter then
    reading.mapExpects (·.openList)
  else reading

/-- The type written ahead of a name, without the marks of a reference. -/
def typeOfPending (pending : Option String) : Option String :=
  (pending.map (Text.dropLastRun '&')).filter (· != "")

def typeToken (reading : Reading) (token : Token) : Reading :=
  if grammar.admits token .modifier then reading
  else
    match reading.expects.pendingType with
    | some type =>
        if Text.endsIn type "&" && token.kind.isWord then
          { reading with expects.pendingType := some (type ++ token.text) }
        else (TypeText.extendPending? reading token).getD reading
    | none => (TypeText.extendPending? reading token).getD reading

def listToken (reading : Reading) (token : Token) : Reading :=
  let expects := reading.expects
  match token.kind with
  | .closeParen => { reading with expects := expects.closeList }
  | .comma => { reading with expects := expects.nextParameter }
  | .assign => { reading with expects.value := true }
  | .ellipsis => reading
  | .ampersand => { reading with expects.pendingType := expects.pendingType.map (· ++ "&") }
  | .identifier =>
      if grammar.isName token then
        { symbol := reading.symbol.pushParam
            { name := token.text, type := typeOfPending expects.pendingType }
          expects := { expects with pendingType := none } }
      else typeToken reading token
  | _ => typeToken reading token

def parameters (reading : Reading) (token : Token) : Reading :=
  if reading.expects.inList then
    (DefaultValue.expected? reading token).getD (listToken reading token)
  else reading

def undeclared (reading : Reading) (token : Token) : Reading :=
  if grammar.admits token .modifier then reading
  else if grammar.admits token .reserved then reading.finished
  else if grammar.admits token .variableWord then
    { reading with symbol.kind := .var, expects.name := token.text == "const" }
  else if grammar.isName token then
    { reading with symbol.kind := .var, symbol.name := token.text }
  else if token.kind == .question || isTypeWord token then
    let untyped := { reading with symbol.kind := .var }
    (TypeText.extendVariable? untyped token).getD untyped
  else reading

/-- A constant: the last word before its value names it. -/
def constant (reading : Reading) (token : Token) : Reading :=
  if token.kind = .assign ∨ token.kind = .semicolon then reading.finished
  else if isDeclaredName token then reading.named token.text
  else reading

/-- A variable that has no name yet; a call declares nothing. -/
def unnamed (reading : Reading) (token : Token) : Reading :=
  if grammar.isName token then reading.named token.text
  else if token.kind = .openParen then
    { reading with symbol.kind := .unset, symbol.varType := none, expects.done := true }
  else (TypeText.extendVariable? reading token).getD reading

/-- A named variable: a member after an arrow renames it. -/
def declared (reading : Reading) (token : Token) : Reading :=
  let hasValue := reading.expects.value
  if !hasValue && reading.expects.follows .thinArrow && token.kind.isWord then
    reading.named token.text
  else if token.kind = .assign ∧ ¬ hasValue then { reading with expects.value := true }
  else if token.kind = .semicolon ∨ token.kind = .comma then reading.finished
  else if hasValue && !grammar.admits token .modifier then reading.finished
  else reading

def variableRule (reading : Reading) (token : Token) : Reading :=
  match reading.symbol.kind with
  | .unset => undeclared reading token
  | .var =>
      if reading.expects.name then constant reading token
      else if reading.symbol.name = "" then unnamed reading token
      else declared reading token
  | .classLike | .function => reading

end DocComment.Sigil
