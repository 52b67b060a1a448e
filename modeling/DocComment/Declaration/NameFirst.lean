import DocComment.Declaration.DefaultValue
import DocComment.Declaration.TypeText
import DocComment.Language.Basic

/-!
JavaScript and TypeScript: the name comes first and a type, if any, follows a colon. Almost any
expression can be given a function, so the latest name stays a candidate: of `a.b.c = function () {`
the segment `c` is left when the function shows up. A parenthesis after `=` may be a group, and only
an arrow after it makes it a parameter list.
-/

namespace DocComment.NameFirst

def grammar : Grammar := Language.javascript.grammar

/-- A parenthesis here starts a parameter list rather than a call or a group. -/
def opensList (reading : Reading) : Bool :=
  let symbol := reading.symbol
  let expects := reading.expects
  if expects.parameter || expects.listClosed || 0 < expects.genericDepth then false
  else
    match symbol.kind with
    | .function => true
    | .unset => symbol.name != "" || expects.heldName.isSome
    | .var => expects.value || (expects.variableType && symbol.varType.isNone)
    | .classLike => false

/-- The parenthesis was a group after all: the symbol is a variable again. -/
def abandonArrow (reading : Reading) : Reading :=
  { symbol := reading.symbol.toVariable reading.expects.heldType
    expects := { reading.expects with tentativeArrow := false, heldType := none } }

/-- Once the parameter list is closed: a return type, an arrow, or the end. -/
def afterList (reading : Reading) (token : Token) : Reading :=
  match if reading.expects.returnType then TypeText.extendReturn? reading token else none with
  | some extended => extended
  | none =>
      let settled := { reading with expects.returnType := false }
      if token.kind = .colon ∧ settled.expects.follows .closeParen then
        { settled with expects.returnType := true }
      else if token.kind = .fatArrow then
        { settled with expects.tentativeArrow := false, expects.done := true }
      else if settled.expects.tentativeArrow then (abandonArrow settled).finished
      else if token.kind = .openBrace ∨ token.kind = .semicolon then settled.finished
      else settled

def openList (reading : Reading) : Reading :=
  let symbol := reading.symbol
  let expects := reading.expects
  match symbol.kind with
  | .function => { symbol, expects := expects.openList }
  | .var =>
      { symbol := symbol.toFunction true
        expects := { expects with tentativeArrow := true, heldType := symbol.varType }.openList }
  | .unset | .classLike =>
      let name := if symbol.name = "" then expects.heldName.getD "" else symbol.name
      { symbol := { symbol with name }.toFunction (name != "constructor")
        expects := { expects with heldName := none }.openList }

def function (reading : Reading) (token : Token) : Reading :=
  let kind := reading.symbol.kind
  if kind = .function ∧ reading.expects.listClosed then afterList reading token
  else if grammar.admits token .functionWord && (kind == .unset || kind == .var) then
    { symbol := reading.symbol.toFunction true
      expects := { reading.expects with name := true, value := false, variableType := false } }
  else if kind == .function && reading.expects.name && grammar.isName token then
    { reading.named token.text with expects.name := false }
  else if token.kind == .openParen && opensList reading then openList reading
  else reading

/-- Inside a destructuring pattern every name is a parameter, but a key in front of a colon is
not. -/
def pattern (reading : Reading) (token : Token) : Reading :=
  let afterColon := reading.expects.follows .colon
  let depth := reading.expects.patternDepth
  match token.kind with
  | .openBrace | .openBracket =>
      { symbol := if afterColon then reading.symbol.dropLastParam else reading.symbol
        expects := { reading.expects with patternDepth := depth + 1 } }
  | .closeBrace | .closeBracket =>
      { reading with expects.patternDepth := depth - 1, expects.value := false }
  | .comma => { reading with expects.value := false }
  | .assign => { reading with expects.value := true }
  | .identifier =>
      if grammar.isName token then
        reading.mapSymbol fun symbol =>
          if afterColon then symbol.modifyLastParam fun param => { param with name := token.text }
          else symbol.pushParam { name := token.text }
      else reading
  | _ => reading

def listToken (reading : Reading) (token : Token) : Reading :=
  let expects := reading.expects
  match token.kind with
  | .openBrace | .openBracket => { reading with expects.patternDepth := 1 }
  | .closeParen => { reading with expects := expects.closeList }
  | .comma => { reading with expects := expects.nextParameter }
  | .colon =>
      -- The type of a pattern belongs to no single name and is read into an empty one.
      let pending := if expects.follows .closeBrace || expects.follows .closeBracket
        then some "" else expects.pendingType
      { reading with expects := { expects with pendingType := pending, parameterType := true } }
  | .assign => { reading with expects.value := true }
  | .identifier =>
      if grammar.isName token then reading.mapSymbol (·.pushParam { name := token.text })
      else reading
  | _ => reading

/-- The reading after a token of an expected parameter type; nothing if the token is not part of
one. -/
def parameterType? (reading : Reading) (token : Token) : Option Reading :=
  if !reading.expects.parameterType then none
  else if reading.expects.pendingType.isSome then TypeText.extendPending? reading token
  else TypeText.extendLastParam? reading token

def parameters (reading : Reading) (token : Token) : Reading :=
  if !reading.expects.inList then reading
  else
    match (DefaultValue.expected? reading token).or (parameterType? reading token) with
    | some taken => taken
    | none =>
        let settled := { reading with expects.parameterType := false }
        if 0 < settled.expects.patternDepth then pattern settled token else listToken settled token

/-- Nothing is declared yet: names are candidates, and a word or a sign makes a variable of the
latest. -/
def undeclared (reading : Reading) (token : Token) : Reading :=
  let depth := reading.expects.genericDepth
  if 0 < depth then
    match token.kind with
    | .lessThan => { reading with expects.genericDepth := depth + 1 }
    | .greaterThan => { reading with expects.genericDepth := depth - 1 }
    | _ => reading
  else if grammar.admits token .reserved then reading.finished
  else if grammar.admits token .variableWord then
    { reading with symbol.kind := .var, expects.name := true }
  else
    let isNamed := reading.symbol.name != ""
    let released := { reading with expects.heldName := none }
    match token.kind with
    | .identifier =>
        if grammar.isName token then released.named token.text
        else if grammar.admits token .modifier then
          { released with expects.heldName := some token.text }
        else released
    | .lessThan =>
        if isNamed then { released with expects.genericDepth := depth + 1 } else released
    | .assign =>
        if isNamed then { released with symbol.kind := .var, expects.value := true } else released
    | .colon =>
        if isNamed then { released with symbol.kind := .var, expects.variableType := true }
        else released
    | _ => released

/-- A named variable: its type, its value, or the end. -/
def declared (reading : Reading) (token : Token) : Reading :=
  match if reading.expects.variableType then TypeText.extendVariable? reading token else none with
  | some extended => extended
  | none =>
      let settled := { reading with expects.variableType := false }
      if token.kind = .colon ∧ settled.symbol.varType.isNone then
        { settled with expects.variableType := true }
      else if token.kind = .assign then { settled with expects.value := true }
      else if token.kind = .semicolon ∨ token.kind = .comma then settled.finished
      else if settled.expects.value && !grammar.admits token .modifier then settled.finished
      else settled

def variableRule (reading : Reading) (token : Token) : Reading :=
  match reading.symbol.kind with
  | .unset => undeclared reading token
  | .var =>
      if reading.expects.name then
        if grammar.isName token then { reading.named token.text with expects.name := false }
        else reading
      else declared reading token
  | .classLike | .function => reading

/-- At the end of the line: a closed list that no arrow confirmed was a group. -/
def finish (reading : Reading) : Reading :=
  if reading.expects.tentativeArrow && reading.expects.listClosed then abandonArrow reading
  else reading

end DocComment.NameFirst
