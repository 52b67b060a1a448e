import DocComment.Declaration.DefaultValue
import DocComment.Declaration.TypeText
import DocComment.Grammar

/-!
Languages that write the type ahead of the name: the C family and Java. There is no word for a
function. The first type word makes the line a variable, and an opening parenthesis after its name
makes it a function; a parenthesis after a lone word makes it a constructor.
-/

namespace DocComment.TypeFirst

structure Rules where
  /-- Stars and ampersands belong to the type. -/
  declarators : Bool := false
  /-- Brackets after a name make its type an array. -/
  postfixArrays : Bool := false
  deriving DecidableEq, Repr, Inhabited

def afterList (reading : Reading) (token : Token) : Reading :=
  match if reading.expects.returnType then TypeText.extendReturn? reading token else none with
  | some extended => extended
  | none =>
      let settled := { reading with expects.returnType := false }
      match token.kind with
      | .thinArrow =>
          { settled with
            symbol.returns := { present := true, type := none }, expects.returnType := true }
      | .openBrace | .semicolon | .assign => settled.finished
      | _ => settled

def opensList (reading : Reading) (token : Token) : Bool :=
  token.kind == .openParen && reading.symbol.kind == .var && !reading.expects.parameter &&
    !reading.expects.listClosed && reading.expects.genericDepth == 0

/-- Turns the variable into a function, or a lone type into a constructor. -/
def openList (reading : Reading) : Reading :=
  let symbol := reading.symbol
  let opened := reading.expects.openList
  if symbol.name = "" then
    match symbol.varType with
    | none => reading
    | some type =>
        { symbol := { symbol with name := Text.afterLastColons type }.toFunction false
          expects := opened }
  else
    let present := symbol.varType.any (· != "void")
    let function := symbol.toFunction present
    { symbol := { function with returns.type := symbol.varType.filter fun _ => present }
      expects := opened }

def function (reading : Reading) (token : Token) : Reading :=
  if reading.symbol.kind == .function && reading.expects.listClosed then afterList reading token
  else if opensList reading token then openList reading
  else reading

/-- A type that never got a name is a parameter all the same, but `void` is none. -/
def settlePending (reading : Reading) : Reading :=
  match reading.expects.pendingType with
  | none => reading
  | some type =>
      { symbol := if type = "void" then reading.symbol
          else reading.symbol.pushParam { type := some type }
        expects := { reading.expects with pendingType := none } }

/-- A token that is no punctuation of the list: part of a type, or a name. -/
def parameterWord (grammar : Grammar) (reading : Reading) (token : Token) : Reading :=
  if grammar.admits token .modifier || grammar.admits token .classWord then reading
  else
    match reading.expects.pendingType with
    | some type =>
        match TypeText.extendPending? reading token with
        | some extended => extended
        | none =>
            if grammar.admits token .builtinType then
              { reading with expects.pendingType := some token.text }
            else if token.kind.isWord then
              { symbol := reading.symbol.pushParam { name := token.text, type := some type }
                expects := { reading.expects with pendingType := none } }
            else reading
    | none =>
        if token.kind.isWord then { reading with expects.pendingType := some token.text }
        else reading

/-- Brackets after a name: the last parameter is an array. -/
def arrayParameter (reading : Reading) : Reading :=
  reading.mapSymbol (·.modifyLastParam fun param =>
    { param with type := some (TypeText.toArray (param.type.getD "")) })

def listToken (grammar : Grammar) (rules : Rules) (reading : Reading) (token : Token) : Reading :=
  match token.kind with
  | .openParen => reading
  | .closeParen => (settlePending reading).mapExpects (·.closeList)
  | .comma =>
      if reading.expects.genericDepth = 0 then (settlePending reading).mapExpects (·.nextParameter)
      else parameterWord grammar reading token
  | .assign => { settlePending reading with expects.value := true }
  | .star | .ampersand =>
      if rules.declarators then
        reading.mapExpects fun expects =>
          { expects with pendingType := expects.pendingType.map (· ++ token.text) }
      else parameterWord grammar reading token
  | .openBracket =>
      if rules.postfixArrays && reading.expects.pendingType.isNone then arrayParameter reading
      else parameterWord grammar reading token
  | _ => parameterWord grammar reading token

def parameters (grammar : Grammar) (rules : Rules) (reading : Reading) (token : Token) : Reading :=
  if reading.expects.inList then
    (DefaultValue.expected? reading token).getD (listToken grammar rules reading token)
  else reading

/-- Nothing is declared yet: type parameters and modifiers are skipped, a type starts a variable. -/
def undeclared (grammar : Grammar) (reading : Reading) (token : Token) : Reading :=
  let depth := reading.expects.genericDepth
  if 0 < depth then
    match token.kind with
    | .lessThan => { reading with expects.genericDepth := depth + 1 }
    | .greaterThan => { reading with expects.genericDepth := depth - 1 }
    | _ => reading
  else if grammar.admits token .reserved then reading.finished
  else if token.kind = .lessThan then { reading with expects.genericDepth := depth + 1 }
  else if grammar.admits token .modifier then reading
  else if grammar.admits token .builtinType ||
      (grammar.admits token .identifier && !grammar.isKeyword token.text) then
    { reading with symbol.kind := .var, symbol.varType := some token.text }
  else reading

def unnamed (grammar : Grammar) (rules : Rules) (reading : Reading) (token : Token) : Reading :=
  if grammar.admits token .modifier then reading
  else if rules.declarators && (token.kind == .star || token.kind == .ampersand) then
    reading.mapSymbol fun symbol =>
      { symbol with varType := symbol.varType.map (· ++ token.text) }
  else
    match TypeText.extendVariable? reading token with
    | some extended => extended
    | none =>
        if grammar.admits token .builtinType then
          { reading with symbol.varType := some token.text }
        else if grammar.isName token then reading.named token.text
        else reading

/-- The variable has a name: a qualified member renames it, brackets make it an array. -/
def declared (grammar : Grammar) (rules : Rules) (reading : Reading) (token : Token) : Reading :=
  match token.kind with
  | .doubleColon => { reading with expects.name := true }
  | .identifier =>
      if reading.expects.name then
        let renamed := if grammar.isName token then reading.named token.text else reading
        { renamed with expects.name := false }
      else reading
  | .openBracket =>
      if rules.postfixArrays then
        reading.mapSymbol fun symbol =>
          { symbol with varType := symbol.varType.map TypeText.toArray }
      else reading
  | .assign | .semicolon | .comma => reading.finished
  | _ => reading

def variableRule (grammar : Grammar) (rules : Rules) (reading : Reading) (token : Token) :
    Reading :=
  match reading.symbol.kind with
  | .unset => undeclared grammar reading token
  | .var =>
      if reading.symbol.name = "" then unnamed grammar rules reading token
      else declared grammar rules reading token
  | .classLike | .function => reading

end DocComment.TypeFirst
