import DocComment.Proofs.Signature

/-!
Functions of a language that writes names first. A declaration is a tree: how the function is
introduced, its parameters and its return type. The main statement is that recognition reads such a
declaration back exactly, whatever stands in its types and default values.
-/

namespace DocComment.NameFirst

open Token Grammar TypeText DefaultValue

def dialect : Dialect where
  admits _ := true
  declarators := false

/-- `...modifiers name?: type = value`, of which only the name is needed. -/
structure Parameter where
  rest : Bool := false
  modifiers : List (grammar.Keyword .modifier) := []
  name : grammar.Name
  optional : Bool := false
  type : Option (Expr dialect) := none
  value : Option Value := none

namespace Parameter

def typeLexemes (parameter : Parameter) : List Lexeme :=
  match parameter.type with
  | none => []
  | some type => (.colon, ":") :: type.lexemes

def valueLexemes (parameter : Parameter) : List Lexeme :=
  match parameter.value with
  | none => []
  | some value => (.assign, "=") :: value.lexemes

def lexemes (parameter : Parameter) : List Lexeme :=
  (if parameter.rest then [(.ellipsis, "...")] else []) ++ parameter.modifiers.map (·.lexeme) ++
    parameter.name.lexeme :: (if parameter.optional then [(.question, "?")] else []) ++
    parameter.typeLexemes ++ parameter.valueLexemes

def param (parameter : Parameter) : Symbol.Param where
  name := parameter.name.text
  type := parameter.type.map (·.text)
  value := parameter.value.bind (·.text)

end Parameter

inductive Header where
  | declared (modifiers : List (grammar.Keyword .modifier)) (name : grammar.Name)
  | assigned (first : grammar.Name) (rest : List grammar.Name) (name : Option grammar.Name)
  | stored (word : grammar.Keyword .variableWord) (target : grammar.Name)
      (name : Option grammar.Name)

namespace Header

/-- The word for a function and the name after it, if there is one. -/
def functionLexemes (name : Option grammar.Name) : List Lexeme :=
  word "function" :: (name.map (·.lexeme)).toList

def lexemes : Header → List Lexeme
  | .declared modifiers name => modifiers.map (·.lexeme) ++ functionLexemes (some name)
  | .assigned first rest name =>
      first.lexeme :: rest.flatMap (fun segment => [(.dot, "."), segment.lexeme]) ++
        (.assign, "=") :: functionLexemes name
  | .stored word target name =>
      word.lexeme :: target.lexeme :: (.assign, "=") :: functionLexemes name

/-- The name of the function itself, or else the last name it is assigned to. -/
def name : Header → String
  | .declared _ name => name.text
  | .assigned first rest name => (name.getD (rest.getLast?.getD first)).text
  | .stored _ target name => (name.getD target).text

end Header

structure Declaration where
  header : Header
  parameters : List Parameter
  returns : Option (Expr dialect)

namespace Declaration

def returnLexemes (declaration : Declaration) : List Lexeme :=
  match declaration.returns with
  | none => []
  | some type => (.colon, ":") :: type.lexemes

def lexemes (declaration : Declaration) : List Lexeme :=
  declaration.header.lexemes ++ (.openParen, "(") ::
    separated (declaration.parameters.map (·.lexemes)) ++ (.closeParen, ")") ::
    declaration.returnLexemes

/-- A function that is not declared to return `void` returns something. -/
def symbol (declaration : Declaration) : Symbol where
  name := declaration.header.name
  kind := .function
  params := declaration.parameters.map (·.param)
  returns := {
    present := declaration.returns.all fun type => type.text != "void"
    type := declaration.returns.map (·.text) }
  varType := none

end Declaration

/-- A reading in an open list. What a modifier held back before the list is never used. -/
def listReading (held : Option String) (symbol : Symbol) (parameterType value : Bool)
    (depth nesting : Nat) (previous : Option Kind) : Reading where
  symbol
  expects := {
    parameter := true, parameterType, value, genericDepth := depth, nesting, heldName := held,
    previous }

theorem step_list_reading {held : Option String} {symbol : Symbol} {parameterType value : Bool}
    {depth nesting : Nat} {previous : Option Kind} (kind : symbol.kind = .function)
    (lexeme : Lexeme) :
    Language.javascript.stepUnlessDone
        (listReading held symbol parameterType value depth nesting previous) (ofLexeme lexeme) =
      Language.past (parameters (listReading held symbol parameterType value depth nesting previous)
        (ofLexeme lexeme)) lexeme.1 :=
  Language.step_in_list .javascript _ _ kind rfl rfl

theorem step_between {held : Option String} {symbol : Symbol} {previous : Option Kind}
    (kind : symbol.kind = .function) (lexeme : Lexeme) :
    Language.javascript.stepUnlessDone (listReading held symbol false false 0 0 previous)
        (ofLexeme lexeme) =
      Language.past (listToken (listReading held symbol false false 0 0 previous)
        (ofLexeme lexeme)) lexeme.1 :=
  step_list_reading kind lexeme

section

variable {held : Option String} {symbol : Symbol} (kind : symbol.kind = .function)
include kind

theorem read_modifiers (modifiers : List (grammar.Keyword .modifier)) (previous : Option Kind) :
    Language.javascript.read (listReading held symbol false false 0 0 previous)
        (modifiers.map (·.lexeme)) =
      listReading held symbol false false 0 0 (lastKind previous (modifiers.map (·.lexeme))) := by
  apply Language.read_skipping
  intro modifier previous
  have skipped : grammar.isName (ofLexeme (word modifier.text)) = false :=
    not_is_name_of_has modifier.has (by decide)
  rw [step_between kind, Keyword.lexeme]
  simp [listToken, skipped, Language.past, listReading]

theorem step_name (name : grammar.Name) (previous : Option Kind) :
    Language.javascript.stepUnlessDone (listReading held symbol false false 0 0 previous)
        (ofLexeme name.lexeme) =
      listReading held (symbol.pushParam { name := name.text }) false false 0 0
        (some .identifier) := by
  rw [step_between kind, Name.lexeme]
  simp [listToken, name.accepted, Language.past, listReading, Reading.mapSymbol]

/-- The type of the last parameter is put together where the parameter stands. -/
theorem step_type {param : Symbol.Param} {target : Option String} {depth : Nat} {lexeme : Lexeme}
    {type : String} {depth' : Nat} (previous : Option Kind)
    (extended : extend? target depth (ofLexeme lexeme) = some (type, depth')) :
    Language.javascript.stepUnlessDone
        (listReading held (symbol.pushParam { param with type := target }) true false depth 0
          previous) (ofLexeme lexeme) =
      listReading held (symbol.pushParam { param with type := some type }) true false depth' 0
        (some lexeme.1) := by
  have kindAfter : (symbol.pushParam { param with type := target }).kind = .function := kind
  rw [step_list_reading kindAfter]
  simp [parameters, listReading, Expectations.inList, expected?, parameterType?,
    extendLastParam?, Symbol.pushParam, Symbol.modifyLastParam, extended, Language.past]

/-- A token that belongs to no type and to no value is one of the list. -/
theorem step_ends_entry {parameterType value : Bool} {previous : Option Kind} {lexeme : Lexeme}
    (noType : ∀ target, extend? target 0 (ofLexeme lexeme) = none)
    (noValue : value = true → nestingAfter? 0 lexeme.1 = none) :
    Language.javascript.stepUnlessDone
        (listReading held symbol parameterType value 0 0 previous) (ofLexeme lexeme) =
      Language.past (listToken (listReading held symbol false value 0 0 previous)
        (ofLexeme lexeme)) lexeme.1 := by
  rw [step_list_reading kind]
  have untaken : (expected? (listReading held symbol parameterType value 0 0 previous)
      (ofLexeme lexeme)) = none := by
    cases value with
    | false => rfl
    | true => simp [expected?, listReading, collect?, noValue rfl]
  -- At depth zero nothing that ends an entry can extend a type.
  have untyped : (parameterType? (listReading held symbol parameterType value 0 0 previous)
      (ofLexeme lexeme)) = none := by
    cases parameterType with
    | false => rfl
    | true => simp [parameterType?, listReading, extendLastParam?, noType]
  simp only [parameters, untaken, untyped]
  rfl

theorem read_type (param : Symbol.Param) (type : Expr dialect) (untyped : param.type = none)
    {previous : Option Kind} (plain : previous = some .identifier ∨ previous = some .question) :
    ∃ previous',
      Language.javascript.read (listReading held (symbol.pushParam param) false false 0 0 previous)
          ((.colon, ":") :: type.lexemes) =
        listReading held (symbol.pushParam { param with type := some type.text }) true false 0 0
          previous' := by
  have pushed : (symbol.pushParam param).kind = .function := kind
  have colon : Language.javascript.stepUnlessDone
      (listReading held (symbol.pushParam param) false false 0 0 previous)
      (ofLexeme (.colon, ":")) =
        listReading held (symbol.pushParam { param with type := none }) true false 0 0
          (some .colon) := by
    rw [step_ends_entry pushed (fun _ => rfl) (by simp), ← untyped]
    -- After a closing bracket the colon would belong to a pattern.
    rcases plain with rfl | rfl <;> rfl
  rw [Language.read_cons, colon]
  exact read_whole_expr
    (fun type depth previous =>
      listReading held (symbol.pushParam { param with type := some type }) true false depth 0
        previous)
    type (step_type kind _ (extend_none_word _ 0))
    (fun previous taken => step_type kind previous (extend_of_take rfl taken))

theorem read_assigned (param : Symbol.Param) (value : Value) (unset : param.value = none)
    (parameterType : Bool) (previous : Option Kind) :
    Language.javascript.read
        (listReading held (symbol.pushParam param) parameterType false 0 0 previous)
        ((.assign, "=") :: value.lexemes) =
      listReading held (symbol.pushParam { param with value := value.text }) false true 0 0
        (lastKind (some .assign) value.lexemes) := by
  have pushed : (symbol.pushParam param).kind = .function := kind
  have assign : Language.javascript.stepUnlessDone
      (listReading held (symbol.pushParam param) parameterType false 0 0 previous)
      (ofLexeme (.assign, "=")) =
        listReading held (symbol.pushParam param) false true 0 0 (some .assign) := by
    rw [step_ends_entry pushed (fun _ => rfl) (by simp)]
    rfl
  have collects : Language.CollectsValue
      (listReading held symbol false true 0 0 (some .assign)).expects :=
    ⟨rfl, rfl, rfl, rfl⟩
  rw [Language.read_cons, assign]
  exact Language.read_default .javascript kind collects unset value

theorem read_rest_mark (rest : Bool) (previous : Option Kind) :
    Language.javascript.read (listReading held symbol false false 0 0 previous)
        (if rest then [(.ellipsis, "...")] else []) =
      listReading held symbol false false 0 0
        (lastKind previous (if rest then [(.ellipsis, "...")] else [])) := by
  cases rest with
  | false => rfl
  | true =>
      rw [if_pos rfl, Language.read_cons, step_between kind]
      rfl

theorem read_name (name : grammar.Name) (optional : Bool) (previous : Option Kind) :
    ∃ previous', (previous' = some .identifier ∨ previous' = some .question) ∧
      Language.javascript.read (listReading held symbol false false 0 0 previous)
          (name.lexeme :: (if optional then [(.question, "?")] else [])) =
        listReading held (symbol.pushParam { name := name.text }) false false 0 0 previous' := by
  have pushed : (symbol.pushParam { name := name.text }).kind = .function := kind
  rw [Language.read_cons, step_name kind]
  cases optional with
  | false => exact ⟨some .identifier, .inl rfl, rfl⟩
  | true =>
      refine ⟨some .question, .inr rfl, ?_⟩
      rw [if_pos rfl, Language.read_cons, step_between pushed]
      rfl

theorem read_type_lexemes (parameter : Parameter) {previous : Option Kind}
    (plain : previous = some .identifier ∨ previous = some .question) :
    ∃ parameterType previous',
      Language.javascript.read
          (listReading held (symbol.pushParam { name := parameter.name.text }) false false 0 0
            previous) parameter.typeLexemes =
        listReading held
          (symbol.pushParam { name := parameter.name.text, type := parameter.type.map (·.text) })
          parameterType false 0 0 previous' := by
  unfold Parameter.typeLexemes
  cases parameter.type with
  | none => exact ⟨false, previous, rfl⟩
  | some type =>
      obtain ⟨last, typed⟩ :=
        @read_type held symbol kind { name := parameter.name.text } type rfl previous plain
      exact ⟨true, last, typed⟩

theorem read_value_lexemes (parameter : Parameter) (parameterType : Bool)
    (previous : Option Kind) :
    ∃ parameterType' value previous',
      Language.javascript.read
          (listReading held
            (symbol.pushParam { name := parameter.name.text, type := parameter.type.map (·.text) })
            parameterType false 0 0 previous) parameter.valueLexemes =
        listReading held (symbol.pushParam parameter.param) parameterType' value 0 0
          previous' := by
  unfold Parameter.valueLexemes Parameter.param
  cases parameter.value with
  | none => exact ⟨parameterType, false, previous, rfl⟩
  | some value => exact ⟨false, true, _, read_assigned kind _ value rfl parameterType previous⟩

end

def AwaitsEntry (held : Option String) (symbol : Symbol) (reading : Reading) : Prop :=
  symbol.kind = .function ∧ ∃ previous, reading = listReading held symbol false false 0 0 previous

def EndsEntry (held : Option String) (symbol : Symbol) (reading : Reading) : Prop :=
  symbol.kind = .function ∧ ∃ parameterType value previous,
    reading = listReading held symbol parameterType value 0 0 previous

section

variable {held : Option String} {symbol : Symbol} {reading : Reading}

theorem AwaitsEntry.ends (awaits : AwaitsEntry held symbol reading) :
    EndsEntry held symbol reading := by
  obtain ⟨kind, previous, rfl⟩ := awaits
  exact ⟨kind, false, false, previous, rfl⟩

theorem AwaitsEntry.parameter (awaits : AwaitsEntry held symbol reading) (parameter : Parameter) :
    EndsEntry held (symbol.withParams [parameter.param])
      (Language.javascript.read reading parameter.lexemes) := by
  obtain ⟨kind, previous, rfl⟩ := awaits
  refine ⟨kind, ?_⟩
  simp only [Parameter.lexemes, Language.read_append]
  rw [read_rest_mark kind, read_modifiers kind]
  obtain ⟨_, plain, named⟩ := read_name kind parameter.name parameter.optional _
  rw [named]
  obtain ⟨parameterType, _, typed⟩ := read_type_lexemes kind parameter plain
  rw [typed]
  exact read_value_lexemes kind parameter parameterType _

theorem EndsEntry.comma (ends : EndsEntry held symbol reading) :
    AwaitsEntry held symbol
      (Language.javascript.stepUnlessDone reading (ofLexeme (.comma, ","))) := by
  obtain ⟨kind, parameterType, value, previous, rfl⟩ := ends
  refine ⟨kind, some .comma, ?_⟩
  rw [step_ends_entry kind (fun _ => rfl) (fun _ => rfl)]
  rfl

/-- The whole list declares one parameter for each entry, in order. -/
theorem AwaitsEntry.list (awaits : AwaitsEntry held symbol reading) (entries : List Parameter) :
    EndsEntry held (symbol.withParams (entries.map (·.param)))
      (Language.javascript.read reading (separated (entries.map (·.lexemes)))) := by
  rw [List.map_eq_flatMap]
  exact Language.read_separated Parameter.lexemes (fun entry => [entry.param]) (AwaitsEntry held)
    (EndsEntry held) (fun entry awaits => awaits.parameter entry) EndsEntry.comma AwaitsEntry.ends
    entries awaits

def closedReading (held : Option String) (symbol : Symbol) (returnType : Bool)
    (previous : Option Kind) : Reading where
  symbol
  expects := { listClosed := true, returnType, heldName := held, previous }

theorem EndsEntry.close (ends : EndsEntry held symbol reading) :
    Language.javascript.stepUnlessDone reading (ofLexeme (.closeParen, ")")) =
      closedReading held symbol false (some .closeParen) := by
  obtain ⟨kind, parameterType, value, previous, rfl⟩ := ends
  rw [step_ends_entry kind (fun _ => rfl) (fun _ => rfl)]
  rfl

theorem read_return (kind : symbol.kind = .function) (untyped : symbol.returns.type = none)
    (type : Expr dialect) :
    ∃ previous,
      Language.javascript.read (closedReading held symbol false (some .closeParen))
          ((.colon, ":") :: type.lexemes) =
        closedReading held (symbol.withReturn (some type.text)) true previous := by
  have rule : Language.javascript.functionRule (closedReading held symbol false (some .closeParen))
      (ofLexeme (.colon, ":")) = closedReading held symbol true (some .closeParen) := by
    simp [Language.functionRule, function, closedReading, kind, afterList, Expectations.follows]
  have colon : Language.javascript.stepUnlessDone
      (closedReading held symbol false (some .closeParen)) (ofLexeme (.colon, ":")) =
        closedReading held symbol true (some .colon) := by
    have settled := Language.step_past_list .javascript _ (ofLexeme (.colon, ":")) kind
      (by rw [rule]; exact kind) (by rw [rule]; rfl)
    rw [rule] at settled
    exact settled
  have returned := @Language.read_return_type .javascript (by decide) symbol
    (closedReading held symbol true (some .colon)).expects kind ⟨rfl, rfl, rfl⟩ rfl untyped none rfl
    dialect rfl type
  rw [Option.getD_none, String.empty_append] at returned
  rw [Language.read_cons, colon]
  exact returned

end

def candidateReading (name : String) (held : Option String) (previous : Option Kind) : Reading where
  symbol := { name }
  expects := { heldName := held, previous }

def introduced (name : String) : Symbol where
  name
  kind := .function
  returns := { present := true }

/-- A function with this name, which another name may still replace. -/
def functionReading (name : String) (wantsName : Bool) (held : Option String)
    (previous : Option Kind) : Reading where
  symbol := introduced name
  expects := { name := wantsName, heldName := held, previous }

theorem step_candidate {name : String} {held : Option String} {previous : Option Kind}
    {lexeme : Lexeme} (notClass : grammar.admits (ofLexeme lexeme) .classWord = false)
    (notFunction : grammar.admits (ofLexeme lexeme) .functionWord = false)
    (notParen : lexeme.1 ≠ .openParen) :
    Language.javascript.stepUnlessDone (candidateReading name held previous) (ofLexeme lexeme) =
      Language.past (undeclared (candidateReading name held previous) (ofLexeme lexeme))
        lexeme.1 := by
  have noClass : Language.javascript.classRule (candidateReading name held previous)
      (ofLexeme lexeme) = candidateReading name held previous := by
    simp only [grammar] at notClass
    simp [Language.classRule, candidateReading, notClass]
  have noFunction : Language.javascript.functionRule (candidateReading name held previous)
      (ofLexeme lexeme) = candidateReading name held previous := by
    simp [Language.functionRule, function, candidateReading, notFunction, notParen]
  have unlessDone : Language.javascript.stepUnlessDone (candidateReading name held previous)
      (ofLexeme lexeme) =
        Language.javascript.step (candidateReading name held previous) (ofLexeme lexeme) := rfl
  simp only [unlessDone, Language.step, noClass, noFunction]
  rfl

theorem step_candidate_modifier (name : String) (held : Option String) (previous : Option Kind)
    (modifier : grammar.Keyword .modifier) :
    Language.javascript.stepUnlessDone (candidateReading name held previous)
        (ofLexeme modifier.lexeme) =
      candidateReading name (some modifier.text) (some .identifier) := by
  have unnamed : grammar.isName (ofLexeme (word modifier.text)) = false :=
    not_is_name_of_has modifier.has (by decide)
  have notReserved : grammar.admits (ofLexeme (word modifier.text)) .reserved = false :=
    Language.not_admits_other .javascript modifier.has (by decide) (by decide) (by decide)
  have notVariable : grammar.admits (ofLexeme (word modifier.text)) .variableWord = false :=
    Language.not_admits_other .javascript modifier.has (by decide) (by decide) (by decide)
  rw [Keyword.lexeme, step_candidate
    (Language.not_admits_other .javascript modifier.has (by decide) (by decide) (by decide))
    (Language.not_admits_other .javascript modifier.has (by decide) (by decide) (by decide))
    (by simp)]
  simp [undeclared, candidateReading, unnamed, notReserved, notVariable,
    modifier.admits, Language.past]

theorem step_candidate_name (name : String) (held : Option String) (previous : Option Kind)
    (next : grammar.Name) :
    Language.javascript.stepUnlessDone (candidateReading name held previous)
        (ofLexeme next.lexeme) = candidateReading next.text none (some .identifier) := by
  have notReserved : grammar.admits (ofLexeme (word next.text)) .reserved = false :=
    not_admits_of_is_name next.accepted (by decide)
  have notVariable : grammar.admits (ofLexeme (word next.text)) .variableWord = false :=
    not_admits_of_is_name next.accepted (by decide)
  rw [Name.lexeme, step_candidate (not_admits_of_is_name next.accepted (by decide))
    (not_admits_of_is_name next.accepted (by decide)) (by simp)]
  simp [undeclared, candidateReading, notReserved, notVariable, next.accepted,
    Language.past, Reading.named]

theorem read_candidate_modifiers (modifiers : List (grammar.Keyword .modifier))
    (held : Option String) (previous : Option Kind) :
    ∃ held' previous',
      Language.javascript.read (candidateReading "" held previous) (modifiers.map (·.lexeme)) =
        candidateReading "" held' previous' := by
  induction modifiers generalizing held previous with
  | nil => exact ⟨held, previous, rfl⟩
  | cons modifier modifiers induction =>
      rw [List.map_cons, Language.read_cons, step_candidate_modifier]
      exact induction _ _

/-- Of a path the last segment stays the candidate. -/
theorem read_path (first : grammar.Name) (rest : List grammar.Name) (previous : Option Kind) :
    ∃ previous',
      Language.javascript.read (candidateReading first.text none previous)
          (rest.flatMap fun segment => [(.dot, "."), segment.lexeme]) =
        candidateReading (rest.getLast?.getD first).text none previous' := by
  induction rest generalizing first previous with
  | nil => exact ⟨previous, rfl⟩
  | cons segment rest induction =>
      have dot : Language.javascript.stepUnlessDone (candidateReading first.text none previous)
          (ofLexeme (.dot, ".")) = candidateReading first.text none (some .dot) := by
        rw [step_candidate rfl rfl (by decide)]
        rfl
      obtain ⟨last, read⟩ := induction segment (some .identifier)
      refine ⟨last, ?_⟩
      rw [List.flatMap_cons, List.cons_append, List.cons_append, Language.read_cons, dot,
        Language.read_cons, step_candidate_name, List.nil_append, read, List.getLast?_cons]
      cases rest.getLast? <;> rfl

/-- A variable that may still wait for its name or its value. -/
def varReading (name : String) (wantsName wantsValue : Bool) (previous : Option Kind) :
    Reading where
  symbol := { name, kind := .var }
  expects := { name := wantsName, value := wantsValue, previous }

theorem step_candidate_assign (name : grammar.Name) (previous : Option Kind) :
    Language.javascript.stepUnlessDone (candidateReading name.text none previous)
        (ofLexeme (.assign, "=")) = varReading name.text false true (some .assign) := by
  have nonempty : name.text ≠ "" := name.nonempty (by decide)
  rw [step_candidate rfl rfl (by decide)]
  simp [undeclared, candidateReading, varReading, nonempty, admits, Kind.isWord, Language.past]

theorem function_word_admits :
    grammar.admits (ofLexeme (word "function")) .functionWord = true := by decide

theorem step_candidate_function (name : String) (held : Option String) (previous : Option Kind) :
    Language.javascript.stepUnlessDone (candidateReading name held previous)
        (ofLexeme (word "function")) = functionReading name true held (some .identifier) := by
  have notClass : Language.javascript.grammar.admits (ofLexeme (word "function")) .classWord =
      false := by decide
  simp [Language.stepUnlessDone, Language.step, Language.classRule, candidateReading, notClass,
    Language.functionRule, function, function_word_admits, Symbol.toFunction,
    Language.parameterRule, parameters, Expectations.inList, Language.variableRule, variableRule,
    functionReading, introduced]

theorem step_var_function (name : String) (wantsName wantsValue : Bool)
    (previous : Option Kind) :
    Language.javascript.stepUnlessDone (varReading name wantsName wantsValue previous)
        (ofLexeme (word "function")) = functionReading name true none (some .identifier) := by
  simp [Language.stepUnlessDone, Language.step, Language.classRule, varReading,
    Language.functionRule, function, function_word_admits, Symbol.toFunction,
    Language.parameterRule, parameters, Expectations.inList, Language.variableRule, variableRule,
    functionReading, introduced]

theorem step_function_name (name : String) (held : Option String) (previous : Option Kind)
    (next : grammar.Name) :
    Language.javascript.stepUnlessDone (functionReading name true held previous)
        (ofLexeme next.lexeme) = functionReading next.text false held (some .identifier) := by
  have rule : Language.javascript.functionRule (functionReading name true held previous)
      (ofLexeme next.lexeme) = functionReading next.text false held previous := by
    simp [Language.functionRule, function, functionReading, introduced, Name.lexeme, next.accepted,
      Reading.named]
  have settled := Language.step_past_list .javascript (functionReading name true held previous)
    (ofLexeme next.lexeme) rfl (by rw [rule]; rfl) (by rw [rule]; rfl)
  rw [rule] at settled
  exact settled

theorem read_optional_name (name : String) (own : Option grammar.Name) (held : Option String)
    (previous : Option Kind) :
    ∃ wantsName previous',
      Language.javascript.read (functionReading name true held previous)
          (own.map (·.lexeme)).toList =
        functionReading (own.elim name (·.text)) wantsName held previous' := by
  cases own with
  | none => exact ⟨true, previous, rfl⟩
  | some next => exact ⟨false, some .identifier, step_function_name name held previous next⟩

theorem step_variable_word (name : String) (previous : Option Kind)
    (keyword : grammar.Keyword .variableWord) :
    Language.javascript.stepUnlessDone (candidateReading name none previous)
        (ofLexeme keyword.lexeme) = varReading name true false (some .identifier) := by
  have notReserved : grammar.admits (ofLexeme (word keyword.text)) .reserved = false :=
    Language.not_admits_other .javascript keyword.has (by decide) (by decide) (by decide)
  rw [Keyword.lexeme, step_candidate
    (Language.not_admits_other .javascript keyword.has (by decide) (by decide) (by decide))
    (Language.not_admits_other .javascript keyword.has (by decide) (by decide) (by decide))
    (by simp)]
  simp [undeclared, candidateReading, notReserved, keyword.admits, Language.past, varReading]

theorem step_stored_name (name : String) (previous : Option Kind) (target : grammar.Name) :
    Language.javascript.stepUnlessDone (varReading name true false previous)
        (ofLexeme target.lexeme) = varReading target.text false false (some .identifier) := by
  have notFunction : grammar.admits (ofLexeme (word target.text)) .functionWord = false :=
    not_admits_of_is_name target.accepted (by decide)
  simp [Language.stepUnlessDone, Language.step, Language.classRule, varReading,
    Language.functionRule, function, Name.lexeme, notFunction, Language.parameterRule, parameters,
    Expectations.inList, Language.variableRule, variableRule, target.accepted, Reading.named]

theorem read_stored (name : String) (previous : Option Kind) (target : grammar.Name)
    (rest : List Lexeme) :
    Language.javascript.read (varReading name true false previous)
        (target.lexeme :: (.assign, "=") :: rest) =
      Language.javascript.read (varReading target.text false true (some .assign)) rest := by
  rw [Language.read_cons, step_stored_name]
  rfl

/-- However a function is introduced, its own name or else the last one before it is the name. -/
theorem read_header (header : Header) :
    ∃ wantsName held previous,
      Language.javascript.read (candidateReading "" none none) header.lexemes =
        functionReading header.name wantsName held previous := by
  cases header with
  | declared modifiers name =>
      obtain ⟨held, previous, skipped⟩ := read_candidate_modifiers modifiers none none
      obtain ⟨wantsName, last, named⟩ :=
        read_optional_name "" (some name) held (some .identifier)
      refine ⟨wantsName, held, last, ?_⟩
      rw [Header.lexemes, Header.functionLexemes, Language.read_append, skipped,
        Language.read_cons, step_candidate_function, named]
      rfl
  | assigned first rest name =>
      obtain ⟨previous, path⟩ := read_path first rest (some .identifier)
      obtain ⟨wantsName, last, named⟩ :=
        read_optional_name (rest.getLast?.getD first).text name none (some .identifier)
      refine ⟨wantsName, none, last, ?_⟩
      simp only [Header.lexemes, Header.functionLexemes, Language.read_append, Language.read_cons,
        step_candidate_name, path, step_candidate_assign, step_var_function, named]
      cases name <;> rfl
  | stored keyword target name =>
      obtain ⟨wantsName, last, named⟩ :=
        read_optional_name target.text name none (some .identifier)
      refine ⟨wantsName, none, last, ?_⟩
      rw [Header.lexemes, Header.functionLexemes, Language.read_cons, step_variable_word,
        read_stored, Language.read_cons, step_var_function, named]
      cases name <;> rfl

theorem step_open (name : String) (wantsName : Bool) (held : Option String)
    (previous : Option Kind) :
    Language.javascript.stepUnlessDone (functionReading name wantsName held previous)
        (ofLexeme (.openParen, "(")) =
      listReading held (introduced name) false false 0 0 (some .openParen) := by
  cases wantsName <;> rfl

def Declaration.listedSymbol (declaration : Declaration) : Symbol :=
  (introduced declaration.header.name).withParams (declaration.parameters.map (·.param))

theorem read_to_list_end (declaration : Declaration) :
    ∃ held,
      Language.javascript.read {} (declaration.header.lexemes ++ (.openParen, "(") ::
          separated (declaration.parameters.map (·.lexemes)) ++ [(.closeParen, ")")]) =
        closedReading held declaration.listedSymbol false (some .closeParen) := by
  obtain ⟨wantsName, held, previous, named⟩ := read_header declaration.header
  have awaits : AwaitsEntry held (introduced declaration.header.name)
      (listReading held (introduced declaration.header.name) false false 0 0 (some .openParen)) :=
    ⟨rfl, _, rfl⟩
  refine ⟨held, ?_⟩
  change Language.javascript.read (candidateReading "" none none) _ = _
  simp only [Language.read_append, Language.read_cons, named, step_open]
  exact (awaits.list declaration.parameters).close

theorem read_return_lexemes (declaration : Declaration) (held : Option String) :
    ∃ returnType previous,
      Language.javascript.read
          (closedReading held declaration.listedSymbol false (some .closeParen))
          declaration.returnLexemes =
        closedReading held declaration.symbol returnType previous := by
  unfold Declaration.returnLexemes Declaration.symbol
  cases declaration.returns with
  | none => exact ⟨false, some .closeParen, rfl⟩
  | some type =>
      obtain ⟨previous, returned⟩ := @read_return held declaration.listedSymbol rfl rfl type
      exact ⟨true, previous, returned⟩

/-- A declared function is read back exactly: its name, one parameter for each entry with its type
and its default value, and its return type. -/
theorem recognize_name_first_function (declaration : Declaration) (tokens rest : List Token)
    (spelled : tokens.map lexeme = declaration.lexemes)
    (opens : ∀ token ∈ rest.head?, token.kind = .openBrace) :
    Language.javascript.recognize (tokens ++ rest) = declaration.symbol := by
  obtain ⟨held, listed⟩ := read_to_list_end declaration
  obtain ⟨returnType, previous, returned⟩ := read_return_lexemes declaration held
  have regrouped : declaration.lexemes = (declaration.header.lexemes ++ (.openParen, "(") ::
      separated (declaration.parameters.map (·.lexemes)) ++ [(.closeParen, ")")]) ++
        declaration.returnLexemes := by
    simp [Declaration.lexemes]
  have reached : Language.javascript.read {} (tokens.map lexeme) =
      closedReading held declaration.symbol returnType previous := by
    rw [spelled, regrouped, Language.read_append, listed, returned]
  exact Language.recognize_function .javascript (by decide) rfl ⟨rfl, rfl, rfl⟩ reached
    (fun token first => .inl (opens token first))

/-- `export function f(...public a?: Map<k, A.B[]> = g(x, 1), b): void` -/
def sampleDeclaration : Declaration where
  header := .declared [⟨"export", by decide⟩] ⟨"f", by decide⟩
  parameters := [
    { rest := true
      modifiers := [⟨"public", by decide⟩]
      name := ⟨"a", by decide⟩
      optional := true
      type := some (.mk (.generic (.word ⟨"Map", by decide, rfl⟩)
        (.more (.mk (.word ⟨"k", by decide, rfl⟩) {})
          (.last (.mk (.array (.member (.word ⟨"A", by decide, rfl⟩) .dot ⟨"B", by decide, rfl⟩))
            {})))) {})
      value := some {
        lexemes := [word "g", (.openParen, "("), word "x", (.comma, ","), (.number, "1"),
          (.closeParen, ")")]
        balanced := ⟨by decide, by decide⟩
        commas := by decide } },
    { name := ⟨"b", by decide⟩ }]
  returns := some (.mk (.word ⟨"void", void_reads_as_word, rfl⟩) {})

theorem recognize_sample_declaration :
    (layOut 0 sampleDeclaration.lexemes).map lexeme = sampleDeclaration.lexemes ∧
      Language.javascript.recognize
          (layOut 0 sampleDeclaration.lexemes ++ [ofLexeme (.openBrace, "\x7b")]) =
        { name := "f"
          kind := .function
          params := [{ name := "a", type := some "Map<k, A.B[]>", value := some "g(x,1)" },
            { name := "b" }]
          returns := { present := false, type := some "void" } } :=
  ⟨map_lexeme_lay_out 0 _, recognize_name_first_function sampleDeclaration _ _
    (map_lexeme_lay_out 0 _) (by simp)⟩

end DocComment.NameFirst
