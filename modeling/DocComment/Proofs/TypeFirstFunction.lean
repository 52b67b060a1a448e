import DocComment.Proofs.Signature

/-!
Functions of the languages that write types first. Here the line is a variable until its list opens,
and a parameter is a type until its name shows up. The main statement is that recognition reads a
declaration back exactly, with a type that never got a name as a parameter of its own unless it is
`void`.
-/

namespace DocComment.TypeFirst

open Token Grammar TypeText DefaultValue

def dialect (language : Language) : Dialect where
  admits text := !language.grammar.has text .modifier && !language.grammar.has text .classWord
  declarators := language.typeFirstRules.declarators

theorem word_not_skipped {language : Language} (first : (dialect language).Word) :
    language.grammar.has first.text .modifier = false ∧
      language.grammar.has first.text .classWord = false := by
  simpa [dialect] using first.admitted

structure SkippedWord (language : Language) where
  text : String
  skipped : language.grammar.has text .modifier = true ∨ language.grammar.has text .classWord = true

/-- `words type name = value`; name and value may be missing, but a value needs a parameter. -/
structure Parameter (language : Language) where
  skipped : List (SkippedWord language) := []
  type : Expr (dialect language)
  name : Option language.grammar.Name := none
  value : Option Value := none
  owned : value.isSome = true → name.isSome = true ∨ type.text ≠ "void" := by simp

namespace Parameter

variable {language : Language}

def nameLexemes (parameter : Parameter language) : List Lexeme :=
  (parameter.name.map (·.lexeme)).toList

def valueLexemes (parameter : Parameter language) : List Lexeme :=
  match parameter.value with
  | none => []
  | some value => (.assign, "=") :: value.lexemes

def lexemes (parameter : Parameter language) : List Lexeme :=
  parameter.skipped.map (fun skipped => word skipped.text) ++ parameter.type.lexemes ++
    parameter.nameLexemes ++ parameter.valueLexemes

/-- A lone `void` stands for no parameter. -/
def isVoid (parameter : Parameter language) : Bool :=
  parameter.name.isNone && parameter.type.text == "void"

/-- What is declared; the name is empty if it was left out. -/
def param (parameter : Parameter language) : Symbol.Param where
  name := parameter.name.elim "" (·.text)
  type := some parameter.type.text
  value := parameter.value.bind (·.text)

def bareParam (parameter : Parameter language) : Symbol.Param where
  name := parameter.param.name
  type := parameter.param.type

theorem not_void_of_value {parameter : Parameter language} {value : Value}
    (valued : parameter.value = some value) : parameter.isVoid = false := by
  have owned := parameter.owned (by simp [valued])
  simpa [isVoid, Option.isSome_iff_ne_none, Decidable.imp_iff_not_or] using owned

def declares (parameter : Parameter language) : List Symbol.Param :=
  if parameter.isVoid then [] else [parameter.param]

end Parameter

def opensAngle (kind : Kind) : Bool := kind == .lessThan

def closesAngle (kind : Kind) : Bool := kind == .greaterThan

/-- Type parameters ahead of a return type: angle brackets around lexemes in which they balance. -/
structure TypeParameters (language : Language) where
  inside : List Lexeme
  balanced : Balanced opensAngle closesAngle inside
  noClass : ∀ lexeme ∈ inside, language.grammar.admits (ofLexeme lexeme) .classWord = false

def TypeParameters.lexemes {language : Language} (parameters : TypeParameters language) :
    List Lexeme :=
  (.lessThan, "<") :: parameters.inside ++ [(.greaterThan, ">")]

structure Declaration (language : Language) where
  modifiers : List (language.grammar.Keyword .modifier)
  typeParameters : Option (TypeParameters language) := none
  returns : Expr (dialect language)
  /-- The return type starts with a word that can start a declaration. -/
  starts : language.grammar.has returns.firstWord.text .builtinType = true ∨
    language.grammar.isIdentifier returns.firstWord.text = true ∧
      language.grammar.isKeyword returns.firstWord.text = false
  name : language.grammar.Name
  parameters : List (Parameter language)

namespace Declaration

variable {language : Language}

def lexemes (declaration : Declaration language) : List Lexeme :=
  declaration.modifiers.map (·.lexeme) ++
    (declaration.typeParameters.map (·.lexemes)).getD [] ++ declaration.returns.lexemes ++
    declaration.name.lexeme :: (.openParen, "(") ::
    separated (declaration.parameters.map (·.lexemes)) ++ [(.closeParen, ")")]

/-- The symbol of the declaration. The type `void` is not recorded. -/
def symbol (declaration : Declaration language) : Symbol where
  name := declaration.name.text
  kind := .function
  params := declaration.parameters.flatMap (·.declares)
  returns :=
    if declaration.returns.text = "void" then {}
    else { present := true, type := some declaration.returns.text }
  varType := none

end Declaration

def listReading (symbol : Symbol) (pending : Option String) (depth : Nat) (value : Bool)
    (nesting : Nat) (previous : Option Kind) : Reading where
  symbol
  expects := {
    parameter := true, pendingType := pending, genericDepth := depth, value, nesting, previous }

section

variable {language : Language} (family : language = .c ∨ language = .java)
include family

theorem parameter_rule_eq :
    language.parameterRule = parameters language.grammar language.typeFirstRules := by
  rcases family with rfl | rfl <;> rfl

variable {symbol : Symbol} (kind : symbol.kind = .function)
include kind

theorem step_list_reading {pending : Option String} {depth : Nat} {value : Bool} {nesting : Nat}
    {previous : Option Kind} (lexeme : Lexeme) :
    language.stepUnlessDone (listReading symbol pending depth value nesting previous)
        (ofLexeme lexeme) =
      Language.past (parameters language.grammar language.typeFirstRules
        (listReading symbol pending depth value nesting previous) (ofLexeme lexeme)) lexeme.1 := by
  have stepped := language.step_in_list (listReading symbol pending depth value nesting previous)
    (ofLexeme lexeme) kind rfl rfl
  rw [parameter_rule_eq family] at stepped
  exact stepped

/-- Where no value is expected every token is one of the list. -/
theorem step_no_value {pending : Option String} {depth : Nat} {previous : Option Kind}
    (lexeme : Lexeme) :
    language.stepUnlessDone (listReading symbol pending depth false 0 previous) (ofLexeme lexeme) =
      Language.past (listToken language.grammar language.typeFirstRules
        (listReading symbol pending depth false 0 previous) (ofLexeme lexeme)) lexeme.1 :=
  step_list_reading family kind lexeme

theorem step_skipped (skipped : SkippedWord language) (pending : Option String) (depth : Nat)
    (previous : Option Kind) :
    language.stepUnlessDone (listReading symbol pending depth false 0 previous)
        (ofLexeme (word skipped.text)) =
      listReading symbol pending depth false 0 (some .identifier) := by
  rw [step_no_value family kind]
  rcases skipped.skipped with modifier | classWord
  · simp [listToken, parameterWord, admits, Kind.isWord, modifier, Language.past, listReading]
  · simp [listToken, parameterWord, admits, Kind.isWord, classWord, Language.past, listReading]

theorem read_skipped (skipped : List (SkippedWord language)) (previous : Option Kind) :
    language.read (listReading symbol none 0 false 0 previous)
        (skipped.map fun skipped => word skipped.text) =
      listReading symbol none 0 false 0
        (lastKind previous (skipped.map fun skipped => word skipped.text)) := by
  apply Language.read_skipping
  intro first previous
  exact step_skipped family kind first none 0 previous

theorem step_starts_type (first : (dialect language).Word) (previous : Option Kind) :
    language.stepUnlessDone (listReading symbol none 0 false 0 previous)
        (ofLexeme (word first.text)) =
      listReading symbol (some first.text) 0 false 0 (some .identifier) := by
  rw [step_no_value family kind]
  simp [listToken, parameterWord, admits, Kind.isWord, word_not_skipped, Language.past, listReading]

omit family kind in
/-- What is taken is a declarator, or extends the type and is no word to skip. -/
theorem take_cases {type type' : String} {depth depth' : Nat} {lexeme : Lexeme}
    (taken : (dialect language).take? type depth lexeme = some (type', depth')) :
    (language.typeFirstRules.declarators = true ∧ (lexeme.1 = .star ∨ lexeme.1 = .ampersand) ∧
      type' = type ++ lexeme.2 ∧ depth' = depth) ∨
    (language.grammar.admits (ofLexeme lexeme) .modifier = false ∧
      language.grammar.admits (ofLexeme lexeme) .classWord = false ∧
      extend? (some type) depth (ofLexeme lexeme) = some (type', depth')) := by
  obtain ⟨kind, text⟩ := lexeme
  unfold Dialect.take? at taken
  split at taken
  · simp at taken
  · next admitted =>
      split at taken
      · next declarator =>
          simp only [Option.some.injEq, Prod.mk.injEq] at taken
          exact .inl ⟨declarator.1, declarator.2, taken.1.symm, taken.2.symm⟩
      · refine .inr ?_
        cases kind <;> simp_all [dialect, admits, Kind.isWord]

omit family kind in
/-- What extends the type that waits is no punctuation of the list. -/
theorem list_token_extends {type : String} {depth : Nat} {lexeme : Lexeme}
    {extension : String × Nat} (previous : Option Kind)
    (extended : extend? (some type) depth (ofLexeme lexeme) = some extension) :
    listToken language.grammar language.typeFirstRules
        (listReading symbol (some type) depth false 0 previous) (ofLexeme lexeme) =
      parameterWord language.grammar
        (listReading symbol (some type) depth false 0 previous) (ofLexeme lexeme) := by
  obtain ⟨lexemeKind, text⟩ := lexeme
  cases lexemeKind with
  | comma =>
      -- A comma belongs to the type only inside of angle brackets.
      have inside : 0 < depth := by
        simp only [extend?, addition?, of_lexeme_kind] at extended
        split at extended
        · assumption
        · simp at extended
      have nonzero : depth ≠ 0 := Nat.ne_of_gt inside
      simp [listToken, listReading, nonzero]
  | openBracket => simp [listToken, listReading]
  | openParen | closeParen | assign | star | ampersand => simp [extend?, addition?] at extended
  | _ => rfl

theorem step_pending_type {type type' : String} {depth depth' : Nat} {lexeme : Lexeme}
    (previous : Option Kind)
    (taken : (dialect language).take? type depth lexeme = some (type', depth')) :
    language.stepUnlessDone (listReading symbol (some type) depth false 0 previous)
        (ofLexeme lexeme) = listReading symbol (some type') depth' false 0 (some lexeme.1) := by
  rw [step_no_value family kind]
  rcases take_cases taken with ⟨declarators, sign, rfl, rfl⟩ | ⟨noModifier, noClass, extended⟩
  · rcases sign with sign | sign <;>
      simp [listToken, sign, declarators, listReading, Reading.mapExpects, Language.past]
  · rw [list_token_extends previous extended]
    simp [parameterWord, noModifier, noClass, listReading, extendPending?, extended, Language.past]

/-- A word behind a type that is closed names a parameter, and a built-in type takes its place. -/
theorem step_word_of_closed {type text : String} (closed : isOpen type = false)
    (admitted : (dialect language).admits text = true) (depth : Nat) (previous : Option Kind) :
    language.stepUnlessDone (listReading symbol (some type) depth false 0 previous)
        (ofLexeme (word text)) =
      if language.grammar.has text .builtinType then
        listReading symbol (some text) depth false 0 (some .identifier)
      else
        listReading (symbol.pushParam { name := text, type := some type }) none depth false 0
          (some .identifier) := by
  have kept : language.grammar.has text .modifier = false ∧
      language.grammar.has text .classWord = false := by
    simpa [dialect] using admitted
  rw [step_no_value family kind]
  by_cases builtin : language.grammar.has text .builtinType = true <;>
    simp [listToken, parameterWord, admits, kept, builtin, Kind.isWord, listReading,
      extendPending?, extend?, addition?, closed, Language.past]

theorem step_name_of_closed {type : String} (closed : isOpen type = false)
    (name : language.grammar.Name) (previous : Option Kind) :
    language.stepUnlessDone (listReading symbol (some type) 0 false 0 previous)
        (ofLexeme name.lexeme) =
      listReading (symbol.pushParam { name := name.text, type := some type }) none 0 false 0
        (some .identifier) := by
  have plain : ∀ {property : Property}, property ≠ .identifier →
      language.grammar.has name.text property = false :=
    not_admits_of_is_name name.accepted
  have admitted : (dialect language).admits name.text = true := by simp [dialect, plain]
  rw [Name.lexeme, step_word_of_closed family kind closed admitted, plain (by decide),
    if_neg Bool.false_ne_true]

theorem step_parameter_name (type : Expr (dialect language)) (name : language.grammar.Name)
    (previous : Option Kind) :
    language.stepUnlessDone (listReading symbol (some type.text) 0 false 0 previous)
        (ofLexeme name.lexeme) =
      listReading (symbol.pushParam { name := name.text, type := some type.text }) none 0 false 0
        (some .identifier) := by
  have closed : isOpen type.text = false := by simpa using expr_not_open "" type
  exact step_name_of_closed family kind closed name previous

def settled (symbol : Symbol) : Option String → Symbol
  | none => symbol
  | some type => if type = "void" then symbol else symbol.pushParam { type := some type }

def settledParams : Option String → List Symbol.Param
  | none => []
  | some type => if type = "void" then [] else [{ type := some type }]

omit family kind in
theorem settled_eq_with_params (symbol : Symbol) (pending : Option String) :
    settled symbol pending = symbol.withParams (settledParams pending) := by
  cases pending with
  | none => exact (Symbol.with_params_nil symbol).symm
  | some type =>
      simp only [settled, settledParams]
      split
      · exact (Symbol.with_params_nil symbol).symm
      · rfl

omit family kind in
theorem settled_kind (symbol : Symbol) (pending : Option String) :
    (settled symbol pending).kind = symbol.kind := by
  rw [settled_eq_with_params]
  rfl

/-- Outside of brackets a token that ends values is one of the list, whether or not a value is
expected. -/
theorem step_ends_entry {pending : Option String} {value : Bool} {previous : Option Kind}
    {lexeme : Lexeme} (noValue : value = true → nestingAfter? 0 lexeme.1 = none) :
    language.stepUnlessDone (listReading symbol pending 0 value 0 previous) (ofLexeme lexeme) =
      Language.past (listToken language.grammar language.typeFirstRules
        (listReading symbol pending 0 value 0 previous) (ofLexeme lexeme)) lexeme.1 := by
  cases value with
  | false => exact step_no_value family kind lexeme
  | true =>
      rw [step_list_reading family kind]
      simp [parameters, listReading, Expectations.inList, expected?, collect?, noValue rfl]

theorem step_comma (pending : Option String) (value : Bool) (previous : Option Kind) :
    language.stepUnlessDone (listReading symbol pending 0 value 0 previous)
        (ofLexeme (.comma, ",")) =
      listReading (settled symbol pending) none 0 false 0 (some .comma) := by
  rw [step_ends_entry family kind (fun _ => rfl)]
  cases pending <;> rfl

theorem step_assign (pending : Option String) (previous : Option Kind) :
    language.stepUnlessDone (listReading symbol pending 0 false 0 previous)
        (ofLexeme (.assign, "=")) =
      listReading (settled symbol pending) none 0 true 0 (some .assign) := by
  rw [step_ends_entry family kind (by simp)]
  cases pending <;> rfl

theorem read_parameter_type (parameter : Parameter language) (previous : Option Kind) :
    ∃ previous',
      language.read (listReading symbol none 0 false 0 previous)
          (parameter.skipped.map (fun skipped => word skipped.text) ++ parameter.type.lexemes) =
        listReading symbol (some parameter.type.text) 0 false 0 previous' := by
  rw [Language.read_append, read_skipped family kind]
  exact read_whole_expr
    (fun type depth previous => listReading symbol (some type) depth false 0 previous)
    parameter.type (step_starts_type family kind _ _)
    (fun previous taken => step_pending_type family kind previous taken)

/-- With its type and its name a parameter is declared, or will be when the entry ends. -/
theorem read_parameter_name (parameter : Parameter language) (previous : Option Kind) :
    ∃ reached pending previous',
      language.read (listReading symbol (some parameter.type.text) 0 false 0 previous)
          parameter.nameLexemes = listReading reached pending 0 false 0 previous' ∧
      settled reached pending = if parameter.isVoid then symbol
        else symbol.pushParam parameter.bareParam := by
  unfold Parameter.nameLexemes Parameter.isVoid Parameter.bareParam Parameter.param
  cases parameter.name with
  | none =>
      refine ⟨symbol, some parameter.type.text, previous, rfl, ?_⟩
      simp [settled]
  | some name =>
      refine ⟨_, none, _, step_parameter_name family kind parameter.type name previous, ?_⟩
      simp [settled]

end

def AwaitsEntry (symbol : Symbol) (reading : Reading) : Prop :=
  symbol.kind = .function ∧ ∃ previous, reading = listReading symbol none 0 false 0 previous

/-- A function whose list may go on or end, with a type that is still to be settled or without. -/
def EndsEntry (symbol : Symbol) (reading : Reading) : Prop :=
  symbol.kind = .function ∧ ∃ reached pending value previous,
    settled reached pending = symbol ∧ reading = listReading reached pending 0 value 0 previous

theorem AwaitsEntry.ends {symbol : Symbol} {reading : Reading} (awaits : AwaitsEntry symbol reading) :
    EndsEntry symbol reading := by
  obtain ⟨kind, previous, rfl⟩ := awaits
  exact ⟨kind, symbol, none, false, previous, rfl, rfl⟩

section

variable {language : Language} (family : language = .c ∨ language = .java)
include family

theorem EndsEntry.comma {symbol : Symbol} {reading : Reading} (ends : EndsEntry symbol reading) :
    AwaitsEntry symbol (language.stepUnlessDone reading (ofLexeme (.comma, ","))) := by
  obtain ⟨kind, reached, pending, value, previous, rfl, rfl⟩ := ends
  rw [settled_kind] at kind
  rw [step_comma family kind]
  exact ⟨(settled_kind reached pending).trans kind, some .comma, rfl⟩

/-- The value of an entry goes to the parameter that the entry declares. -/
theorem read_parameter_value (parameter : Parameter language) {symbol reached : Symbol}
    {pending : Option String} (kind : symbol.kind = .function)
    (declared : settled reached pending = if parameter.isVoid then symbol
      else symbol.pushParam parameter.bareParam) (previous : Option Kind) :
    EndsEntry (symbol.withParams parameter.declares)
      (language.read (listReading reached pending 0 false 0 previous) parameter.valueLexemes) := by
  refine ⟨kind, ?_⟩
  unfold Parameter.declares Parameter.valueLexemes
  cases valued : parameter.value with
  | none =>
      refine ⟨reached, pending, false, previous, ?_, rfl⟩
      have unset : parameter.bareParam = parameter.param := by
        simp [Parameter.bareParam, Parameter.param, valued]
      rw [declared, unset]
      split
      · rw [Symbol.with_params_nil]
      · rfl
  | some value =>
      have kindReached : reached.kind = .function := by
        rw [← settled_kind reached pending, declared]
        split <;> exact kind
      have whole : parameter.param = { parameter.bareParam with value := value.text } := by
        simp [Parameter.bareParam, Parameter.param, valued]
      -- The entry declares something, or there would be nothing to give the value to.
      rw [Parameter.not_void_of_value valued] at declared ⊢
      have collects : Language.CollectsValue
          (listReading symbol none 0 true 0 (some .assign)).expects :=
        ⟨rfl, rfl, rfl, rfl⟩
      rw [Language.read_cons, step_assign family kindReached, declared, if_neg (by decide), whole]
      exact ⟨_, none, true, _, rfl, language.read_default kind collects rfl value⟩

theorem AwaitsEntry.parameter (parameter : Parameter language) {symbol : Symbol} {reading : Reading}
    (awaits : AwaitsEntry symbol reading) :
    EndsEntry (symbol.withParams parameter.declares)
      (language.read reading parameter.lexemes) := by
  obtain ⟨kind, previous, rfl⟩ := awaits
  obtain ⟨typedLast, typed⟩ := read_parameter_type family kind parameter previous
  obtain ⟨reached, pending, namedLast, named, declared⟩ :=
    read_parameter_name family kind parameter typedLast
  rw [Parameter.lexemes, Language.read_append, Language.read_append, typed, named]
  exact read_parameter_value family parameter kind declared namedLast

/-- The list declares the parameters of its entries, in order. -/
theorem read_list (entries : List (Parameter language)) {symbol : Symbol} {reading : Reading}
    (awaits : AwaitsEntry symbol reading) :
    EndsEntry (symbol.withParams (entries.flatMap (·.declares)))
      (language.read reading (separated (entries.map (·.lexemes)))) :=
  Language.read_separated Parameter.lexemes Parameter.declares AwaitsEntry EndsEntry
    (fun entry awaits => AwaitsEntry.parameter family entry awaits) (EndsEntry.comma family)
    AwaitsEntry.ends entries awaits

def closedReading (symbol : Symbol) (previous : Option Kind) : Reading where
  symbol
  expects := { listClosed := true, previous }

theorem EndsEntry.close {symbol : Symbol} {reading : Reading} (ends : EndsEntry symbol reading) :
    language.stepUnlessDone reading (ofLexeme (.closeParen, ")")) =
      closedReading symbol (some .closeParen) := by
  obtain ⟨kind, reached, pending, value, previous, rfl, rfl⟩ := ends
  rw [settled_kind] at kind
  rw [step_ends_entry family kind (fun _ => rfl)]
  cases pending <;> rfl

def unsetReading (depth : Nat) (previous : Option Kind) : Reading where
  expects := { genericDepth := depth, previous }

theorem step_unset {depth : Nat} {previous : Option Kind} {lexeme : Lexeme}
    (noClass : language.grammar.admits (ofLexeme lexeme) .classWord = false) :
    language.stepUnlessDone (unsetReading depth previous) (ofLexeme lexeme) =
      Language.past (undeclared language.grammar (unsetReading depth previous) (ofLexeme lexeme))
        lexeme.1 := by
  have rule : language.classRule (unsetReading depth previous) (ofLexeme lexeme) =
      unsetReading depth previous := by
    simp [Language.classRule, unsetReading, noClass]
  have unlessDone : language.stepUnlessDone (unsetReading depth previous) (ofLexeme lexeme) =
      language.step (unsetReading depth previous) (ofLexeme lexeme) := rfl
  rw [unlessDone, Language.step, rule]
  rcases family with rfl | rfl <;>
    simp [Language.functionRule, function, opensList, unsetReading, Language.parameterRule,
      parameters, Expectations.inList, Language.variableRule, variableRule, Language.past]

theorem read_modifiers (modifiers : List (language.grammar.Keyword .modifier))
    (previous : Option Kind) :
    language.read (unsetReading 0 previous) (modifiers.map (·.lexeme)) =
      unsetReading 0 (lastKind previous (modifiers.map (·.lexeme))) := by
  apply Language.read_skipping
  intro modifier previous
  have notReserved : language.grammar.admits (ofLexeme (word modifier.text)) .reserved = false :=
    language.not_admits_other modifier.has (by decide) (by decide) (by decide)
  rw [Keyword.lexeme, step_unset family
    (language.not_admits_other modifier.has (by decide) (by decide) (by decide))]
  simp [undeclared, unsetReading, notReserved, modifier.admits, Language.past]

/-- Inside of type parameters the reader only counts angle brackets. The induction is on what is
left of them, and the level of what has been read is one less than the depth. -/
theorem read_inside (before rest : List Lexeme)
    (balanced : Balanced opensAngle closesAngle (before ++ rest))
    (noClass : ∀ lexeme ∈ rest, language.grammar.admits (ofLexeme lexeme) .classWord = false)
    (previous : Option Kind) :
    ∃ previous',
      language.read (unsetReading ((level opensAngle closesAngle before).toNat + 1) previous)
        rest = unsetReading 1 previous' := by
  induction rest generalizing before previous with
  | nil =>
      have ends := balanced.ends
      rw [List.append_nil] at ends
      exact ⟨previous, by rw [ends]; rfl⟩
  | cons lexeme rest induction =>
      have regrouped : before ++ lexeme :: rest = (before ++ [lexeme]) ++ rest := by simp
      have nonneg := balanced.nonneg_before
      have nonnegAfter : 0 ≤ level opensAngle closesAngle (before ++ [lexeme]) :=
        Balanced.nonneg_before (regrouped ▸ balanced)
      have stepped : language.stepUnlessDone
          (unsetReading ((level opensAngle closesAngle before).toNat + 1) previous)
          (ofLexeme lexeme) =
            unsetReading ((level opensAngle closesAngle (before ++ [lexeme])).toNat + 1)
              (some lexeme.1) := by
        rw [step_unset family (noClass lexeme (by simp))]
        -- The closing bracket that would end the clause is the one the level forbids.
        rw [level_concat] at nonnegAfter ⊢
        obtain ⟨kind, text⟩ := lexeme
        cases kind <;>
          simp [undeclared, unsetReading, opensAngle, closesAngle, Language.past]
            at nonneg nonnegAfter ⊢ <;>
          omega
      rw [Language.read_cons, stepped]
      exact induction (before ++ [lexeme]) (regrouped ▸ balanced)
        (fun lexeme member => noClass lexeme (List.mem_cons_of_mem _ member)) _

theorem read_type_parameters (parameters : TypeParameters language) (previous : Option Kind) :
    ∃ previous',
      language.read (unsetReading 0 previous) parameters.lexemes = unsetReading 0 previous' := by
  have opened : language.stepUnlessDone (unsetReading 0 previous) (ofLexeme (.lessThan, "<")) =
      unsetReading 1 (some .lessThan) := by
    rw [step_unset family rfl]
    rfl
  obtain ⟨last, inside⟩ : ∃ last,
      language.read (unsetReading 1 (some .lessThan)) parameters.inside = unsetReading 1 last :=
    read_inside family [] parameters.inside parameters.balanced parameters.noClass _
  have closed : language.stepUnlessDone (unsetReading 1 last) (ofLexeme (.greaterThan, ">")) =
      unsetReading 0 (some .greaterThan) := by
    rw [step_unset family rfl]
    rfl
  refine ⟨some .greaterThan, ?_⟩
  rw [TypeParameters.lexemes, List.cons_append, Language.read_cons, Language.read_append, opened,
    inside]
  exact closed

def variableReading (name type : String) (depth : Nat) (previous : Option Kind) : Reading where
  symbol := { name, kind := .var, varType := some type }
  expects := { genericDepth := depth, previous }

/-- Until the list opens only the rule for variables acts. -/
theorem step_variable {name type : String} {depth : Nat} {previous : Option Kind} {lexeme : Lexeme}
    (noList : lexeme.1 ≠ .openParen) :
    language.stepUnlessDone (variableReading name type depth previous) (ofLexeme lexeme) =
      Language.past (variableRule language.grammar language.typeFirstRules
        (variableReading name type depth previous) (ofLexeme lexeme)) lexeme.1 := by
  rcases family with rfl | rfl <;>
    simp [Language.stepUnlessDone, Language.step, Language.classRule, variableReading,
      Language.functionRule, function, opensList, noList, Language.parameterRule, parameters,
      Expectations.inList, Language.variableRule, Language.past]

/-- The first word of the return type makes the line a variable. -/
theorem step_starts_variable (first : (dialect language).Word)
    (starts : language.grammar.has first.text .builtinType = true ∨
      language.grammar.isIdentifier first.text = true ∧
        language.grammar.isKeyword first.text = false)
    (previous : Option Kind) :
    language.stepUnlessDone (unsetReading 0 previous) (ofLexeme (word first.text)) =
      variableReading "" first.text 0 (some .identifier) := by
  have notReserved : language.grammar.has first.text .reserved = false := by
    rcases starts with builtin | ⟨_, notKeyword⟩
    · exact language.has_unique builtin (by decide) (by decide) (by decide)
    · simp only [isKeyword, Bool.or_eq_false_iff] at notKeyword
      exact notKeyword.2
  have isType : language.grammar.has first.text .builtinType = true ∨
      language.grammar.has first.text .identifier = true ∧
        language.grammar.isKeyword first.text = false := starts
  have noClass : language.grammar.admits (ofLexeme (word first.text)) .classWord = false :=
    (word_not_skipped first).2
  rw [step_unset family noClass]
  simp [undeclared, unsetReading, admits, Kind.isWord, word_not_skipped, notReserved, isType,
    Language.past, variableReading]

theorem step_return_type {type type' : String} {depth depth' : Nat} {lexeme : Lexeme}
    (previous : Option Kind)
    (taken : (dialect language).take? type depth lexeme = some (type', depth')) :
    language.stepUnlessDone (variableReading "" type depth previous) (ofLexeme lexeme) =
      variableReading "" type' depth' (some lexeme.1) := by
  rcases take_cases taken with ⟨declarators, sign, rfl, rfl⟩ | ⟨noModifier, _, extended⟩
  · have noModifier : language.grammar.admits (ofLexeme lexeme) .modifier = false := by
      rcases sign with sign | sign <;> simp [admits, sign, Kind.isWord]
    rw [step_variable family (by rcases sign with sign | sign <;> simp [sign])]
    simp [variableRule, variableReading, unnamed, noModifier, declarators, sign,
      Reading.mapSymbol, Language.past]
  · have noList : lexeme.1 ≠ .openParen := by
      intro paren
      simp [extend?, addition?, paren] at extended
    have noSign : ¬ (lexeme.1 = .star ∨ lexeme.1 = .ampersand) := by
      rintro (sign | sign) <;> simp [extend?, addition?, sign] at extended
    rw [step_variable family noList]
    simp [variableRule, variableReading, unnamed, noModifier, noSign, extendVariable?, extended,
      Language.past]

theorem step_variable_name (type : Expr (dialect language)) (name : language.grammar.Name)
    (previous : Option Kind) :
    language.stepUnlessDone (variableReading "" type.text 0 previous) (ofLexeme name.lexeme) =
      variableReading name.text type.text 0 (some .identifier) := by
  have closed : isOpen type.text = false := by simpa using expr_not_open "" type
  have plain : ∀ {property : Property}, property ≠ .identifier →
      language.grammar.admits (ofLexeme (word name.text)) property = false :=
    not_admits_of_is_name name.accepted
  rw [Name.lexeme, step_variable family (by simp)]
  simp [variableRule, variableReading, unnamed, plain, extendVariable?, extend?, addition?, closed,
    name.accepted, Reading.named, Language.past]

def opened (name type : String) : Symbol where
  name
  kind := .function
  returns := if type = "void" then {} else { present := true, type := some type }

theorem step_open {name : String} (nonempty : name ≠ "") (type : String) (previous : Option Kind) :
    language.stepUnlessDone (variableReading name type 0 previous) (ofLexeme (.openParen, "(")) =
      listReading (opened name type) none 0 false 0 (some .openParen) := by
  have list : openList (variableReading name type 0 previous) =
      listReading (opened name type) none 0 false 0 previous := by
    by_cases void : type = "void" <;>
      simp [openList, variableReading, nonempty, void, opened, listReading, Symbol.toFunction,
        Expectations.openList]
  have rule : language.functionRule (variableReading name type 0 previous)
      (ofLexeme (.openParen, "(")) = listReading (opened name type) none 0 false 0 previous := by
    rw [← list]
    rcases family with rfl | rfl <;> rfl
  -- The list is open when the rule for parameters sees the parenthesis, and ignores it.
  have noClass : language.classRule (variableReading name type 0 previous)
      (ofLexeme (.openParen, "(")) = variableReading name type 0 previous := rfl
  have unlessDone : language.stepUnlessDone (variableReading name type 0 previous)
      (ofLexeme (.openParen, "(")) =
        language.step (variableReading name type 0 previous) (ofLexeme (.openParen, "(")) := rfl
  rw [unlessDone, Language.step, noClass, rule]
  rcases family with rfl | rfl <;> rfl

theorem read_header (declaration : Declaration language) :
    ∃ previous,
      language.read {} (declaration.modifiers.map (·.lexeme) ++
          (declaration.typeParameters.map (·.lexemes)).getD [] ++ declaration.returns.lexemes) =
        variableReading "" declaration.returns.text 0 previous := by
  obtain ⟨last, skipped⟩ : ∃ last,
      language.read {} (declaration.modifiers.map (·.lexeme) ++
        (declaration.typeParameters.map (·.lexemes)).getD []) = unsetReading 0 last := by
    change ∃ last, language.read (unsetReading 0 none) _ = _
    rw [Language.read_append, read_modifiers family]
    cases declaration.typeParameters with
    | none => exact ⟨_, rfl⟩
    | some parameters => exact read_type_parameters family parameters _
  rw [Language.read_append, skipped]
  exact read_whole_expr (fun type depth previous => variableReading "" type depth previous)
    declaration.returns
    (step_starts_variable family declaration.returns.firstWord declaration.starts last)
    (fun previous taken => step_return_type family previous taken)

theorem read_declaration (declaration : Declaration language) :
    language.read {} declaration.lexemes =
      closedReading declaration.symbol (some .closeParen) := by
  obtain ⟨previous, header⟩ := read_header family declaration
  have awaits : AwaitsEntry (opened declaration.name.text declaration.returns.text)
      (listReading _ none 0 false 0 (some .openParen)) := ⟨rfl, _, rfl⟩
  have nonempty : declaration.name.text ≠ "" :=
    declaration.name.nonempty (by rcases family with rfl | rfl <;> decide)
  rw [Declaration.lexemes]
  simp only [Language.read_append, Language.read_cons] at header ⊢
  rw [header, step_variable_name family, step_open family nonempty]
  exact (read_list family declaration.parameters awaits).close family

/-- A function is read back exactly: its name, one parameter for each entry but a lone `void`, with
its type and its default value, and its return type unless that is `void`. -/
theorem recognize_type_first_function (declaration : Declaration language)
    (tokens rest : List Token) (spelled : tokens.map lexeme = declaration.lexemes)
    (ends : ∀ token ∈ rest.head?, token.kind = .openBrace ∨ token.kind = .semicolon) :
    language.recognize (tokens ++ rest) = declaration.symbol := by
  have typed : language ≠ .scss := by
    rcases family with rfl | rfl <;> decide
  have reached : language.read {} (tokens.map lexeme) =
      closedReading declaration.symbol (some .closeParen) := by
    rw [spelled, read_declaration family]
  exact language.recognize_function typed rfl ⟨rfl, rfl, rfl⟩ reached ends

end

/-- `static std::map<int, K[]>* f(void, const struct node* next, T..., int n = max(a, 0))` -/
def sampleDeclaration : Declaration .c where
  modifiers := [⟨"static", by decide⟩]
  returns := .mk (.generic (.member (.word ⟨"std", by decide, by decide⟩) .colons
      ⟨"map", by decide, by decide⟩)
    (.more (.mk (.word ⟨"int", by decide, by decide⟩) {})
      (.last (.mk (.array (.word ⟨"K", by decide, by decide⟩)) {}))))
    { declarators := [.star], allowed := .inl rfl }
  starts := .inr (by decide)
  name := ⟨"f", by decide⟩
  parameters := [
    { type := .mk (.word ⟨"void", void_reads_as_word, by decide⟩) {} },
    { skipped := [⟨"const", .inl (by decide)⟩, ⟨"struct", .inr (by decide)⟩]
      type := .mk (.word ⟨"node", by decide, by decide⟩)
        { declarators := [.star], allowed := .inl rfl }
      name := some ⟨"next", by decide⟩ },
    { type := .mk (.word ⟨"T", by decide, by decide⟩) { variadic := true } },
    { type := .mk (.word ⟨"int", by decide, by decide⟩) {}
      name := some ⟨"n", by decide⟩
      value := some {
        lexemes := [word "max", (.openParen, "("), word "a", (.comma, ","), (.number, "0"),
          (.closeParen, ")")]
        balanced := ⟨by decide, by decide⟩
        commas := by decide } }]

theorem recognize_sample_prototype :
    (layOut 0 sampleDeclaration.lexemes).map lexeme = sampleDeclaration.lexemes ∧
      Language.c.recognize (layOut 0 sampleDeclaration.lexemes ++ [ofLexeme (.semicolon, ";")]) =
        { name := "f"
          kind := .function
          params := [{ name := "next", type := some "node*" }, { type := some "T..." },
            { name := "n", type := some "int", value := some "max(a,0)" }]
          returns := { present := true, type := some "std::map<int, K[]>*" } } :=
  ⟨map_lexeme_lay_out 0 _, recognize_type_first_function (.inl rfl) sampleDeclaration _ _
    (map_lexeme_lay_out 0 _) (by simp)⟩

/-- What stands ahead of a parameter list, whatever its entries are: `modifiers <…> returns name`. -/
structure Heading (language : Language) where
  modifiers : List (language.grammar.Keyword .modifier) := []
  typeParameters : Option (TypeParameters language) := none
  returns : Expr (dialect language)
  starts : language.grammar.has returns.firstWord.text .builtinType = true ∨
    language.grammar.isIdentifier returns.firstWord.text = true ∧
      language.grammar.isKeyword returns.firstWord.text = false
  name : language.grammar.Name

namespace Heading

variable {language : Language}

def lexemes (heading : Heading language) : List Lexeme :=
  heading.modifiers.map (·.lexeme) ++ (heading.typeParameters.map (·.lexemes)).getD [] ++
    heading.returns.lexemes ++ [heading.name.lexeme]

def symbol (heading : Heading language) : Symbol :=
  opened heading.name.text heading.returns.text

def reading (heading : Heading language) : Reading :=
  listReading heading.symbol none 0 false 0 (some .openParen)

variable (family : language = .c ∨ language = .java) (heading : Heading language)
include family

theorem read_lexemes :
    language.read {} (heading.lexemes ++ [(.openParen, "(")]) = heading.reading := by
  obtain ⟨previous, header⟩ :=
    read_header family { heading with parameters := [] }
  have nonempty : heading.name.text ≠ "" :=
    heading.name.nonempty (by rcases family with rfl | rfl <;> decide)
  rw [lexemes, List.append_assoc, Language.read_append, header]
  simp only [List.cons_append, List.nil_append, Language.read_cons, Language.read_nil]
  rw [step_variable_name family, step_open family nonempty]
  rfl

/-- What a parameter list has declared when it closes is the function that is recognized. -/
theorem recognize_list {inside : List Lexeme} {symbol : Symbol} (kind : symbol.kind = .function)
    (closes : language.stepUnlessDone (language.read heading.reading inside)
      (ofLexeme (.closeParen, ")")) = closedReading symbol (some .closeParen))
    (tokens rest : List Token)
    (spelled : tokens.map lexeme =
      heading.lexemes ++ (.openParen, "(") :: inside ++ [(.closeParen, ")")])
    (ends : ∀ token ∈ rest.head?, token.kind = .openBrace ∨ token.kind = .semicolon) :
    language.recognize (tokens ++ rest) = symbol := by
  have typed : language ≠ .scss := by
    rcases family with rfl | rfl <;> decide
  have regrouped : heading.lexemes ++ (.openParen, "(") :: inside ++ [(.closeParen, ")")] =
      (heading.lexemes ++ [(.openParen, "(")]) ++ inside ++ [(.closeParen, ")")] := by simp
  have reached : language.read {} (tokens.map lexeme) =
      closedReading symbol (some .closeParen) := by
    rw [spelled, regrouped, Language.read_append, Language.read_append, read_lexemes family]
    exact closes
  exact language.recognize_function typed kind ⟨rfl, rfl, rfl⟩ reached ends

end Heading

end DocComment.TypeFirst
