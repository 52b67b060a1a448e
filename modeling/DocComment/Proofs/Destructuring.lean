import DocComment.Proofs.NameFirstFunction

/-!
Destructuring patterns in a parameter list. A pattern is a tree of names, keys and further patterns,
read with one counter for its brackets and a look at the token before. The main statement is that
every name a pattern binds is a parameter of its own, left to right and whatever the nesting, and
that the types and default values of patterns leave the other parameters' names and types alone.
-/

namespace DocComment

namespace Symbol

def Param.withoutValue (param : Param) : Param := { param with value := none }

/-- The symbol without the default values of its parameters. -/
def withoutValues (symbol : Symbol) : Symbol :=
  { symbol with params := symbol.params.map (·.withoutValue) }

theorem without_values_push (symbol : Symbol) (param : Param) :
    (symbol.pushParam param).withoutValues =
      symbol.withoutValues.withParams [param.withoutValue] := by
  simp [withoutValues, pushParam, withParams]

theorem without_values_with_params (symbol : Symbol) (params : List Param) :
    (symbol.withParams params).withoutValues =
      symbol.withoutValues.withParams (params.map (·.withoutValue)) := by
  simp [withoutValues, withParams]

theorem drop_last_push (symbol : Symbol) (param : Param) :
    (symbol.pushParam param).dropLastParam = symbol := by
  simp [pushParam, dropLastParam]

theorem modify_last_push (symbol : Symbol) (param : Param) (change : Param → Param) :
    (symbol.pushParam param).modifyLastParam change = symbol.pushParam (change param) := by
  simp [pushParam, modifyLastParam]

def lastValue (symbol : Symbol) : Option String := symbol.params.getLast?.bind (·.value)

def withLastValue (value : Option String) (symbol : Symbol) : Symbol :=
  symbol.modifyLastParam fun param => { param with value }

theorem with_last_value_self (symbol : Symbol) : symbol.withLastValue symbol.lastValue = symbol := by
  cases found : symbol.params.getLast? with
  | none => simp [withLastValue, modifyLastParam, found]
  | some last =>
      obtain ⟨earlier, same⟩ := List.getLast?_eq_some_iff.1 found
      obtain ⟨name, kind, params, returns, varType⟩ := symbol
      subst same
      simp [withLastValue, modifyLastParam, lastValue]

theorem with_last_value_kind (value : Option String) (symbol : Symbol) :
    (symbol.withLastValue value).kind = symbol.kind :=
  (SameButParams.modify_last_param symbol _).kind

theorem modify_with_last_value (value : Option String) (change : Option String → Option String)
    (symbol : Symbol) :
    (symbol.withLastValue value).modifyLastParam
        (fun param => { param with value := change param.value }) =
      symbol.withLastValue (change value) := by
  unfold withLastValue
  cases found : symbol.params.getLast? with
  | none => simp [modifyLastParam, found]
  | some last => simp [modifyLastParam, found]

theorem without_values_with_last_value (value : Option String) (symbol : Symbol) :
    (symbol.withLastValue value).withoutValues = symbol.withoutValues := by
  cases found : symbol.params.getLast? with
  | none => simp [withLastValue, modifyLastParam, found]
  | some last =>
      obtain ⟨earlier, same⟩ := List.getLast?_eq_some_iff.1 found
      simp [withLastValue, modifyLastParam, withoutValues, Param.withoutValue, same]

end Symbol

namespace Language

open Token DefaultValue

theorem step_last_value (language : Language) {symbol : Symbol} {expects : Expectations}
    {value : Option String} {nesting nesting' : Nat} {lexeme : Lexeme}
    (kind : symbol.kind = .function) (collects : CollectsValue expects) (previous : Option Kind)
    (after : nestingAfter? nesting lexeme.1 = some nesting') :
    language.stepUnlessDone ⟨symbol.withLastValue value, { expects with nesting, previous }⟩
        (ofLexeme lexeme) =
      ⟨symbol.withLastValue (some (append value lexeme.2)),
        { expects with nesting := nesting', previous := some lexeme.1 }⟩ := by
  have kindBefore := (symbol.with_last_value_kind value).trans kind
  have found : expected?
      ⟨symbol.withLastValue value, { expects with nesting, previous }⟩ (ofLexeme lexeme) =
        some ⟨symbol.withLastValue (some (append value lexeme.2)),
          { expects with nesting := nesting', previous }⟩ := by
    have written := symbol.modify_with_last_value value fun value => some (append value lexeme.2)
    simp [expected?, collect?, collects.expected, after, written]
  rw [stepUnlessDone, if_neg (by simp [collects.undone]),
    language.step_in_list _ _ kindBefore collects.inList collects.unnamed,
    language.parameter_rule_value collects.inList found]
  rfl

/-- Where a value is expected, all of it is added to the value of the last parameter, if there is a
parameter. -/
theorem read_last_value (language : Language) {symbol : Symbol} {expects : Expectations}
    (kind : symbol.kind = .function) (collects : CollectsValue expects) (value : Value) :
    ∃ written,
      language.read ⟨symbol, { expects with nesting := 0 }⟩ value.lexemes =
        ⟨symbol.withLastValue written,
          { expects with nesting := 0, previous := lastKind expects.previous value.lexemes }⟩ := by
  refine ⟨collected symbol.lastValue value.lexemes, ?_⟩
  have read := @read_of_balanced language
    (fun value nesting previous =>
      ⟨symbol.withLastValue value, { expects with nesting, previous }⟩)
    (fun previous after => language.step_last_value kind collects previous after)
    [] value.lexemes value.balanced value.commas symbol.lastValue expects.previous
  rwa [symbol.with_last_value_self] at read

/-- Once a sign has made a reader expect a value, the value changes no parameter otherwise. -/
theorem read_assigned_last (language : Language) {reading started : Reading} {sign : Lexeme}
    (kind : started.symbol.kind = .function) (collects : CollectsValue started.expects)
    (unnested : started.expects.nesting = 0)
    (assigned : language.stepUnlessDone reading (ofLexeme sign) = started) (value : Value) :
    ∃ exact previous, exact.kind = .function ∧ exact.withoutValues = started.symbol.withoutValues ∧
      language.read reading (sign :: value.lexemes) =
        ⟨exact, { started.expects with previous }⟩ := by
  obtain ⟨symbol, expects⟩ := started
  have same : { expects with nesting := 0 } = expects := by rw [← unnested]
  obtain ⟨written, read⟩ := language.read_last_value kind collects value
  refine ⟨symbol.withLastValue written, lastKind expects.previous value.lexemes,
    (symbol.with_last_value_kind written).trans kind,
    symbol.without_values_with_last_value written, ?_⟩
  rw [same] at read
  rw [read_cons, assigned, read, ← unnested]

end Language

namespace NameFirst

open Token Grammar TypeText DefaultValue

inductive Bracket where
  | brace | square
  deriving DecidableEq, Repr

def Bracket.opening : Bracket → Lexeme
  | .brace => (.openBrace, "\x7b")
  | .square => (.openBracket, "[")

def Bracket.closing : Bracket → Lexeme
  | .brace => (.closeBrace, "\x7d")
  | .square => (.closeBracket, "]")

mutual

inductive BindingPattern where
  | mk (bracket : Bracket) (items : BindingItems)

/-- Items with commas between them. Empty brackets hold one item that is left out. -/
inductive BindingItems where
  | last (item : BindingItem)
  | more (item : BindingItem) (rest : BindingItems)

/-- Nothing, `...name`, `key: name = value` or `key: pattern = value`; key and value may be missing.
Properties in braces and elements in square brackets are read alike. -/
inductive BindingItem where
  | hole
  | rest (name : grammar.Name)
  | name (key : Option grammar.Name) (name : grammar.Name) (value : Option Value)
  | pattern (key : Option grammar.Name) (pattern : BindingPattern) (value : Option Value)

end

def keyLexemes : Option grammar.Name → List Lexeme
  | none => []
  | some key => [key.lexeme, (.colon, ":")]

def defaultLexemes : Option Value → List Lexeme
  | none => []
  | some value => (.assign, "=") :: value.lexemes

mutual

def BindingPattern.lexemes : BindingPattern → List Lexeme
  | .mk bracket items => bracket.opening :: items.lexemes ++ [bracket.closing]

def BindingItems.lexemes : BindingItems → List Lexeme
  | .last item => item.lexemes
  | .more item rest => item.lexemes ++ (.comma, ",") :: rest.lexemes

def BindingItem.lexemes : BindingItem → List Lexeme
  | .hole => []
  | .rest name => [(.ellipsis, "..."), name.lexeme]
  | .name key name value => keyLexemes key ++ name.lexeme :: defaultLexemes value
  | .pattern key pattern value => keyLexemes key ++ pattern.lexemes ++ defaultLexemes value

end

mutual

/-- The names that a pattern binds, left to right. A key binds nothing. -/
def BindingPattern.names : BindingPattern → List String
  | .mk _ items => items.names

def BindingItems.names : BindingItems → List String
  | .last item => item.names
  | .more item rest => item.names ++ rest.names

def BindingItem.names : BindingItem → List String
  | .hole => []
  | .rest name => [name.text]
  | .name _ name _ => [name.text]
  | .pattern _ pattern _ => pattern.names

end

def untyped (names : List String) : List Symbol.Param := names.map fun name => { name }

theorem untyped_append (first rest : List String) :
    untyped (first ++ rest) = untyped first ++ untyped rest :=
  List.map_append

def patternReading (held : Option String) (symbol : Symbol) (depth : Nat) (value : Bool)
    (previous : Option Kind) : Reading where
  symbol
  expects := { parameter := true, patternDepth := depth, value, heldName := held, previous }

section

variable {held : Option String} {symbol : Symbol} (kind : symbol.kind = .function)
include kind

/-- A token that does not belong to a value is one of the pattern. -/
theorem step_pattern {depth : Nat} {value : Bool} {previous : Option Kind} {lexeme : Lexeme}
    (noValue : value = true → nestingAfter? 0 lexeme.1 = none) :
    Language.javascript.stepUnlessDone (patternReading held symbol (depth + 1) value previous)
        (ofLexeme lexeme) =
      Language.past (pattern (patternReading held symbol (depth + 1) value previous)
        (ofLexeme lexeme)) lexeme.1 := by
  have stepped : Language.javascript.stepUnlessDone
      (patternReading held symbol (depth + 1) value previous) (ofLexeme lexeme) =
        Language.past (parameters (patternReading held symbol (depth + 1) value previous)
          (ofLexeme lexeme)) lexeme.1 :=
    Language.step_in_list .javascript _ _ kind rfl rfl
  have untaken : expected? (patternReading held symbol (depth + 1) value previous)
      (ofLexeme lexeme) = none := by
    cases value with
    | false => rfl
    | true => simp [expected?, patternReading, collect?, noValue rfl]
  have untyped : parameterType? (patternReading held symbol (depth + 1) value previous)
      (ofLexeme lexeme) = none := rfl
  rw [stepped]
  simp only [parameters, untaken, untyped]
  rfl

theorem step_bound_name (name : grammar.Name) {depth : Nat} {previous : Option Kind}
    (noColon : previous ≠ some .colon) :
    Language.javascript.stepUnlessDone (patternReading held symbol (depth + 1) false previous)
        (ofLexeme name.lexeme) =
      patternReading held (symbol.pushParam { name := name.text }) (depth + 1) false
        (some .identifier) := by
  rw [step_pattern kind (by simp), Name.lexeme]
  simp [pattern, name.accepted, patternReading, Expectations.follows, noColon, Reading.mapSymbol,
    Language.past]

/-- Behind a colon a name replaces that of the last parameter. -/
theorem step_renaming (name : grammar.Name) (depth : Nat) :
    Language.javascript.stepUnlessDone
        (patternReading held symbol (depth + 1) false (some .colon)) (ofLexeme name.lexeme) =
      patternReading held (symbol.modifyLastParam fun param => { param with name := name.text })
        (depth + 1) false (some .identifier) := by
  rw [step_pattern kind (by simp), Name.lexeme]
  simp [pattern, name.accepted, patternReading, Expectations.follows, Reading.mapSymbol,
    Language.past]

theorem step_pattern_sign {sign : Kind} (ignored : sign = .colon ∨ sign = .ellipsis) (text : String)
    (depth : Nat) (previous : Option Kind) :
    Language.javascript.stepUnlessDone (patternReading held symbol (depth + 1) false previous)
        (ofLexeme (sign, text)) = patternReading held symbol (depth + 1) false (some sign) := by
  rw [step_pattern kind (by simp)]
  rcases ignored with rfl | rfl <;> rfl

theorem step_pattern_comma (depth : Nat) (value : Bool) (previous : Option Kind) :
    Language.javascript.stepUnlessDone (patternReading held symbol (depth + 1) value previous)
        (ofLexeme (.comma, ",")) = patternReading held symbol (depth + 1) false (some .comma) := by
  rw [step_pattern kind (fun _ => rfl)]
  rfl

theorem step_opening (bracket : Bracket) {depth : Nat} {previous : Option Kind}
    (noColon : previous ≠ some .colon) :
    Language.javascript.stepUnlessDone (patternReading held symbol (depth + 1) false previous)
        (ofLexeme bracket.opening) =
      patternReading held symbol (depth + 2) false (some bracket.opening.1) := by
  rw [step_pattern kind (by simp)]
  cases bracket <;>
    simp [Bracket.opening, pattern, patternReading, Expectations.follows, noColon, Language.past]

/-- The key of a nested pattern is no parameter, and its bracket drops it. -/
theorem step_opening_value (bracket : Bracket) (depth : Nat) :
    Language.javascript.stepUnlessDone
        (patternReading held symbol (depth + 1) false (some .colon)) (ofLexeme bracket.opening) =
      patternReading held symbol.dropLastParam (depth + 2) false (some bracket.opening.1) := by
  rw [step_pattern kind (by simp)]
  cases bracket <;> rfl

theorem step_closing (bracket : Bracket) (depth : Nat) (value : Bool) (previous : Option Kind) :
    Language.javascript.stepUnlessDone (patternReading held symbol (depth + 1) value previous)
        (ofLexeme bracket.closing) =
      patternReading held symbol depth false (some bracket.closing.1) := by
  rw [step_pattern kind (by cases bracket <;> exact fun _ => rfl)]
  cases bracket <;> rfl

theorem read_key (key : grammar.Name) {depth : Nat} {previous : Option Kind}
    (noColon : previous ≠ some .colon) :
    Language.javascript.read (patternReading held symbol (depth + 1) false previous)
        [key.lexeme, (.colon, ":")] =
      patternReading held (symbol.pushParam { name := key.text }) (depth + 1) false
        (some .colon) := by
  have pushed : (symbol.pushParam { name := key.text }).kind = .function := kind
  rw [Language.read_cons, step_bound_name kind key noColon, Language.read_cons,
    step_pattern_sign pushed (.inl rfl)]
  rfl

/-- With or without a key, a name is one parameter. -/
theorem read_bound_name (key : Option grammar.Name) (name : grammar.Name) {depth : Nat}
    {previous : Option Kind} (noColon : previous ≠ some .colon) :
    Language.javascript.read (patternReading held symbol (depth + 1) false previous)
        (keyLexemes key ++ [name.lexeme]) =
      patternReading held (symbol.pushParam { name := name.text }) (depth + 1) false
        (some .identifier) := by
  cases key with
  | none => exact step_bound_name kind name noColon
  | some key =>
      have pushed : (symbol.pushParam { name := key.text }).kind = .function := kind
      rw [keyLexemes, Language.read_append, read_key kind key noColon, Language.read_cons,
        step_renaming pushed, Symbol.modify_last_push]
      rfl

/-- With or without a key, the bracket of a nested pattern leaves the parameters as they were. -/
theorem read_opening (key : Option grammar.Name) (bracket : Bracket) {depth : Nat}
    {previous : Option Kind} (noColon : previous ≠ some .colon) :
    Language.javascript.read (patternReading held symbol (depth + 1) false previous)
        (keyLexemes key ++ [bracket.opening]) =
      patternReading held symbol (depth + 2) false (some bracket.opening.1) := by
  cases key with
  | none => exact step_opening kind bracket noColon
  | some key =>
      have pushed : (symbol.pushParam { name := key.text }).kind = .function := kind
      rw [keyLexemes, Language.read_append, read_key kind key noColon, Language.read_cons,
        step_opening_value pushed, Symbol.drop_last_push]
      rfl

end

/-- A pattern that waits for an item. The symbol is given without default values: those of a pattern
go to whichever parameter is the last. -/
def AwaitsItem (held : Option String) (depth : Nat) (symbol : Symbol) (reading : Reading) : Prop :=
  ∃ exact previous, exact.kind = .function ∧ exact.withoutValues = symbol ∧
    previous ≠ some .colon ∧ reading = patternReading held exact (depth + 1) false previous

def EndsItem (held : Option String) (depth : Nat) (symbol : Symbol) (reading : Reading) : Prop :=
  ∃ exact value previous, exact.kind = .function ∧ exact.withoutValues = symbol ∧
    reading = patternReading held exact (depth + 1) value previous

section

variable {held : Option String} {depth : Nat} {symbol : Symbol} {reading : Reading}

theorem AwaitsItem.ends (awaits : AwaitsItem held depth symbol reading) :
    EndsItem held depth symbol reading := by
  obtain ⟨exact, previous, kind, rfl, _, rfl⟩ := awaits
  exact ⟨exact, false, previous, kind, rfl, rfl⟩

theorem EndsItem.comma (ends : EndsItem held depth symbol reading) :
    AwaitsItem held depth symbol
      (Language.javascript.stepUnlessDone reading (ofLexeme (.comma, ","))) := by
  obtain ⟨exact, value, previous, kind, rfl, rfl⟩ := ends
  exact ⟨exact, some .comma, kind, rfl, by decide, step_pattern_comma kind depth value previous⟩

theorem EndsItem.close (ends : EndsItem held depth symbol reading) (bracket : Bracket) :
    ∃ exact, exact.kind = .function ∧ exact.withoutValues = symbol ∧
      Language.javascript.stepUnlessDone reading (ofLexeme bracket.closing) =
        patternReading held exact depth false (some bracket.closing.1) := by
  obtain ⟨exact, value, previous, kind, rfl, rfl⟩ := ends
  exact ⟨exact, kind, rfl, step_closing kind bracket depth value previous⟩

theorem read_item_default (kind : symbol.kind = .function) (value : Option Value)
    (previous : Option Kind) :
    EndsItem held depth symbol.withoutValues
      (Language.javascript.read (patternReading held symbol (depth + 1) false previous)
        (defaultLexemes value)) := by
  cases value with
  | none => exact ⟨symbol, false, previous, kind, rfl, rfl⟩
  | some value =>
      have assign : Language.javascript.stepUnlessDone
          (patternReading held symbol (depth + 1) false previous) (ofLexeme (.assign, "=")) =
            patternReading held symbol (depth + 1) true (some .assign) := by
        rw [step_pattern kind (by simp)]
        rfl
      obtain ⟨exact, last, kindAfter, same, read⟩ :=
        Language.javascript.read_assigned_last kind ⟨rfl, rfl, rfl, rfl⟩ rfl assign value
      exact ⟨exact, true, last, kindAfter, same, read⟩

end

mutual

/-- An item declares the names it binds. The induction is on the tree; a nested pattern is read one
bracket deeper and comes back to the depth it started from. -/
theorem AwaitsItem.item (item : BindingItem) {held : Option String} {depth : Nat} {symbol : Symbol}
    {reading : Reading} (awaits : AwaitsItem held depth symbol reading) :
    EndsItem held depth (symbol.withParams (untyped item.names))
      (Language.javascript.read reading item.lexemes) := by
  match item with
  | .hole =>
      rw [BindingItem.names, untyped, List.map_nil, Symbol.with_params_nil]
      exact awaits.ends
  | .rest name =>
      obtain ⟨exact, previous, kind, rfl, _, rfl⟩ := awaits
      rw [BindingItem.lexemes, Language.read_cons, step_pattern_sign kind (.inr rfl),
        Language.read_cons, step_bound_name kind name (by decide)]
      exact ⟨exact.pushParam { name := name.text }, false, _, kind, exact.without_values_push _, rfl⟩
  | .name key name value =>
      obtain ⟨exact, previous, kind, rfl, noColon, rfl⟩ := awaits
      have pushed : (exact.pushParam { name := name.text }).kind = .function := kind
      have regrouped : (BindingItem.name key name value).lexemes =
          (keyLexemes key ++ [name.lexeme]) ++ defaultLexemes value := by
        simp [BindingItem.lexemes]
      rw [regrouped, Language.read_append, read_bound_name kind key name noColon]
      have ends := @read_item_default held depth _ pushed value (some .identifier)
      rwa [Symbol.without_values_push] at ends
  | .pattern key (.mk bracket items) value =>
      obtain ⟨exact, previous, kind, rfl, noColon, rfl⟩ := awaits
      have regrouped : (BindingItem.pattern key (.mk bracket items) value).lexemes =
          (keyLexemes key ++ [bracket.opening]) ++ items.lexemes ++
            bracket.closing :: defaultLexemes value := by
        simp [BindingItem.lexemes, BindingPattern.lexemes]
      have inner : AwaitsItem held (depth + 1) exact.withoutValues
          (patternReading held exact (depth + 2) false (some bracket.opening.1)) :=
        ⟨exact, _, kind, rfl, by cases bracket <;> decide, rfl⟩
      obtain ⟨reached, kindReached, same, closed⟩ := (AwaitsItem.items items inner).close bracket
      rw [regrouped, Language.read_append, Language.read_append,
        read_opening kind key bracket noColon, Language.read_cons, closed]
      have ends := @read_item_default held depth _ kindReached value (some bracket.closing.1)
      rwa [same] at ends

theorem AwaitsItem.items (items : BindingItems) {held : Option String} {depth : Nat}
    {symbol : Symbol} {reading : Reading} (awaits : AwaitsItem held depth symbol reading) :
    EndsItem held depth (symbol.withParams (untyped items.names))
      (Language.javascript.read reading items.lexemes) := by
  match items with
  | .last item => exact awaits.item item
  | .more item rest =>
      have ends := AwaitsItem.items rest (awaits.item item).comma
      rw [BindingItems.names, untyped_append, Symbol.with_params_append, BindingItems.lexemes,
        Language.read_append, Language.read_cons]
      exact ends

end

/-- An entry of a list: a parameter of its own, or `pattern: type = value`. -/
inductive Entry where
  | plain (parameter : Parameter)
  | destructured (pattern : BindingPattern) (type : Option (Expr dialect)) (value : Option Value)

namespace Entry

def typeLexemes : Option (Expr dialect) → List Lexeme
  | none => []
  | some type => (.colon, ":") :: type.lexemes

def lexemes : Entry → List Lexeme
  | .plain parameter => parameter.lexemes
  | .destructured pattern type value => pattern.lexemes ++ typeLexemes type ++ defaultLexemes value

/-- What an entry declares, default values apart. The type of a pattern belongs to no single name.
-/
def declares : Entry → List Symbol.Param
  | .plain parameter => [parameter.param.withoutValue]
  | .destructured pattern _ _ => untyped pattern.names

end Entry

/-- Behind a pattern that has a type: the type stays pending until the entry ends. -/
def annotatedReading (held : Option String) (symbol : Symbol) (parameterType value : Bool)
    (depth : Nat) (type : String) (previous : Option Kind) : Reading where
  symbol
  expects := {
    parameter := true, parameterType, value, genericDepth := depth, pendingType := some type,
    heldName := held, previous }

section

variable {held : Option String} {symbol : Symbol} (kind : symbol.kind = .function)
include kind

theorem step_annotated {parameterType value : Bool} {depth : Nat} {type : String}
    {previous : Option Kind} (lexeme : Lexeme) :
    Language.javascript.stepUnlessDone
        (annotatedReading held symbol parameterType value depth type previous) (ofLexeme lexeme) =
      Language.past (parameters
        (annotatedReading held symbol parameterType value depth type previous) (ofLexeme lexeme))
        lexeme.1 :=
  Language.step_in_list .javascript _ _ kind rfl rfl

theorem step_pattern_type {type type' : String} {depth depth' : Nat} {lexeme : Lexeme}
    (previous : Option Kind)
    (extended : extend? (some type) depth (ofLexeme lexeme) = some (type', depth')) :
    Language.javascript.stepUnlessDone
        (annotatedReading held symbol true false depth type previous) (ofLexeme lexeme) =
      annotatedReading held symbol true false depth' type' (some lexeme.1) := by
  rw [step_annotated kind]
  simp [parameters, annotatedReading, Expectations.inList, expected?, parameterType?,
    extendPending?, extended, Language.past]

/-- A token that belongs to no type and to no value is one of the list. -/
theorem step_ends_annotated {parameterType value : Bool} {type : String} {previous : Option Kind}
    {lexeme : Lexeme} (noType : extend? (some type) 0 (ofLexeme lexeme) = none)
    (noValue : value = true → nestingAfter? 0 lexeme.1 = none) :
    Language.javascript.stepUnlessDone
        (annotatedReading held symbol parameterType value 0 type previous) (ofLexeme lexeme) =
      Language.past (listToken (annotatedReading held symbol false value 0 type previous)
        (ofLexeme lexeme)) lexeme.1 := by
  have untaken : expected? (annotatedReading held symbol parameterType value 0 type previous)
      (ofLexeme lexeme) = none := by
    cases value with
    | false => rfl
    | true => simp [expected?, annotatedReading, collect?, noValue rfl]
  have untyped : parameterType? (annotatedReading held symbol parameterType value 0 type previous)
      (ofLexeme lexeme) = none := by
    cases parameterType with
    | false => rfl
    | true => simp [parameterType?, annotatedReading, extendPending?, noType]
  rw [step_annotated kind]
  simp only [parameters, untaken, untyped]
  rfl

theorem read_pattern_type (type : Expr dialect) (bracket : Bracket) :
    ∃ previous,
      Language.javascript.read (patternReading held symbol 0 false (some bracket.closing.1))
          ((.colon, ":") :: type.lexemes) =
        annotatedReading held symbol true false 0 type.text previous := by
  have colon : Language.javascript.stepUnlessDone
      (patternReading held symbol 0 false (some bracket.closing.1)) (ofLexeme (.colon, ":")) =
        annotatedReading held symbol true false 0 "" (some .colon) := by
    rw [show patternReading held symbol 0 false (some bracket.closing.1) =
      listReading held symbol false false 0 0 (some bracket.closing.1) from rfl, step_between kind]
    cases bracket <;> rfl
  have first : extend? (some "") 0 (ofLexeme (word type.firstWord.text)) =
      some (type.firstWord.text, 0) := extend_none_word _ 0
  rw [Language.read_cons, colon]
  exact read_whole_expr
    (fun type depth previous => annotatedReading held symbol true false depth type previous)
    type (step_pattern_type kind _ first)
    (fun previous taken => step_pattern_type kind previous (extend_of_take rfl taken))

end

def AwaitsListed (held : Option String) (symbol : Symbol) (reading : Reading) : Prop :=
  ∃ exact, exact.withoutValues = symbol ∧ AwaitsEntry held exact reading

def EndsListed (held : Option String) (symbol : Symbol) (reading : Reading) : Prop :=
  ∃ exact, exact.withoutValues = symbol ∧ (EndsEntry held exact reading ∨
    exact.kind = .function ∧ ∃ parameterType value type previous,
      reading = annotatedReading held exact parameterType value 0 type previous)

section

variable {held : Option String} {symbol : Symbol} {reading : Reading}

theorem AwaitsListed.ends (awaits : AwaitsListed held symbol reading) :
    EndsListed held symbol reading := by
  obtain ⟨exact, same, awaits⟩ := awaits
  exact ⟨exact, same, .inl awaits.ends⟩

theorem EndsListed.comma (ends : EndsListed held symbol reading) :
    AwaitsListed held symbol
      (Language.javascript.stepUnlessDone reading (ofLexeme (.comma, ","))) := by
  obtain ⟨exact, same, ends | ⟨kind, parameterType, value, type, previous, rfl⟩⟩ := ends
  · exact ⟨exact, same, ends.comma⟩
  · refine ⟨exact, same, kind, some .comma, ?_⟩
    rw [step_ends_annotated kind rfl (fun _ => rfl)]
    rfl

theorem EndsListed.close (ends : EndsListed held symbol reading) :
    ∃ exact, exact.withoutValues = symbol ∧
      Language.javascript.stepUnlessDone reading (ofLexeme (.closeParen, ")")) =
        closedReading held exact false (some .closeParen) := by
  obtain ⟨exact, same, ends | ⟨kind, parameterType, value, type, previous, rfl⟩⟩ := ends
  · exact ⟨exact, same, ends.close⟩
  · refine ⟨exact, same, ?_⟩
    rw [step_ends_annotated kind rfl (fun _ => rfl)]
    rfl

/-- The value of a whole pattern goes to the last parameter too, with or without a type ahead. -/
theorem read_entry_default (kind : symbol.kind = .function) (type : Option (Expr dialect))
    (value : Option Value) (bracket : Bracket) :
    EndsListed held symbol.withoutValues
      (Language.javascript.read (patternReading held symbol 0 false (some bracket.closing.1))
        (Entry.typeLexemes type ++ defaultLexemes value)) := by
  rw [Language.read_append]
  cases type with
  | none =>
      -- Closed brackets of depth one leave the reading of a list between its entries.
      change EndsListed held symbol.withoutValues (Language.javascript.read
        (listReading held symbol false false 0 0 (some bracket.closing.1)) (defaultLexemes value))
      cases value with
      | none => exact ⟨symbol, rfl, .inl ⟨kind, false, false, _, rfl⟩⟩
      | some value =>
          have assign : Language.javascript.stepUnlessDone
              (listReading held symbol false false 0 0 (some bracket.closing.1))
              (ofLexeme (.assign, "=")) =
                listReading held symbol false true 0 0 (some .assign) := by
            rw [step_between kind]
            rfl
          obtain ⟨exact, last, kindAfter, same, read⟩ :=
            Language.javascript.read_assigned_last kind ⟨rfl, rfl, rfl, rfl⟩ rfl assign value
          exact ⟨exact, same, .inl ⟨kindAfter, false, true, last, read⟩⟩
  | some type =>
      obtain ⟨previous, annotated⟩ := @read_pattern_type held symbol kind type bracket
      rw [Entry.typeLexemes, annotated]
      cases value with
      | none => exact ⟨symbol, rfl, .inr ⟨kind, true, false, _, previous, rfl⟩⟩
      | some value =>
          have assign : Language.javascript.stepUnlessDone
              (annotatedReading held symbol true false 0 type.text previous)
              (ofLexeme (.assign, "=")) =
                annotatedReading held symbol false true 0 type.text (some .assign) := by
            rw [step_ends_annotated kind rfl (by simp)]
            rfl
          obtain ⟨exact, last, kindAfter, same, read⟩ :=
            Language.javascript.read_assigned_last kind ⟨rfl, rfl, rfl, rfl⟩ rfl assign value
          exact ⟨exact, same, .inr ⟨kindAfter, false, true, _, last, read⟩⟩

theorem AwaitsListed.entry (awaits : AwaitsListed held symbol reading) (entry : Entry) :
    EndsListed held (symbol.withParams entry.declares)
      (Language.javascript.read reading entry.lexemes) := by
  obtain ⟨exact, rfl, awaits⟩ := awaits
  cases entry with
  | plain parameter =>
      exact ⟨exact.withParams [parameter.param], exact.without_values_with_params _,
        .inl (awaits.parameter parameter)⟩
  | destructured pattern type value =>
      obtain ⟨bracket, items⟩ := pattern
      obtain ⟨kind, previous, rfl⟩ := awaits
      have opened : Language.javascript.stepUnlessDone
          (listReading held exact false false 0 0 previous) (ofLexeme bracket.opening) =
            patternReading held exact 1 false (some bracket.opening.1) := by
        rw [step_between kind]
        cases bracket <;> rfl
      have inner : AwaitsItem held 0 exact.withoutValues
          (patternReading held exact 1 false (some bracket.opening.1)) :=
        ⟨exact, _, kind, rfl, by cases bracket <;> decide, rfl⟩
      obtain ⟨reached, kindReached, same, closed⟩ := (inner.items items).close bracket
      have regrouped : (Entry.destructured (.mk bracket items) type value).lexemes =
          bracket.opening :: items.lexemes ++
            bracket.closing :: (Entry.typeLexemes type ++ defaultLexemes value) := by
        simp [Entry.lexemes, BindingPattern.lexemes]
      have ends := @read_entry_default held reached kindReached type value bracket
      rw [same] at ends
      rw [regrouped, Language.read_append, Language.read_cons, Language.read_cons, opened, closed]
      exact ends

end

def listLexemes (header : Header) (entries : List Entry) : List Lexeme :=
  header.lexemes ++ (.openParen, "(") :: separated (entries.map (·.lexemes)) ++
    [(.closeParen, ")")]

/-- Every name that an entry binds is a parameter of its own, left to right. One bound by a pattern
has no type, and a plain name has the type it was declared with. -/
theorem recognize_destructured_list (header : Header) (entries : List Entry)
    (tokens rest : List Token) (spelled : tokens.map lexeme = listLexemes header entries)
    (opens : ∀ token ∈ rest.head?, token.kind = .openBrace) :
    (Language.javascript.recognize (tokens ++ rest)).withoutValues =
      { name := header.name
        kind := .function
        params := entries.flatMap (·.declares)
        returns := { present := true } } := by
  obtain ⟨wantsName, held, previous, named⟩ := read_header header
  have awaits : AwaitsListed held (introduced header.name)
      (listReading held (introduced header.name) false false 0 0 (some .openParen)) :=
    ⟨introduced header.name, rfl, rfl, _, rfl⟩
  have listed := Language.read_separated Entry.lexemes Entry.declares (AwaitsListed held)
    (EndsListed held) (fun entry awaits => awaits.entry entry) EndsListed.comma AwaitsListed.ends
    entries awaits
  obtain ⟨symbol, same, closed⟩ := listed.close
  have reached : Language.javascript.read {} (tokens.map lexeme) =
      closedReading held symbol false (some .closeParen) := by
    rw [spelled, listLexemes]
    change Language.javascript.read (candidateReading "" none none) _ = _
    simp only [Language.read_append, Language.read_cons, named, step_open]
    exact closed
  have kind : symbol.kind = .function := congrArg Symbol.kind same
  rw [Language.recognize_function .javascript (by decide) kind ⟨rfl, rfl, rfl⟩ reached
    (fun token first => .inl (opens token first)), same]
  rfl

/-- `{ p, k: q = g(1), c: { d: [e, , ...r] = [] }, ...s }: Pair<V, W[]> = {}` -/
def samplePattern : Entry :=
  .destructured
    (.mk .brace
      (.more (.name none ⟨"p", by decide⟩ none)
        (.more (.name (some ⟨"k", by decide⟩) ⟨"q", by decide⟩ (some {
            lexemes := [word "g", (.openParen, "("), (.number, "1"), (.closeParen, ")")]
            balanced := ⟨by decide, by decide⟩
            commas := by decide }))
          (.more (.pattern (some ⟨"c", by decide⟩)
              (.mk .brace (.last (.pattern (some ⟨"d", by decide⟩)
                (.mk .square (.more (.name none ⟨"e", by decide⟩ none)
                  (.more .hole (.last (.rest ⟨"r", by decide⟩)))))
                (some {
                  lexemes := [(.openBracket, "["), (.closeBracket, "]")]
                  balanced := ⟨by decide, by decide⟩
                  commas := by decide })))) none)
            (.last (.rest ⟨"s", by decide⟩))))))
    (some (.mk (.generic (.word ⟨"Pair", by decide, rfl⟩)
      (.more (.mk (.word ⟨"V", by decide, rfl⟩) .bare)
        (.last (.mk (.array (.word ⟨"W", by decide, rfl⟩)) .bare)))) .bare))
    (some {
      lexemes := [(.openBrace, "\x7b"), (.closeBrace, "\x7d")]
      balanced := ⟨by decide, by decide⟩
      commas := by decide })

def sampleTyped : Entry :=
  .plain {
    name := ⟨"x", by decide⟩
    type := some (.mk (.union (.word ⟨"L", by decide, rfl⟩) (.word ⟨"M", by decide, rfl⟩)) .bare) }

def sampleList : List Lexeme :=
  listLexemes (.declared [] ⟨"g", by decide⟩) [samplePattern, sampleTyped]

theorem recognize_sample_patterns :
    (layOut 0 sampleList).map lexeme = sampleList ∧
      (Language.javascript.recognize
          (layOut 0 sampleList ++ [ofLexeme (.openBrace, "\x7b")])).withoutValues =
        { name := "g"
          kind := .function
          params := [{ name := "p" }, { name := "q" }, { name := "e" }, { name := "r" },
            { name := "s" }, { name := "x", type := some "L|M" }]
          returns := { present := true } } :=
  ⟨map_lexeme_lay_out 0 _, recognize_destructured_list _ _ _ _ (map_lexeme_lay_out 0 _) (by simp)⟩

end NameFirst

end DocComment
