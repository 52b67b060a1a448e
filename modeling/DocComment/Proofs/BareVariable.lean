import DocComment.Proofs.AtRuleFunction
import DocComment.Proofs.NameFirstFunction
import DocComment.Proofs.SigilFunction
import DocComment.Proofs.TypeFirstFunction

/-!
Declarations of variables. Past its name a variable is settled by a semicolon or by the first token
of its value, so no call, function or class in the value makes the line declare something else. The
main statement is that recognition reads the name and the type back exactly, in every language,
whatever follows.
-/

namespace DocComment

open Token Grammar TypeText

/-- What may follow a declared variable; `starts` says which lexemes a value may start with. -/
inductive VariableEnd (starts : Lexeme → Prop) : List Lexeme → Prop where
  | nothing : VariableEnd starts []
  | semicolon (tail : List Lexeme) : VariableEnd starts ((.semicolon, ";") :: tail)
  | value (tail : List Lexeme) (allowed : ∀ first ∈ tail.head?, starts first) :
      VariableEnd starts ((.assign, "=") :: tail)

namespace Language

structure Concluded (language : Language) (symbol : Symbol) (reading : Reading) : Prop where
  done : reading.expects.done = true
  declares : (language.finish reading).symbol = symbol

variable {language : Language} {symbol : Symbol}

theorem Concluded.read {reading : Reading} (concluded : language.Concluded symbol reading)
    (lexemes : List Lexeme) : (language.finish (language.read reading lexemes)).symbol = symbol := by
  rw [read_of_done language reading lexemes concluded.done]
  exact concluded.declares

/-- If a semicolon and the first lexeme of a value settle a variable, the line declares it. -/
theorem read_variable_end {starts : Lexeme → Prop} {reading valued : Reading} {rest : List Lexeme}
    (named : (language.finish reading).symbol = symbol)
    (semicolon : language.Concluded symbol
      (language.stepUnlessDone reading (ofLexeme (.semicolon, ";"))))
    (assign : language.stepUnlessDone reading (ofLexeme (.assign, "=")) = valued)
    (awaits : (language.finish valued).symbol = symbol)
    (value : ∀ first, starts first →
      language.Concluded symbol (language.stepUnlessDone valued (ofLexeme first)))
    (ends : VariableEnd starts rest) :
    (language.finish (language.read reading rest)).symbol = symbol := by
  cases ends with
  | nothing => exact named
  | semicolon tail => exact semicolon.read tail
  | value tail allowed =>
      rw [read_cons, assign]
      cases tail with
      | nil => exact awaits
      | cons first tail => exact (value first (allowed first rfl)).read tail

end Language

namespace TypeFirst

variable {language : Language} (family : language = .c ∨ language = .java)
include family

theorem read_variable (modifiers : List (language.grammar.Keyword .modifier))
    (type : Expr (dialect language))
    (starts : language.grammar.has type.firstWord.text .builtinType = true ∨
      language.grammar.isIdentifier type.firstWord.text = true ∧
        language.grammar.isKeyword type.firstWord.text = false)
    (name : language.grammar.Name) :
    language.read {} (modifiers.map (·.lexeme) ++ type.lexemes ++ [name.lexeme]) =
      variableReading name.text type.text 0 (some .identifier) := by
  -- Up to its name a variable reads as a function does.
  obtain ⟨previous, header⟩ :=
    read_header family { modifiers, returns := type, starts, name, parameters := [] }
  simp only [Option.map_none, Option.getD_none, List.append_nil] at header
  rw [Language.read_append, header, Language.read_cons, step_variable_name family,
    Language.read_nil]

theorem step_variable_end {name : String} (nonempty : name ≠ "") (type : String)
    (previous : Option Kind) {sign : Lexeme} (ends : sign.1 = .semicolon ∨ sign.1 = .assign) :
    language.stepUnlessDone (variableReading name type 0 previous) (ofLexeme sign) =
      Language.past (variableReading name type 0 previous).finished sign.1 := by
  rw [step_variable family (by rcases ends with sign | sign <;> simp [sign])]
  rcases ends with sign | sign <;>
    simp [variableRule, variableReading, nonempty, declared, sign]

theorem read_variable_rest {name : String} (nonempty : name ≠ "") (type : String)
    (previous : Option Kind) {rest : List Lexeme} (ends : VariableEnd (fun _ => True) rest) :
    (language.finish (language.read (variableReading name type 0 previous) rest)).symbol =
      { name, kind := .var, varType := some type } := by
  have finish := language.finish_eq (by rcases family with rfl | rfl <;> decide)
  refine Language.read_variable_end ?_ ?_
    (step_variable_end family nonempty type previous (.inr rfl)) ?_ ?_ ends
  · rw [finish]
    rfl
  · rw [step_variable_end family nonempty type previous (.inl rfl)]
    exact ⟨rfl, by rw [finish]; rfl⟩
  · rw [finish]
    rfl
  · intro first _
    exact ⟨rfl, by rw [finish]; rfl⟩

end TypeFirst

namespace NameFirst

/-- In the type of a variable the word for a function would declare one. -/
def variableDialect : Dialect where
  admits text := !grammar.has text .functionWord
  declarators := false

def StartsValue (first : Lexeme) : Prop :=
  first.1 = .identifier ∧ grammar.has first.2 .functionWord = false ∧
      grammar.has first.2 .modifier = false ∨
    first.1 = .number ∨ first.1 = .string ∨ first.1 = .openBracket ∨ first.1 = .openBrace

def variableReading (name : String) (type : Option String) (typed value : Bool) (depth : Nat)
    (previous : Option Kind) : Reading where
  symbol := { name, kind := .var, varType := type }
  expects := { variableType := typed, value, genericDepth := depth, previous }

section

variable {name : String} {type : Option String} {typed value : Bool} {depth : Nat}
  {previous : Option Kind}

theorem step_variable {lexeme : Lexeme}
    (notFunction : grammar.admits (ofLexeme lexeme) .functionWord = false)
    (notParen : lexeme.1 ≠ .openParen) :
    Language.javascript.stepUnlessDone (variableReading name type typed value depth previous)
        (ofLexeme lexeme) =
      Language.past (declared (variableReading name type typed value depth previous)
        (ofLexeme lexeme)) lexeme.1 := by
  simp [Language.stepUnlessDone, Language.step, Language.classRule, variableReading,
    Language.functionRule, function, notFunction, notParen, Language.parameterRule, parameters,
    Expectations.inList, Language.variableRule, variableRule, Language.past]

theorem step_variable_type {type' : String} {depth' : Nat} {lexeme : Lexeme}
    (notFunction : grammar.admits (ofLexeme lexeme) .functionWord = false)
    (extended : extend? type depth (ofLexeme lexeme) = some (type', depth')) :
    Language.javascript.stepUnlessDone (variableReading name type true false depth previous)
        (ofLexeme lexeme) =
      variableReading name (some type') true false depth' (some lexeme.1) := by
  have notParen : lexeme.1 ≠ .openParen := by
    intro paren
    simp [extend?, addition?, paren] at extended
  rw [step_variable notFunction notParen]
  simp [declared, variableReading, extendVariable?, extended, Language.past]

end

theorem not_function_of_take {type : String} {depth : Nat} {lexeme : Lexeme}
    {extension : String × Nat} (taken : variableDialect.take? type depth lexeme = some extension) :
    grammar.admits (ofLexeme lexeme) .functionWord = false := by
  obtain ⟨kind, text⟩ := lexeme
  cases kind with
  | identifier =>
      have notFunction : grammar.has text .functionWord = false := by
        simpa [variableDialect] using admitted_of_take taken
      exact notFunction
  | _ => rfl

def variableTypeLexemes : Option (Expr variableDialect) → List Lexeme
  | none => []
  | some type => (.colon, ":") :: type.lexemes

theorem read_variable_type (name : String) (type : Option (Expr variableDialect)) :
    ∃ typed previous,
      Language.javascript.read (variableReading name none false false 0 (some .identifier))
          (variableTypeLexemes type) =
        variableReading name (type.map (·.text)) typed false 0 previous := by
  cases type with
  | none => exact ⟨false, some .identifier, rfl⟩
  | some type =>
      have colon : Language.javascript.stepUnlessDone
          (variableReading name none false false 0 (some .identifier)) (ofLexeme (.colon, ":")) =
            variableReading name none true false 0 (some .colon) := by
        rw [step_variable rfl (by decide)]
        rfl
      have notFunction : grammar.has type.firstWord.text .functionWord = false := by
        simpa [variableDialect] using type.firstWord.admitted
      obtain ⟨previous, read⟩ := read_whole_expr
        (fun text depth previous => variableReading name (some text) true false depth previous)
        type (step_variable_type notFunction (extend_none_word _ _))
        (fun previous taken =>
          step_variable_type (not_function_of_take taken) (extend_of_take rfl taken))
      exact ⟨true, previous, by rw [variableTypeLexemes, Language.read_cons, colon, read]; rfl⟩

theorem read_variable (keyword : grammar.Keyword .variableWord) (name : grammar.Name)
    (type : Option (Expr variableDialect)) :
    ∃ typed previous,
      Language.javascript.read {} (keyword.lexeme :: name.lexeme :: variableTypeLexemes type) =
        variableReading name.text (type.map (·.text)) typed false 0 previous := by
  obtain ⟨typed, previous, read⟩ := read_variable_type name.text type
  refine ⟨typed, previous, ?_⟩
  change Language.javascript.read (candidateReading "" none none) _ = _
  rw [Language.read_cons, step_variable_word, Language.read_cons, step_stored_name]
  exact read

theorem StartsValue.not_admits {first : Lexeme} (starts : StartsValue first) :
    grammar.admits (ofLexeme first) .functionWord = false ∧
      grammar.admits (ofLexeme first) .modifier = false := by
  rcases starts with ⟨_, notFunction, notModifier⟩ | sign | sign | sign | sign
  · simp [admits, notFunction, notModifier]
  all_goals simp [admits, sign, Kind.isWord]

theorem StartsValue.kind {first : Lexeme} (starts : StartsValue first) :
    first.1 ≠ .openParen ∧ first.1 ≠ .colon ∧ first.1 ≠ .assign ∧ first.1 ≠ .semicolon ∧
      first.1 ≠ .comma := by
  rcases starts with ⟨sign, _⟩ | sign | sign | sign | sign <;> simp [sign]

theorem step_value_start {first : Lexeme} (starts : StartsValue first) (name : String)
    (type : Option String) (previous : Option Kind) :
    Language.javascript.stepUnlessDone (variableReading name type false true 0 previous)
        (ofLexeme first) =
      Language.past (variableReading name type false true 0 previous).finished first.1 := by
  obtain ⟨notFunction, notModifier⟩ := starts.not_admits
  obtain ⟨notParen, other⟩ := starts.kind
  rw [step_variable notFunction notParen]
  simp [declared, variableReading, notModifier, other, Reading.finished]

theorem step_variable_assign (name : String) (type : Option String) (typed : Bool)
    (previous : Option Kind) :
    Language.javascript.stepUnlessDone
        (variableReading name type typed false 0 previous) (ofLexeme (.assign, "=")) =
      variableReading name type false true 0 (some .assign) := by
  rw [step_variable rfl (by decide)]
  cases typed <;>
    simp [declared, variableReading, extendVariable?, extend?, addition?, Language.past]

theorem read_variable_rest (name : String) (type : Option String) (typed : Bool)
    (previous : Option Kind) {rest : List Lexeme} (ends : VariableEnd StartsValue rest) :
    (Language.javascript.finish (Language.javascript.read
        (variableReading name type typed false 0 previous) rest)).symbol =
      { name, kind := .var, varType := type } := by
  refine Language.read_variable_end rfl ?_ (step_variable_assign name type typed previous) rfl ?_
    ends
  · rw [step_variable rfl (by decide)]
    cases typed <;> exact ⟨rfl, rfl⟩
  · intro first starts
    rw [step_value_start starts]
    exact ⟨rfl, rfl⟩

end NameFirst

namespace Sigil

/-- A type ahead of a name is written like a return type, but if no question mark comes first, its
first word has to be one that can start a type. -/
structure VariableType extends ReturnType where
  starts : nullable = true ∨ grammar.has type.firstWord.text .builtinType = true ∨
    Spelling.qualified type.firstWord.text = true

def variableTypeLexemes : Option VariableType → List Lexeme
  | none => []
  | some type => type.lexemes

def StartsValue (first : Lexeme) : Prop :=
  grammar.admits (ofLexeme first) .functionWord = false ∧
    grammar.admits (ofLexeme first) .modifier = false

def variableReading (name : String) (type : Option String) (value : Bool) (depth : Nat)
    (previous : Option Kind) : Reading where
  symbol := { name, kind := .var, varType := type }
  expects := { value, genericDepth := depth, previous }

theorem step_undeclared {previous : Option Kind} {lexeme : Lexeme}
    (notClass : grammar.admits (ofLexeme lexeme) .classWord = false)
    (notFunction : grammar.admits (ofLexeme lexeme) .functionWord = false) :
    Language.php.stepUnlessDone (unsetReading previous) (ofLexeme lexeme) =
      Language.past (undeclared (unsetReading previous) (ofLexeme lexeme)) lexeme.1 := by
  have noClass : Language.php.classRule (unsetReading previous) (ofLexeme lexeme) =
      unsetReading previous := by
    simp only [grammar] at notClass
    simp [Language.classRule, unsetReading, notClass]
  have noFunction : Language.php.functionRule (unsetReading previous) (ofLexeme lexeme) =
      unsetReading previous := by
    simp [Language.functionRule, function, unsetReading, notFunction]
  have unlessDone : Language.php.stepUnlessDone (unsetReading previous) (ofLexeme lexeme) =
      Language.php.step (unsetReading previous) (ofLexeme lexeme) := rfl
  simp only [unlessDone, Language.step, noClass, noFunction]
  rfl

theorem step_variable_rule {name : String} {type : Option String} {value : Bool} {depth : Nat}
    {previous : Option Kind} {lexeme : Lexeme}
    (notFunction : grammar.admits (ofLexeme lexeme) .functionWord = false) :
    Language.php.stepUnlessDone (variableReading name type value depth previous)
        (ofLexeme lexeme) =
      Language.past (variableRule (variableReading name type value depth previous)
        (ofLexeme lexeme)) lexeme.1 := by
  simp [Language.stepUnlessDone, Language.step, Language.classRule, variableReading,
    Language.functionRule, function, notFunction, Language.parameterRule, parameters,
    Expectations.inList, Language.variableRule, Language.past]

theorem bare_word {text : String} (bare : Spelling.sigiled text = false)
    (notKeyword : grammar.isKeyword text = false) :
    grammar.admits (ofLexeme (word text)) .functionWord = false ∧
      grammar.isName (ofLexeme (word text)) = false := by
  have notIdentifier : grammar.isIdentifier text = false := bare
  exact ⟨not_admits_of_not_keyword notKeyword (by decide) (by decide), by
    simp [isName, notIdentifier]⟩

/-- No lexeme of a type declares a function or names the variable. -/
theorem bare_of_take {type : String} {depth : Nat} {lexeme : Lexeme} {extension : String × Nat}
    (taken : dialect.take? type depth lexeme = some extension) :
    grammar.admits (ofLexeme lexeme) .functionWord = false ∧
      grammar.isName (ofLexeme lexeme) = false := by
  obtain ⟨kind, text⟩ := lexeme
  cases kind with
  | identifier =>
      obtain ⟨bare, notKeyword⟩ : Spelling.sigiled text = false ∧ grammar.isKeyword text = false := by
        simpa [dialect] using admitted_of_take taken
      exact bare_word bare notKeyword
  | _ => exact ⟨rfl, rfl⟩

theorem step_variable_type {type : Option String} {type' : String} {depth depth' : Nat}
    {previous : Option Kind} {lexeme : Lexeme}
    (bare : grammar.admits (ofLexeme lexeme) .functionWord = false ∧
      grammar.isName (ofLexeme lexeme) = false)
    (extended : extend? type depth (ofLexeme lexeme) = some (type', depth')) :
    Language.php.stepUnlessDone (variableReading "" type false depth previous) (ofLexeme lexeme) =
      variableReading "" (some type') false depth' (some lexeme.1) := by
  have notParen : lexeme.1 ≠ .openParen := by
    intro paren
    simp [extend?, addition?, paren] at extended
  rw [step_variable_rule bare.1]
  simp [variableRule, variableReading, unnamed, bare.2, notParen, extendVariable?, extended,
    Language.past]

theorem step_first_word {first : dialect.Word}
    (starts : grammar.has first.text .builtinType = true ∨
      Spelling.qualified first.text = true) (previous : Option Kind) :
    Language.php.stepUnlessDone (unsetReading previous) (ofLexeme (word first.text)) =
      variableReading "" (some first.text) false 0 (some .identifier) := by
  obtain ⟨bare, notKeyword⟩ := word_is_bare first
  obtain ⟨notFunction, notName⟩ := bare_word bare notKeyword
  have qualified : Spelling.qualified first.text = true := by
    rcases starts with builtin | qualified
    · have listed : ∀ text ∈ grammar.types, Spelling.qualified text = true := by decide +kernel
      exact listed _ (List.contains_iff_mem.1 builtin)
    · exact qualified
  have isType : isTypeWord (ofLexeme (word first.text)) = true := by
    simp [isTypeWord, Kind.isWord, qualified, notKeyword]
  have plain : ∀ {property : Property}, property ≠ .identifier → property ≠ .builtinType →
      grammar.admits (ofLexeme (word first.text)) property = false :=
    not_admits_of_not_keyword notKeyword
  rw [step_undeclared (plain (by decide) (by decide)) notFunction]
  simp [undeclared, plain, notName, isType, extendVariable?, unsetReading, extend_none_word,
    variableReading, Language.past]

theorem read_variable_type (type : VariableType) (previous : Option Kind) :
    ∃ previous',
      Language.php.read (unsetReading previous) type.lexemes =
        variableReading "" (some type.text) false 0 previous' := by
  obtain ⟨⟨nullable, type⟩, starts⟩ := type
  obtain ⟨marked, mark, first⟩ : ∃ marked,
      Language.php.read (unsetReading previous) (nullMark nullable) = marked ∧
        Language.php.stepUnlessDone marked (ofLexeme (word type.firstWord.text)) =
          variableReading "" (some ((nullText nullable).getD "" ++ type.firstWord.text)) false 0
            (some .identifier) := by
    cases nullable with
    | false =>
        have isType := starts.resolve_left Bool.false_ne_true
        exact ⟨unsetReading previous, rfl, by simpa [nullText] using step_first_word isType previous⟩
    | true =>
        have question : Language.php.stepUnlessDone (unsetReading previous)
            (ofLexeme (.question, "?")) =
              variableReading "" (some "?") false 0 (some .question) := rfl
        obtain ⟨bare, notKeyword⟩ := word_is_bare type.firstWord
        exact ⟨_, question, step_variable_type (bare_word bare notKeyword) rfl⟩
  rw [ReturnType.lexemes, Language.read_append, mark, return_type_text]
  exact read_expr (fun text depth previous => variableReading "" (some text) false depth previous)
    (null_text_open nullable) type first
    (fun previous taken => step_variable_type (bare_of_take taken) (extend_of_take rfl taken))

theorem sigiled_nonempty (name : Variable) : name.text ≠ "" := by
  intro empty
  have sigiled := name.sigiled
  rw [empty] at sigiled
  exact absurd sigiled (by decide)

/-- The name ends the type, if there is one. -/
theorem read_variable (modifiers : List (grammar.Keyword .modifier)) (type : Option VariableType)
    (name : Variable) :
    Language.php.read {}
        (modifiers.map (·.lexeme) ++ variableTypeLexemes type ++ [word name.text]) =
      variableReading name.text (type.map (·.text)) false 0 (some .identifier) := by
  have accepted := is_name_of_sigiled name.sigiled
  have plain : ∀ {property : Property}, property ≠ .identifier →
      grammar.admits (ofLexeme (word name.text)) property = false :=
    not_admits_of_is_name accepted
  change Language.php.read (unsetReading none) _ = _
  rw [Language.read_append, Language.read_append, read_modifiers]
  cases type with
  | none =>
      rw [variableTypeLexemes, Language.read_nil, Language.read_cons, Language.read_nil,
        step_undeclared (plain (by decide)) (plain (by decide))]
      simp [undeclared, plain, accepted, unsetReading, variableReading, Language.past]
  | some type =>
      obtain ⟨previous, typed⟩ := read_variable_type type
        (lastKind none (modifiers.map (·.lexeme)))
      rw [variableTypeLexemes, typed, Language.read_cons, Language.read_nil,
        step_variable_rule (plain (by decide))]
      simp [variableRule, variableReading, unnamed, accepted, Reading.named, Language.past]

theorem step_declared {name : String} (nonempty : name ≠ "") {type : Option String} {value : Bool}
    {previous : Option Kind} {lexeme : Lexeme}
    (notFunction : grammar.admits (ofLexeme lexeme) .functionWord = false) :
    Language.php.stepUnlessDone (variableReading name type value 0 previous) (ofLexeme lexeme) =
      Language.past (declared (variableReading name type value 0 previous) (ofLexeme lexeme))
        lexeme.1 := by
  rw [step_variable_rule notFunction]
  simp [variableRule, variableReading, nonempty]

theorem read_variable_rest {name : String} (nonempty : name ≠ "") (type : Option String)
    {rest : List Lexeme} (ends : VariableEnd StartsValue rest) :
    (Language.php.finish (Language.php.read
        (variableReading name type false 0 (some .identifier)) rest)).symbol =
      { name, kind := .var, varType := type } := by
  have assign : Language.php.stepUnlessDone
      (variableReading name type false 0 (some .identifier)) (ofLexeme (.assign, "=")) =
        variableReading name type true 0 (some .assign) := by
    rw [step_declared nonempty rfl]
    rfl
  refine Language.read_variable_end rfl ?_ assign rfl ?_ ends
  · rw [step_declared nonempty rfl]
    exact ⟨rfl, rfl⟩
  · intro first starts
    have settled : declared (variableReading name type true 0 (some .assign)) (ofLexeme first) =
        (variableReading name type true 0 (some .assign)).finished := by
      simp [declared, variableReading, starts.2]
    rw [step_declared nonempty starts.1, settled]
    exact ⟨rfl, rfl⟩

end Sigil

namespace AtRule

inductive LiteralType : Lexeme → Option String → Prop where
  | number (text : String) : LiteralType (.number, text) (some "Number")
  | color (text : String) : LiteralType (.hash, text) (some "Color")
  | string (text : String) : LiteralType (.string, text) (some "String")
  | list (text : String) : LiteralType (.openParen, text) (some "List")
  | bool (value : Bool) : LiteralType (word (if value then "true" else "false")) (some "Bool")
  | null : LiteralType (word "null") (some "Null")
  | word (text : String) (other : text ∉ ["true", "false", "null"]) : LiteralType (word text) none
  | sign (kind : Kind) (text : String)
      (other : kind ∉ [.number, .hash, .string, .openParen, .identifier]) :
      LiteralType (kind, text) none

theorem literal_type_eq {first : Lexeme} {type : Option String} (literal : LiteralType first type) :
    literalType? (ofLexeme first) = type := by
  cases literal with
  | bool value => cases value <;> rfl
  | word text other =>
      simp only [List.mem_cons, List.not_mem_nil, or_false, not_or] at other
      simp [literalType?, other]
  | sign kind text other =>
      cases kind <;> simp [literalType?] at other ⊢
  | _ => rfl

inductive VariableValue : List Lexeme → Option String → Prop where
  | nothing : VariableValue [] none
  | other (first : Lexeme) (tail : List Lexeme) (notColon : first.1 ≠ .colon) :
      VariableValue (first :: tail) none
  | unfinished : VariableValue [(.colon, ":")] none
  | literal {first : Lexeme} {type : Option String} (literal : LiteralType first type)
      (tail : List Lexeme) : VariableValue ((.colon, ":") :: first :: tail) type

def variableReading (name : String) (value : Bool) (previous : Option Kind) : Reading where
  symbol := { name, kind := .var }
  expects := { value, previous }

/-- No word of the language has the dollar sign. -/
theorem DollarWord.not_admits (name : DollarWord) {property : Property}
    (other : property ≠ .identifier) :
    grammar.admits (ofLexeme (word name.text)) property = false := by
  have bare : ∀ property ∈ Property.all, ∀ listed ∈ grammar.words property,
      ¬ Text.firstChar? listed = some '$' := by decide +kernel
  exact not_has_of_marked bare name.marked other

theorem step_variable_name (name : DollarWord) :
    Language.scss.stepUnlessDone {} (ofLexeme name.lexeme) =
      variableReading name.text false (some .identifier) := by
  have notClass : Language.scss.grammar.admits (ofLexeme (word name.text)) .classWord = false :=
    name.not_admits (by decide)
  have marked : isDollarWord (ofLexeme (word name.text)) = true := name.is_dollar_word
  simp [Language.stepUnlessDone, Language.step, Language.classRule, DollarWord.lexeme, notClass,
    Language.functionRule, function, name.not_admits, Language.parameterRule, parameters,
    Expectations.inList, Language.variableRule, variableRule, marked, variableReading]

theorem step_variable (name : String) (value : Bool) (previous : Option Kind) (lexeme : Lexeme) :
    Language.scss.stepUnlessDone (variableReading name value previous) (ofLexeme lexeme) =
      Language.past (variableRule (variableReading name value previous) (ofLexeme lexeme))
        lexeme.1 := by
  simp [Language.stepUnlessDone, Language.step, Language.classRule, variableReading,
    Language.functionRule, function, Language.parameterRule, parameters, Expectations.inList,
    Language.variableRule, Language.past]

theorem read_variable_rest (name : String) {rest : List Lexeme} {type : Option String}
    (value : VariableValue rest type) :
    (Language.scss.finish (Language.scss.read
        (variableReading name false (some .identifier)) rest)).symbol =
      { name, kind := .var, varType := type } := by
  cases value with
  | nothing => rfl
  | other first tail notColon =>
      have settled : Language.scss.Concluded { name, kind := .var }
          (Language.scss.stepUnlessDone (variableReading name false (some .identifier))
            (ofLexeme first)) := by
        rw [step_variable]
        simp only [variableRule, variableReading, of_lexeme_kind, notColon]
        exact ⟨rfl, rfl⟩
      exact settled.read tail
  | unfinished =>
      rw [Language.read_cons, step_variable]
      rfl
  | @literal first _ literal tail =>
      have settled : Language.scss.Concluded { name, kind := .var, varType := type }
          (Language.scss.stepUnlessDone (variableReading name true (some .colon))
            (ofLexeme first)) := by
        rw [step_variable]
        simp only [variableRule, variableReading, literal_type_eq literal]
        exact ⟨rfl, rfl⟩
      rw [Language.read_cons, step_variable]
      exact settled.read tail

end AtRule

inductive BareVariable : Language → String → Option String → List Lexeme → Prop where
  | typeFirst {language : Language} (family : language = .c ∨ language = .java)
      (modifiers : List (language.grammar.Keyword .modifier))
      (type : Expr (TypeFirst.dialect language))
      (starts : language.grammar.has type.firstWord.text .builtinType = true ∨
        language.grammar.isIdentifier type.firstWord.text = true ∧
          language.grammar.isKeyword type.firstWord.text = false)
      (name : language.grammar.Name) {rest : List Lexeme}
      (ends : VariableEnd (fun _ => True) rest) :
      BareVariable language name.text (some type.text)
        (modifiers.map (·.lexeme) ++ type.lexemes ++ [name.lexeme] ++ rest)
  | nameFirst (keyword : NameFirst.grammar.Keyword .variableWord) (name : NameFirst.grammar.Name)
      (type : Option (Expr NameFirst.variableDialect)) {rest : List Lexeme}
      (ends : VariableEnd NameFirst.StartsValue rest) :
      BareVariable .javascript name.text (type.map (·.text))
        (keyword.lexeme :: name.lexeme :: NameFirst.variableTypeLexemes type ++ rest)
  | sigil (modifiers : List (Sigil.grammar.Keyword .modifier)) (type : Option Sigil.VariableType)
      (name : Sigil.Variable) {rest : List Lexeme} (ends : VariableEnd Sigil.StartsValue rest) :
      BareVariable .php name.text (type.map (·.text))
        (modifiers.map (·.lexeme) ++ Sigil.variableTypeLexemes type ++ [word name.text] ++ rest)
  | atRule (name : AtRule.DollarWord) {rest : List Lexeme} {type : Option String}
      (value : AtRule.VariableValue rest type) :
      BareVariable .scss name.text type (name.lexeme :: rest)

/-- A variable is read back exactly: its name and its type, no parameters and nothing returned,
whatever stands in its value. -/
theorem recognize_bare_variable {language : Language} {name : String} {type : Option String}
    {lexemes : List Lexeme} (bare : BareVariable language name type lexemes) (tokens : List Token)
    (spelled : tokens.map lexeme = lexemes) :
    language.recognize tokens =
      { name, kind := .var, params := [], returns := { present := false, type := none },
        varType := type } := by
  rw [Language.recognize_eq_read, spelled]
  cases bare with
  | typeFirst family modifiers type starts name ends =>
      have nonempty : name.text ≠ "" :=
        name.nonempty (by rcases family with rfl | rfl <;> decide)
      rw [Language.read_append, TypeFirst.read_variable family modifiers type starts name]
      exact TypeFirst.read_variable_rest family nonempty type.text _ ends
  | nameFirst keyword name type ends =>
      obtain ⟨typed, previous, read⟩ := NameFirst.read_variable keyword name type
      rw [Language.read_append, read]
      exact NameFirst.read_variable_rest name.text _ typed previous ends
  | sigil modifiers type name ends =>
      rw [Language.read_append, Sigil.read_variable modifiers type name]
      exact Sigil.read_variable_rest (Sigil.sigiled_nonempty name) _ ends
  | atRule name value =>
      rw [Language.read_cons, AtRule.step_variable_name]
      exact AtRule.read_variable_rest name.text value

/-- `static Map<int, std::Foo[]>*& x = f(class`, `let x: A.B[]|null = [function`,
`private ?array<int, \N\P> $x = (function` and `$x: (a` -/
theorem recognize_sample_variables :
    Language.c.recognize (layOut 0 [word "static", word "Map", (.lessThan, "<"), word "int",
        (.comma, ","), word "std", (.doubleColon, "::"), word "Foo", (.openBracket, "["),
        (.closeBracket, "]"), (.greaterThan, ">"), (.star, "*"), (.ampersand, "&"), word "x",
        (.assign, "="), word "f", (.openParen, "("), word "class"]) =
      { name := "x", kind := .var, varType := some "Map<int, std::Foo[]>*&" } ∧
    Language.javascript.recognize (layOut 0 [word "let", word "x", (.colon, ":"), word "A",
        (.dot, "."), word "B", (.openBracket, "["), (.closeBracket, "]"), (.pipe, "|"), word "null",
        (.assign, "="), (.openBracket, "["), word "function"]) =
      { name := "x", kind := .var, varType := some "A.B[]|null" } ∧
    Language.php.recognize (layOut 0 [word "private", (.question, "?"), word "array",
        (.lessThan, "<"), word "int", (.comma, ","), word "\\N\\P", (.greaterThan, ">"), word "$x",
        (.assign, "="), (.openParen, "("), word "function"]) =
      { name := "$x", kind := .var, varType := some "?array<int, \\N\\P>" } ∧
    Language.scss.recognize (layOut 0 [word "$x", (.colon, ":"), (.openParen, "("), word "a"]) =
      { name := "$x", kind := .var, varType := some "List" } := by
  refine ⟨?_, ?_, ?_, ?_⟩
  · exact recognize_bare_variable
      (.typeFirst (.inl rfl) [⟨"static", by decide⟩]
        (.mk (.generic (.word ⟨"Map", by decide, by decide⟩)
            (.more (.mk (.word ⟨"int", by decide, by decide⟩) {})
              (.last (.mk (.array (.member (.word ⟨"std", by decide, by decide⟩) .colons
                ⟨"Foo", by decide, by decide⟩)) {}))))
          { declarators := [.star, .ampersand], allowed := .inl rfl })
        (by decide) ⟨"x", by decide⟩ (.value _ (by simp))) _ (map_lexeme_lay_out 0 _)
  · exact recognize_bare_variable
      (.nameFirst ⟨"let", by decide⟩ ⟨"x", by decide⟩
        (some (.mk (.union (.array (.member (.word ⟨"A", by decide, by decide⟩) .dot
          ⟨"B", by decide, by decide⟩)) (.word ⟨"null", by decide, by decide⟩)) {}))
        (.value _ (by simp [NameFirst.StartsValue]))) _ (map_lexeme_lay_out 0 _)
  · exact recognize_bare_variable
      (.sigil [⟨"private", by decide⟩]
        (some {
          nullable := true
          type := .mk (.generic (.word ⟨"array", by decide, by decide⟩)
            (.more (.mk (.word ⟨"int", by decide, by decide⟩) {})
              (.last (.mk (.word ⟨"\\N\\P", by decide, by decide⟩) {})))) {}
          starts := .inl rfl })
        ⟨"$x", by decide⟩ (.value _ (by simp [Sigil.StartsValue, admits, Kind.isWord]))) _
      (map_lexeme_lay_out 0 _)
  · exact recognize_bare_variable (.atRule ⟨"$x", by decide⟩ (.literal (.list "(") _)) _
      (map_lexeme_lay_out 0 _)

end DocComment
