import DocComment.Proofs.KindTransition

/-!
Names in the languages that write types first. A word that becomes the name of a class, a variable
or a function is checked to be a name, but a constructor takes its name from the type in front of
its parenthesis, which is not. The main statement is that there is no other way to a name that is
not a valid one.
-/

namespace DocComment

open Token

structure Grammar.ValidName (grammar : Grammar) (text : String) : Prop where
  spelled : grammar.isIdentifier text = true
  notKeyword : grammar.isKeyword text = false
  notType : grammar.has text .builtinType = false

theorem Grammar.valid_name_of_is_name {grammar : Grammar} {token : Token}
    (accepted : grammar.isName token = true) : grammar.ValidName token.text := by
  simp only [isName, Bool.and_eq_true, Bool.not_eq_true'] at accepted
  obtain ⟨⟨⟨_, spelled⟩, notKeyword⟩, notType⟩ := accepted
  exact ⟨spelled, notKeyword, notType⟩

/-- The name stays, or the token is accepted as the new one. -/
def Grammar.Renames (grammar : Grammar) (token : Token) (before after : Reading) : Prop :=
  after.symbol.name = before.symbol.name ∨
    grammar.isName token = true ∧ after.symbol.name = token.text

namespace TypeFirst

/-- The type that a constructor takes its name from, if this token is its parenthesis. -/
def constructedType? (reading : Reading) (token : Token) : Option String :=
  if opensList reading token && reading.symbol.name == "" then reading.symbol.varType else none

section

variable (reading : Reading) (token : Token)

theorem constructed_type_none (kind : reading.symbol.kind ≠ .var) :
    constructedType? reading token = none := by
  simp [constructedType?, opensList, kind]

theorem after_list_name : (afterList reading token).symbol.name = reading.symbol.name := by
  unfold afterList
  split
  · next extended found =>
      split at found
      · obtain ⟨returns, depth, rfl⟩ := Language.extend_return_frame found
        rfl
      · contradiction
  · dsimp only
    split <;> rfl

/-- Only a constructor gets a name from its parenthesis. -/
theorem function_name :
    (function reading token).symbol.name =
      ((constructedType? reading token).map Text.afterLastColons).getD reading.symbol.name := by
  unfold function
  split
  · next closed =>
      simp only [Bool.and_eq_true, beq_iff_eq] at closed
      rw [after_list_name, constructed_type_none reading token (by simp [closed.1])]
      rfl
  split
  · next opens =>
      by_cases unnamed : reading.symbol.name = ""
      · cases typed : reading.symbol.varType <;>
          simp [openList, constructedType?, opens, unnamed, typed, Symbol.toFunction]
      · simp [openList, constructedType?, unnamed, Symbol.toFunction]
  · next other => simp [constructedType?, other]

theorem function_constructs {type : String} (constructed : constructedType? reading token = some type) :
    (function reading token).symbol.kind = .function := by
  simp only [constructedType?, Option.ite_none_right_eq_some, Bool.and_eq_true, beq_iff_eq]
    at constructed
  obtain ⟨⟨opens, unnamed⟩, typed⟩ := constructed
  have declared : reading.symbol.kind = .var := by
    simp only [opensList, Bool.and_eq_true, beq_iff_eq] at opens
    exact opens.1.1.1.2
  simp [function, declared, opens, openList, unnamed, typed, Symbol.toFunction]

theorem undeclared_name (grammar : Grammar) :
    (undeclared grammar reading token).symbol.name = reading.symbol.name := by
  unfold undeclared
  dsimp only
  split
  · split <;> rfl
  split
  · rfl
  split
  · rfl
  split
  · rfl
  split <;> rfl

theorem unnamed_renames (grammar : Grammar) (rules : Rules) :
    grammar.Renames token reading (unnamed grammar rules reading token) := by
  unfold unnamed
  split
  · exact .inl rfl
  split
  · exact .inl rfl
  split
  · next extended found =>
      obtain ⟨type, depth, rfl⟩ := Language.extend_variable_frame found
      exact .inl rfl
  split
  · exact .inl rfl
  split
  · next accepted => exact .inr ⟨accepted, rfl⟩
  · exact .inl rfl

theorem declared_renames (grammar : Grammar) (rules : Rules) :
    grammar.Renames token reading (declared grammar rules reading token) := by
  unfold declared
  split
  case h_2 =>
    split
    · dsimp only
      split
      · next accepted => exact .inr ⟨accepted, rfl⟩
      · exact .inl rfl
    · exact .inl rfl
  case h_3 => split <;> exact .inl rfl
  all_goals exact .inl rfl

theorem variable_rule_renames (grammar : Grammar) (rules : Rules) :
    grammar.Renames token reading (variableRule grammar rules reading token) := by
  unfold variableRule
  split
  · exact .inl (undeclared_name reading token grammar)
  · split
    · exact unnamed_renames reading token grammar rules
    · exact declared_renames reading token grammar rules
  all_goals exact .inl rfl

end

section

variable {language : Language} (family : language = .c ∨ language = .java) {reading : Reading}
  {token : Token}
include family

theorem function_rule_eq : language.functionRule = function := by
  rcases family with rfl | rfl <;> rfl

theorem class_rule_cases :
    language.classRule reading token = reading ∨
      (language.classRule reading token).symbol.kind = .classLike ∧
        language.grammar.Renames token reading (language.classRule reading token) := by
  have checked : language.isDeclaredName token = language.grammar.isName token := by
    rcases family with rfl | rfl <;> rfl
  unfold Language.classRule
  split
  · exact .inr ⟨rfl, .inl rfl⟩
  split
  · next named =>
      simp only [Bool.and_eq_true, beq_iff_eq, checked] at named
      exact .inr ⟨named.1.1, .inr ⟨named.2, rfl⟩⟩
  · exact .inl rfl

/-- What the rule for functions declares a function stays one under its name. -/
theorem step_to_function (unchanged : language.classRule reading token = reading)
    (kind : (function reading token).symbol.kind = .function) :
    (language.step reading token).symbol.kind = .function ∧
      (language.step reading token).symbol.name = (function reading token).symbol.name := by
  have same := (language.parameter_rule_same (function reading token) token).symbol
  simp only [Language.step]
  rw [unchanged, function_rule_eq family,
    language.variable_rule_ignores token (.inl (same.kind.trans kind))]
  exact ⟨same.kind.trans kind, same.name⟩

theorem step_function_name (kind : reading.symbol.kind = .function) :
    (language.step reading token).symbol.kind = .function ∧
      (language.step reading token).symbol.name = reading.symbol.name := by
  have kindAfter : (function reading token).symbol.kind = .function := by
    rcases Language.type_first_function_kind reading token with same | ⟨_, kindAfter⟩
    · rw [same, kind]
    · exact kindAfter
  have nameAfter : (function reading token).symbol.name = reading.symbol.name := by
    rw [function_name, constructed_type_none reading token (by simp [kind])]
    rfl
  rw [← nameAfter]
  exact step_to_function family (language.class_rule_ignores token (.inl kind)) kindAfter

theorem step_constructed_name {type : String}
    (constructed : constructedType? reading token = some type) :
    (language.step reading token).symbol.kind = .function ∧
      (language.step reading token).symbol.name = Text.afterLastColons type := by
  have declared : reading.symbol.kind = .var := by
    by_contra other
    rw [constructed_type_none reading token other] at constructed
    contradiction
  have nameAfter : (function reading token).symbol.name = Text.afterLastColons type := by
    rw [function_name, constructed]
    rfl
  rw [← nameAfter]
  exact step_to_function family (language.class_rule_ignores token (.inr declared))
    (function_constructs reading token constructed)

/-- Where no constructor starts, a new name is a token that is accepted as one. -/
theorem step_renames (other : constructedType? reading token = none) :
    language.grammar.Renames token reading (language.step reading token) := by
  have rule : language.variableRule =
      variableRule language.grammar language.typeFirstRules := by
    rcases family with rfl | rfl <;> rfl
  simp only [Language.step]
  rw [function_rule_eq family]
  rcases class_rule_cases family with unchanged | ⟨kind, renames⟩
  · have nameAfter : (function reading token).symbol.name = reading.symbol.name := by
      rw [function_name, other]
      rfl
    have same := (language.parameter_rule_same (function reading token) token).symbol
    have renames := variable_rule_renames
      (language.parameterRule (function reading token) token) token language.grammar
      language.typeFirstRules
    rw [unchanged, rule]
    rwa [Grammar.Renames, same.name.trans nameAfter] at renames
  · -- A class keeps the name that its own rule gave it.
    have nameAfter : (function (language.classRule reading token) token).symbol.name =
        (language.classRule reading token).symbol.name := by
      rw [function_name, constructed_type_none _ token (by simp [kind])]
      rfl
    have kindAfter : (function (language.classRule reading token) token).symbol.kind =
        .classLike := by
      rcases Language.type_first_function_kind (language.classRule reading token) token with
        same | ⟨notClass, _⟩
      · rw [same, kind]
      · exact absurd kind notClass
    have same := (language.parameter_rule_same
      (function (language.classRule reading token) token) token).symbol
    rw [language.variable_rule_ignores token (.inr (same.kind.trans kindAfter))]
    rw [Grammar.Renames, ← nameAfter, ← same.name] at renames
    exact renames

end

def ConstructedFrom (language : Language) (tokens : List Token) (type : String) : Prop :=
  ∃ before paren after, tokens = before ++ paren :: after ∧
    (language.readingAfter before).expects.done = false ∧
    constructedType? (language.readingAfter before) paren = some type

theorem ConstructedFrom.snoc {language : Language} {tokens : List Token} {type : String}
    (constructed : ConstructedFrom language tokens type) (token : Token) :
    ConstructedFrom language (tokens ++ [token]) type := by
  obtain ⟨before, paren, after, rfl, undone, opens⟩ := constructed
  exact ⟨before, paren, after ++ [token], by simp, undone, opens⟩

section

variable {language : Language} (family : language = .c ∨ language = .java)
include family

/-- A constructor stays one, under the name it has got. -/
theorem constructed_reading {tokens : List Token} {type : String}
    (constructed : ConstructedFrom language tokens type) :
    (language.readingAfter tokens).symbol.kind = .function ∧
      (language.readingAfter tokens).symbol.name = Text.afterLastColons type := by
  obtain ⟨before, paren, after, rfl, undone, opens⟩ := constructed
  have regrouped : before ++ paren :: after = (before ++ [paren]) ++ after := by simp
  rw [regrouped]
  refine language.reading_after_keeps (fun reading => reading.symbol.kind = .function ∧
    reading.symbol.name = Text.afterLastColons type) ?_ ?_ after
  · rintro tokens token ⟨kind, name⟩
    cases done : (language.readingAfter tokens).expects.done with
    | true =>
        rw [language.reading_after_done done]
        exact ⟨kind, name⟩
    | false =>
        obtain ⟨kindAfter, same⟩ := @step_function_name language family _ token kind
        rw [language.reading_after_step done]
        exact ⟨kindAfter, same.trans name⟩
  · rw [language.reading_after_step undone]
    exact step_constructed_name family opens

/-- Without a constructor every name has been checked. -/
theorem name_checked (tokens : List Token) :
    (language.readingAfter tokens).symbol.name = "" ∨
      language.grammar.ValidName (language.readingAfter tokens).symbol.name ∨
      ∃ type, ConstructedFrom language tokens type := by
  induction tokens using List.reverseRecOn with
  | nil => exact .inl rfl
  | append_singleton tokens token induction =>
      have kept : ∀ reading : Reading,
          reading.symbol.name = (language.readingAfter tokens).symbol.name →
          reading.symbol.name = "" ∨ language.grammar.ValidName reading.symbol.name ∨
            ∃ type, ConstructedFrom language (tokens ++ [token]) type := by
        intro reading same
        rw [same]
        exact induction.imp_right (.imp_right fun ⟨type, earlier⟩ => ⟨type, earlier.snoc token⟩)
      cases done : (language.readingAfter tokens).expects.done with
      | true =>
          rw [language.reading_after_done done]
          exact kept _ rfl
      | false =>
          cases opens : constructedType? (language.readingAfter tokens) token with
          | some type => exact .inr (.inr ⟨type, tokens, token, [], rfl, done, opens⟩)
          | none =>
              rw [language.reading_after_step done]
              rcases step_renames family opens with same | ⟨accepted, renamed⟩
              · exact kept _ same
              · rw [renamed]
                exact .inr (.inl (Grammar.valid_name_of_is_name accepted))

/-- The name of a recognized class or variable is valid, and that of a function too, unless it is a
constructor whose type does not end in a valid name. -/
theorem parsed_name_valid_iff (line : String) (tokens : List Token)
    (scanned : language.tokens line = .ok tokens) (symbol : Symbol)
    (parsed : language.parse line = .ok symbol) (recognized : symbol.isRecognized = true) :
    (symbol.kind ≠ .function → language.grammar.ValidName symbol.name) ∧
      (language.grammar.ValidName symbol.name ↔ ∀ type, ConstructedFrom language tokens type →
        language.grammar.ValidName (Text.afterLastColons type)) := by
  have reached : (language.readingAfter tokens).symbol = symbol := by
    rw [Language.parse, scanned] at parsed
    have finish := language.finish_eq (by rcases family with rfl | rfl <;> decide)
    have same := Except.ok.inj parsed
    rwa [Language.recognize, finish] at same
  subst reached
  have nonempty : (language.readingAfter tokens).symbol.name ≠ "" := by
    simp only [Symbol.isRecognized, Bool.and_eq_true, bne_iff_ne] at recognized
    exact recognized.1
  have checked := (name_checked family tokens).resolve_left nonempty
  refine ⟨?_, ?_, ?_⟩
  · intro other
    rcases checked with valid | ⟨type, constructed⟩
    · exact valid
    · exact absurd (constructed_reading family constructed).1 other
  · intro valid type constructed
    rwa [← (constructed_reading family constructed).2]
  · intro segments
    rcases checked with valid | ⟨type, constructed⟩
    · exact valid
    · rw [(constructed_reading family constructed).2]
      exact segments type constructed

end

def memberConstructorTokens : List Token :=
  layOut 0 [word "ns", (.doubleColon, "::"), word "Foo", (.openParen, "("), word "int",
    (.star, "*"), word "a", (.closeParen, ")")]

def memberConstructor : Symbol where
  name := "Foo"
  kind := .function
  params := [{ name := "a", type := some "int*" }]

theorem member_constructor_named :
    Language.c.tokens "ns::Foo(int*a)" = .ok memberConstructorTokens ∧
      Language.c.parse "ns::Foo(int*a)" = .ok memberConstructor ∧
      memberConstructor.isRecognized = true ∧
      ConstructedFrom .c memberConstructorTokens "ns::Foo" ∧
      (Language.c.grammar.ValidName memberConstructor.name ↔
        ∀ type, ConstructedFrom .c memberConstructorTokens type →
          Language.c.grammar.ValidName (Text.afterLastColons type)) := by
  have scanned : Language.c.tokens "ns::Foo(int*a)" = .ok memberConstructorTokens := by
    decide +kernel
  have parsed : Language.c.parse "ns::Foo(int*a)" = .ok memberConstructor := by decide +kernel
  have constructed : ConstructedFrom .c memberConstructorTokens "ns::Foo" :=
    ⟨memberConstructorTokens.take 3, ⟨.openParen, "(", ⟨7, 8⟩⟩, memberConstructorTokens.drop 4,
      by decide +kernel, by decide +kernel, by decide +kernel⟩
  exact ⟨scanned, parsed, rfl, constructed,
    (parsed_name_valid_iff (.inl rfl) _ _ scanned _ parsed rfl).2⟩

/-- A parenthesis around the name of a variable makes a constructor of its type. -/
theorem parsed_name_of_builtin_type :
    Language.c.parse "int (x);" =
        .ok { name := "int", kind := .function, params := [{ type := some "x" }] } ∧
      ¬ Language.c.grammar.ValidName "int" := by
  refine ⟨by decide +kernel, ?_⟩
  intro valid
  exact absurd valid.notType (by decide)

end TypeFirst

end DocComment
