import DocComment.Proofs.Lexemes

/-!
Which rule acts when. Once the line declares a function, the rules for classes and variables leave
it alone. While the parameter list is open only the rule for parameters acts, in every language, and
once it is closed only the rule for functions.
-/

namespace DocComment

namespace Symbol

/-- The two symbols differ in their parameters at most. -/
structure SameButParams (before after : Symbol) : Prop where
  name : after.name = before.name
  kind : after.kind = before.kind
  returns : after.returns = before.returns
  varType : after.varType = before.varType

namespace SameButParams

theorem refl (symbol : Symbol) : SameButParams symbol symbol := ⟨rfl, rfl, rfl, rfl⟩

theorem trans {first second third : Symbol} (one : SameButParams first second)
    (two : SameButParams second third) : SameButParams first third :=
  ⟨two.name.trans one.name, two.kind.trans one.kind, two.returns.trans one.returns,
    two.varType.trans one.varType⟩

theorem push_param (symbol : Symbol) (param : Param) :
    SameButParams symbol (symbol.pushParam param) := ⟨rfl, rfl, rfl, rfl⟩

theorem drop_last_param (symbol : Symbol) : SameButParams symbol symbol.dropLastParam :=
  ⟨rfl, rfl, rfl, rfl⟩

theorem modify_last_param (symbol : Symbol) (change : Param → Param) :
    SameButParams symbol (symbol.modifyLastParam change) := by
  unfold modifyLastParam
  split <;> exact ⟨rfl, rfl, rfl, rfl⟩

end SameButParams

end Symbol

structure Reading.SameButList (before after : Reading) : Prop where
  symbol : Symbol.SameButParams before.symbol after.symbol
  name : after.expects.name = before.expects.name

namespace Language

open Token

theorem class_rule_ignores (language : Language) {reading : Reading} (token : Token)
    (kind : reading.symbol.kind = .function ∨ reading.symbol.kind = .var) :
    language.classRule reading token = reading := by
  rcases kind with kind | kind <;> simp [classRule, kind]

theorem variable_rule_ignores (language : Language) {reading : Reading} (token : Token)
    (kind : reading.symbol.kind = .function ∨ reading.symbol.kind = .classLike) :
    language.variableRule reading token = reading := by
  cases language <;> rcases kind with kind | kind <;>
    simp [variableRule, TypeFirst.variableRule, NameFirst.variableRule, Sigil.variableRule,
      AtRule.variableRule, kind]

theorem parameter_rule_outside (language : Language) {reading : Reading} (token : Token)
    (outside : reading.expects.inList = false) :
    language.parameterRule reading token = reading := by
  cases language <;>
    simp [parameterRule, TypeFirst.parameters, NameFirst.parameters, Sigil.parameters,
      AtRule.parameters, outside]

/-- A value that is expected comes before everything else in the list. -/
theorem parameter_rule_value (language : Language) {reading taken : Reading} {token : Token}
    (inList : reading.expects.inList = true)
    (found : DefaultValue.expected? reading token = some taken) :
    language.parameterRule reading token = taken := by
  cases language <;>
    simp [parameterRule, TypeFirst.parameters, NameFirst.parameters, Sigil.parameters,
      AtRule.parameters, inList, found]

theorem function_rule_in_list (language : Language) {reading : Reading} (token : Token)
    (kind : reading.symbol.kind = .function) (inList : reading.expects.inList = true)
    (unnamed : reading.expects.name = false) :
    language.functionRule reading token = reading := by
  have list : reading.expects.parameter = true ∧ reading.expects.listClosed = false := by
    simpa [Expectations.inList] using inList
  cases language with
  | c => simp [functionRule, TypeFirst.function, TypeFirst.opensList, kind, list]
  | java => simp [functionRule, TypeFirst.function, TypeFirst.opensList, kind, list]
  | javascript => simp [functionRule, NameFirst.function, NameFirst.opensList, kind, list, unnamed]
  | php => simp [functionRule, Sigil.function, kind, list, unnamed]
  | scss =>
      cases same : token.kind <;>
        simp [functionRule, AtRule.function, kind, list, unnamed, inList, same]

/-- Past the list a return type that is expected comes before everything else. -/
theorem function_rule_return (language : Language) (typed : language ≠ .scss)
    {reading extended : Reading} {token : Token} (kind : reading.symbol.kind = .function)
    (closed : reading.expects.listClosed = true) (returns : reading.expects.returnType = true)
    (found : TypeText.extendReturn? reading token = some extended) :
    language.functionRule reading token = extended := by
  cases language with
  | c => simp [functionRule, TypeFirst.function, TypeFirst.afterList, kind, closed, returns, found]
  | java =>
      simp [functionRule, TypeFirst.function, TypeFirst.afterList, kind, closed, returns, found]
  | javascript =>
      simp [functionRule, NameFirst.function, NameFirst.afterList, kind, closed, returns, found]
  | php => simp [functionRule, Sigil.function, Sigil.afterList, kind, closed, returns, found]
  | scss => exact absurd rfl typed

theorem extend_return_end (reading : Reading) {token : Token}
    (ends : token.kind = .openBrace ∨ token.kind = .semicolon) :
    TypeText.extendReturn? reading token = none := by
  rcases ends with sign | sign <;>
    simp [TypeText.extendReturn?, TypeText.extend?, TypeText.addition?, sign]

/-- Past the list a brace or a semicolon ends the declaration, unless an arrow is still to come. -/
theorem function_rule_end (language : Language) (typed : language ≠ .scss) (reading : Reading)
    {token : Token} (kind : reading.symbol.kind = .function)
    (closed : reading.expects.listClosed = true)
    (settled : reading.expects.tentativeArrow = false)
    (ends : token.kind = .openBrace ∨ token.kind = .semicolon) :
    language.functionRule reading token =
      { reading with expects.returnType := false }.finished := by
  have untyped := extend_return_end reading ends
  cases language with
  | c | java =>
      rcases ends with sign | sign <;>
        simp [functionRule, TypeFirst.function, TypeFirst.afterList, kind, closed, untyped, sign]
  | javascript =>
      rcases ends with sign | sign <;>
        simp [functionRule, NameFirst.function, NameFirst.afterList, kind, closed, untyped, sign,
          settled]
  | php =>
      rcases ends with sign | sign <;>
        simp [functionRule, Sigil.function, Sigil.afterList, kind, closed, untyped, sign]
  | scss => exact absurd rfl typed

open DocComment.Reading (SameButList)
open DocComment.Symbol (SameButParams)

theorem extend_last_param_same {reading extended : Reading} {token : Token}
    (found : TypeText.extendLastParam? reading token = some extended) :
    SameButList reading extended := by
  simp only [TypeText.extendLastParam?, Option.bind_eq_some_iff, Option.map_eq_some_iff] at found
  obtain ⟨last, _, extension, _, rfl⟩ := found
  exact ⟨SameButParams.modify_last_param _ _, rfl⟩

theorem extend_pending_same {reading extended : Reading} {token : Token}
    (found : TypeText.extendPending? reading token = some extended) :
    SameButList reading extended := by
  simp only [TypeText.extendPending?, Option.map_eq_some_iff] at found
  obtain ⟨extension, _, rfl⟩ := found
  exact ⟨SameButParams.refl _, rfl⟩

theorem expected_value_same {reading taken : Reading} {token : Token}
    (found : DefaultValue.expected? reading token = some taken) :
    SameButList reading taken := by
  simp only [DefaultValue.expected?, DefaultValue.collect?] at found
  split at found
  · simp only [Option.map_eq_some_iff] at found
    obtain ⟨nesting, _, rfl⟩ := found
    exact ⟨SameButParams.modify_last_param _ _, rfl⟩
  · simp at found

theorem expected_value_or_same {reading other : Reading} {token : Token}
    (same : SameButList reading other) :
    SameButList reading ((DefaultValue.expected? reading token).getD other) := by
  cases found : DefaultValue.expected? reading token with
  | none => exact same
  | some taken => exact expected_value_same found

theorem name_first_pattern_same (reading : Reading) (token : Token) :
    SameButList reading (NameFirst.pattern reading token) := by
  unfold NameFirst.pattern
  split
  · dsimp only
    split
    · exact ⟨SameButParams.drop_last_param _, rfl⟩
    · exact ⟨SameButParams.refl _, rfl⟩
  · dsimp only
    split
    · exact ⟨SameButParams.drop_last_param _, rfl⟩
    · exact ⟨SameButParams.refl _, rfl⟩
  · exact ⟨SameButParams.refl _, rfl⟩
  · exact ⟨SameButParams.refl _, rfl⟩
  · exact ⟨SameButParams.refl _, rfl⟩
  · exact ⟨SameButParams.refl _, rfl⟩
  · split
    · dsimp only [Reading.mapSymbol]
      split
      · exact ⟨SameButParams.modify_last_param _ _, rfl⟩
      · exact ⟨SameButParams.push_param _ _, rfl⟩
    · exact ⟨SameButParams.refl _, rfl⟩
  · exact ⟨SameButParams.refl _, rfl⟩

theorem name_first_list_token_same (reading : Reading) (token : Token) :
    SameButList reading (NameFirst.listToken reading token) := by
  unfold NameFirst.listToken
  split
  case h_7 =>
    split
    · exact ⟨SameButParams.push_param _ _, rfl⟩
    · exact ⟨SameButParams.refl _, rfl⟩
  all_goals exact ⟨SameButParams.refl _, rfl⟩

theorem name_first_parameters_same (reading : Reading) (token : Token) :
    SameButList reading (NameFirst.parameters reading token) := by
  unfold NameFirst.parameters
  split
  · exact ⟨SameButParams.refl _, rfl⟩
  split
  · next taken found =>
      rcases Option.or_eq_some_iff.1 found with value | ⟨_, type⟩
      · exact expected_value_same value
      · simp only [NameFirst.parameterType?] at type
        split at type
        · simp at type
        split at type
        · exact extend_pending_same type
        · exact extend_last_param_same type
  · dsimp only
    split
    · have same := name_first_pattern_same { reading with expects.parameterType := false } token
      exact ⟨same.symbol, same.name⟩
    · have same := name_first_list_token_same { reading with expects.parameterType := false } token
      exact ⟨same.symbol, same.name⟩

theorem settle_pending_same (reading : Reading) :
    SameButList reading (TypeFirst.settlePending reading) := by
  unfold TypeFirst.settlePending
  split
  · exact ⟨SameButParams.refl _, rfl⟩
  · dsimp only
    split
    · exact ⟨SameButParams.refl _, rfl⟩
    · exact ⟨SameButParams.push_param _ _, rfl⟩

theorem parameter_word_same (grammar : Grammar) (reading : Reading) (token : Token) :
    SameButList reading (TypeFirst.parameterWord grammar reading token) := by
  unfold TypeFirst.parameterWord
  split
  · exact ⟨SameButParams.refl _, rfl⟩
  split
  · split
    · next extended found => exact extend_pending_same found
    split
    · exact ⟨SameButParams.refl _, rfl⟩
    split
    · exact ⟨SameButParams.push_param _ _, rfl⟩
    · exact ⟨SameButParams.refl _, rfl⟩
  · split
    · exact ⟨SameButParams.refl _, rfl⟩
    · exact ⟨SameButParams.refl _, rfl⟩

theorem type_first_parameters_same (grammar : Grammar) (rules : TypeFirst.Rules)
    (reading : Reading) (token : Token) :
    SameButList reading (TypeFirst.parameters grammar rules reading token) := by
  unfold TypeFirst.parameters
  split
  · have settled := settle_pending_same reading
    refine expected_value_or_same ?_
    unfold TypeFirst.listToken
    split
    · exact ⟨SameButParams.refl _, rfl⟩
    · exact ⟨settled.symbol, settled.name⟩
    · split
      · exact ⟨settled.symbol, settled.name⟩
      · exact parameter_word_same grammar reading token
    · exact ⟨settled.symbol, settled.name⟩
    · split
      · exact ⟨SameButParams.refl _, rfl⟩
      · exact parameter_word_same grammar reading token
    · split
      · exact ⟨SameButParams.refl _, rfl⟩
      · exact parameter_word_same grammar reading token
    · split
      · exact ⟨SameButParams.modify_last_param _ _, rfl⟩
      · exact parameter_word_same grammar reading token
    · exact parameter_word_same grammar reading token
  · exact ⟨SameButParams.refl _, rfl⟩

theorem extend_pending_or_same (reading : Reading) (token : Token) :
    SameButList reading ((TypeText.extendPending? reading token).getD reading) := by
  cases found : TypeText.extendPending? reading token with
  | none => exact ⟨SameButParams.refl _, rfl⟩
  | some extended => exact extend_pending_same found

theorem sigil_type_token_same (reading : Reading) (token : Token) :
    SameButList reading (Sigil.typeToken reading token) := by
  unfold Sigil.typeToken
  split
  · exact ⟨SameButParams.refl _, rfl⟩
  split
  · split
    · exact ⟨SameButParams.refl _, rfl⟩
    · exact extend_pending_or_same reading token
  · exact extend_pending_or_same reading token

theorem sigil_parameters_same (reading : Reading) (token : Token) :
    SameButList reading (Sigil.parameters reading token) := by
  unfold Sigil.parameters
  split
  · refine expected_value_or_same ?_
    unfold Sigil.listToken
    split
    case h_6 =>
      split
      · exact ⟨SameButParams.push_param _ _, rfl⟩
      · exact sigil_type_token_same reading token
    case h_7 => exact sigil_type_token_same reading token
    all_goals exact ⟨SameButParams.refl _, rfl⟩
  · exact ⟨SameButParams.refl _, rfl⟩

theorem at_rule_parameters_same (reading : Reading) (token : Token) :
    SameButList reading (AtRule.parameters reading token) := by
  unfold AtRule.parameters
  split
  · refine expected_value_or_same ?_
    unfold AtRule.listToken
    split
    case h_4 =>
      split
      · exact ⟨SameButParams.push_param _ _, rfl⟩
      · exact ⟨SameButParams.refl _, rfl⟩
    all_goals exact ⟨SameButParams.refl _, rfl⟩
  · exact ⟨SameButParams.refl _, rfl⟩

/-- The rule for parameters changes nothing of the symbol but its parameters, and never asks for a
name. -/
theorem parameter_rule_same (language : Language) (reading : Reading) (token : Token) :
    SameButList reading (language.parameterRule reading token) := by
  cases language with
  | c => exact type_first_parameters_same _ _ reading token
  | java => exact type_first_parameters_same _ _ reading token
  | javascript => exact name_first_parameters_same reading token
  | php => exact sigil_parameters_same reading token
  | scss => exact at_rule_parameters_same reading token

/-- Only a list that waits for an arrow is settled at the end of the line. -/
theorem finish_eq (language : Language) (settled : language ≠ .javascript) (reading : Reading) :
    language.finish reading = reading := by
  cases language with
  | javascript => exact absurd rfl settled
  | _ => rfl

/-- The reading with the kind of the token it has just seen. -/
def past (reading : Reading) (kind : Token.Kind) : Reading :=
  { reading with expects.previous := some kind }

/-- In an open list only the rule for parameters acts. -/
theorem step_in_list (language : Language) (reading : Reading) (token : Token)
    (kind : reading.symbol.kind = .function) (inList : reading.expects.inList = true)
    (unnamed : reading.expects.name = false) :
    language.step reading token = past (language.parameterRule reading token) token.kind := by
  have kindAfter : (language.parameterRule reading token).symbol.kind = .function := by
    rw [(parameter_rule_same language reading token).symbol.kind, kind]
  simp only [step]
  rw [class_rule_ignores language token (.inl kind),
    function_rule_in_list language token kind inList unnamed,
    variable_rule_ignores language token (.inl kindAfter)]
  rfl

/-- Past the list only the rule for functions acts, as long as the symbol stays a function. -/
theorem step_past_list (language : Language) (reading : Reading) (token : Token)
    (kind : reading.symbol.kind = .function)
    (kindAfter : (language.functionRule reading token).symbol.kind = .function)
    (outside : (language.functionRule reading token).expects.inList = false) :
    language.step reading token = past (language.functionRule reading token) token.kind := by
  simp only [step]
  rw [class_rule_ignores language token (.inl kind),
    parameter_rule_outside language token outside,
    variable_rule_ignores language token (.inl kindAfter)]
  rfl

end Language

end DocComment
