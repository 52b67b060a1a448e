import DocComment.Proofs.ArrowGroup
import DocComment.Proofs.InlineText

/-!
The texts that a symbol is made of, through the rules that record them. No rule takes a text from a
string or a comment, so whatever the line holds the texts of its symbol fit on a line.
-/

namespace DocComment

section

variable {reading extended : Reading} {token : Token} (inline : reading.Inline)
  (solid : token.Solid)
include inline solid

namespace TypeFirst

open TypeText

theorem after_list_inline : (afterList reading token).Inline := by
  unfold afterList
  split
  · next found =>
      exact extend_return_inline inline solid (Option.ite_none_right_eq_some.1 found).2
  · dsimp only
    split
    · exact { inline with symbol := { inline.symbol with returnType := nofun } }
    all_goals exact { inline with }

omit solid in
theorem open_list_inline : (openList reading).Inline := by
  unfold openList
  dsimp only
  split
  · split
    · exact inline
    · next type typed =>
        have ending := (inline.symbol.varType type typed).inline.of_subset
          (Text.after_last_colons_subset type)
        exact { inline with symbol := (inline.symbol.rename ending).to_function false }
  · have function := inline.symbol.to_function (reading.symbol.varType.any (· != "void"))
    refine { inline with symbol := { function with returnType := ?_ } }
    intro type kept
    exact inline.symbol.varType type (Option.mem_filter_iff.1 kept).1

theorem function_inline : (function reading token).Inline := by
  unfold function
  split
  · exact after_list_inline inline solid
  split
  · exact open_list_inline inline
  · exact inline

omit solid in
theorem settle_pending_inline : (settlePending reading).Inline := by
  unfold settlePending
  split
  · exact inline
  · next type waiting =>
      refine { inline with symbol := ?_, pendingType := nofun }
      dsimp only
      split
      · exact inline.symbol
      · exact inline.symbol.push_param
          { name := Text.solid_empty, type := forall_mem_some (inline.pendingType type waiting) }

theorem parameter_word_inline (grammar : Grammar) :
    (parameterWord grammar reading token).Inline := by
  unfold parameterWord
  split
  · exact inline
  split
  · next type waiting =>
      split
      · next found => exact extend_pending_inline inline solid found
      split
      · next builtin =>
          have fits := (solid.word (is_word_of_admits builtin)).2.inline
          exact { inline with pendingType := forall_mem_some fits }
      split
      · next word =>
          exact { inline with
            symbol := inline.symbol.push_param
              { name := (solid.word word).2
                type := forall_mem_some (inline.pendingType type waiting) }
            pendingType := nofun }
      · exact inline
  · split
    · next word =>
        exact { inline with pendingType := forall_mem_some (solid.word word).2.inline }
    · exact inline

omit solid in
theorem array_parameter_inline : (arrayParameter reading).Inline := by
  refine { inline with symbol := inline.symbol.modify_last_param ?_ }
  intro param fits
  exact { fits with type := forall_mem_some (to_array_inline (Text.inline_get fits.type)) }

theorem list_token_inline (grammar : Grammar) (rules : Rules) :
    (listToken grammar rules reading token).Inline := by
  have word := parameter_word_inline inline solid grammar
  have settled := settle_pending_inline inline
  unfold listToken
  split
  · exact inline
  · exact { settled with pendingType := nofun }
  · split
    · exact { settled with pendingType := nofun }
    · exact word
  · exact { settled with }
  -- Stars and ampersands are taken over as they are spelled.
  case h_5 | h_6 =>
    next declarator =>
      split
      · refine { inline with pendingType := ?_ }
        intro type waiting
        obtain ⟨before, given, rfl⟩ := Option.map_eq_some_iff.1 waiting
        exact (inline.pendingType before given).append (solid (by simp [declarator])).2.inline
      · exact word
  · split
    · exact array_parameter_inline inline
    · exact word
  · exact word

theorem parameters_inline (grammar : Grammar) (rules : Rules) :
    (parameters grammar rules reading token).Inline := by
  unfold parameters
  split
  · exact expected_value_get_inline inline (list_token_inline inline solid grammar rules)
  · exact inline

theorem undeclared_inline (grammar : Grammar) : (undeclared grammar reading token).Inline := by
  unfold undeclared
  dsimp only
  split
  · split <;> exact { inline with }
  split
  · exact { inline with }
  split
  · exact { inline with }
  split
  · exact inline
  split
  · next word =>
      have type : TypeText.Spelled token.text := by
        apply spelled_of_word solid
        simp only [Bool.or_eq_true, Bool.and_eq_true] at word
        exact word.elim is_word_of_admits fun plain => is_word_of_admits plain.1
      exact { inline with symbol := { inline.symbol with varType := forall_mem_some type } }
  · exact inline

theorem unnamed_inline (grammar : Grammar) (rules : Rules) :
    (unnamed grammar rules reading token).Inline := by
  unfold unnamed
  split
  · exact inline
  split
  · next declarator =>
      have sign : token.kind ≠ .string := by
        rintro string
        simp [string] at declarator
      refine { inline with symbol := { inline.symbol with varType := ?_ } }
      intro type longer
      obtain ⟨before, typed, rfl⟩ := Option.map_eq_some_iff.1 longer
      exact (inline.symbol.varType before typed).append (solid sign).2.inline
  split
  · next found => exact extend_variable_inline inline solid found
  split
  · next builtin =>
      have type := spelled_of_word solid (is_word_of_admits builtin)
      exact { inline with symbol := { inline.symbol with varType := forall_mem_some type } }
  split
  · next named => exact inline.named (solid.word (is_word_of_is_name named)).2.inline
  · exact inline

theorem declared_inline (grammar : Grammar) (rules : Rules) :
    (declared grammar rules reading token).Inline := by
  unfold declared
  split
  · exact { inline with }
  · split
    · dsimp only
      split
      · next named => exact { inline.named (solid.word (is_word_of_is_name named)).2.inline with }
      · exact { inline with }
    · exact inline
  · split
    · refine { inline with symbol := { inline.symbol with varType := ?_ } }
      intro type array
      obtain ⟨before, typed, rfl⟩ := Option.map_eq_some_iff.1 array
      exact (inline.symbol.varType before typed).to_array
    · exact inline
  all_goals exact { inline with }

theorem variable_rule_inline (grammar : Grammar) (rules : Rules) :
    (variableRule grammar rules reading token).Inline := by
  unfold variableRule
  split
  · exact undeclared_inline inline solid grammar
  · split
    · exact unnamed_inline inline solid grammar rules
    · exact declared_inline inline solid grammar rules
  all_goals exact inline

end TypeFirst

namespace NameFirst

open TypeText

omit solid in
theorem abandon_arrow_inline : (abandonArrow reading).Inline :=
  { inline with symbol := inline.symbol.to_variable inline.heldType, heldType := nofun }

theorem after_list_inline : (afterList reading token).Inline := by
  unfold afterList
  split
  · next found =>
      exact extend_return_inline inline solid (Option.ite_none_right_eq_some.1 found).2
  · dsimp only
    split
    · exact { inline with }
    split
    · exact { inline with }
    split
    · have settled : Reading.Inline { reading with expects.returnType := false } := { inline with }
      exact { abandon_arrow_inline settled with }
    split <;> exact { inline with }

omit solid in
theorem open_list_inline : (openList reading).Inline := by
  unfold openList
  dsimp only
  split
  · exact { inline with }
  · exact { inline with
      symbol := inline.symbol.to_function true, heldType := inline.symbol.varType }
  all_goals
    have fits : Text.Inline (if reading.symbol.name = "" then reading.expects.heldName.getD ""
        else reading.symbol.name) := by
      split
      · exact Text.inline_get inline.heldName
      · exact inline.symbol.name
    exact { inline with symbol := (inline.symbol.rename fits).to_function _, heldName := nofun }

theorem function_inline : (function reading token).Inline := by
  unfold function
  dsimp only
  split
  · exact after_list_inline inline solid
  split
  · exact { inline with symbol := inline.symbol.to_function true }
  split
  · next named =>
      simp only [Bool.and_eq_true] at named
      exact { inline.named (solid.word (is_word_of_is_name named.2)).2.inline with }
  split
  · exact open_list_inline inline
  · exact inline

theorem pattern_inline : (pattern reading token).Inline := by
  unfold pattern
  dsimp only
  split
  case h_1 | h_2 =>
    refine { inline with symbol := ?_ }
    dsimp only
    split
    · exact inline.symbol.drop_last_param
    · exact inline.symbol
  case h_7 =>
    split
    · next named =>
        have word := (solid.word (is_word_of_is_name named)).2
        refine { inline with symbol := ?_ }
        simp only [Reading.mapSymbol]
        split
        · exact inline.symbol.modify_last_param fun _ param => { param with name := word }
        · exact inline.symbol.push_param { name := word, type := nofun }
    · exact inline
  all_goals exact { inline with }

theorem list_token_inline : (listToken reading token).Inline := by
  unfold listToken
  dsimp only
  split
  case h_3 | h_4 => exact { inline with pendingType := nofun }
  case h_5 =>
    refine { inline with pendingType := ?_ }
    dsimp only
    split
    · exact forall_mem_some (by decide)
    · exact inline.pendingType
  case h_7 =>
    split
    · next named =>
        exact { inline with
          symbol := inline.symbol.push_param
            { name := (solid.word (is_word_of_is_name named)).2, type := nofun } }
    · exact inline
  all_goals exact { inline with }

theorem parameter_type_inline (found : parameterType? reading token = some extended) :
    extended.Inline := by
  unfold parameterType? at found
  split at found
  · contradiction
  split at found
  · exact extend_pending_inline inline solid found
  · exact extend_last_param_inline inline solid found

theorem parameters_inline : (parameters reading token).Inline := by
  have settled : Reading.Inline { reading with expects.parameterType := false } := { inline with }
  unfold parameters
  split
  · exact inline
  split
  · next found =>
      rcases Option.or_eq_some_iff.1 found with value | ⟨_, type⟩
      · exact expected_value_inline inline value
      · exact parameter_type_inline inline solid type
  · dsimp only
    split
    · exact pattern_inline settled solid
    · exact list_token_inline settled solid

theorem undeclared_inline : (undeclared reading token).Inline := by
  have released : Reading.Inline { reading with expects.heldName := none } :=
    { inline with heldName := nofun }
  unfold undeclared
  dsimp only
  split
  · split <;> exact { inline with }
  split
  · exact { inline with }
  split
  · exact { inline with symbol := { inline.symbol with } }
  split
  · split
    · next named => exact released.named (solid.word (is_word_of_is_name named)).2.inline
    split
    · next modifier =>
        have fits := (solid.word (is_word_of_admits modifier)).2.inline
        exact { inline with heldName := forall_mem_some fits }
    · exact released
  · split <;> exact { released with }
  · split <;> exact { released with symbol := { inline.symbol with } }
  · split <;> exact { released with symbol := { inline.symbol with } }
  · exact released

theorem declared_inline : (declared reading token).Inline := by
  unfold declared
  split
  · next found =>
      exact extend_variable_inline inline solid (Option.ite_none_right_eq_some.1 found).2
  · dsimp only
    repeat' split
    all_goals exact { inline with }

theorem variable_rule_inline : (variableRule reading token).Inline := by
  unfold variableRule
  split
  · exact undeclared_inline inline solid
  · split
    · split
      · next named => exact { inline.named (solid.word (is_word_of_is_name named)).2.inline with }
      · exact inline
    · exact declared_inline inline solid
  all_goals exact inline

omit solid in
theorem finish_inline : (finish reading).Inline := by
  unfold finish
  split
  · exact abandon_arrow_inline inline
  · exact inline

end NameFirst

namespace Sigil

open TypeText

omit inline solid in
theorem is_word_of_is_declared_name (declared : isDeclaredName token = true) :
    token.kind.isWord = true := by
  simp only [isDeclaredName, isTypeWord, Bool.and_eq_true] at declared
  exact declared.1.1.1

theorem after_list_inline : (afterList reading token).Inline := by
  unfold afterList
  split
  · next found =>
      exact extend_return_inline inline solid (Option.ite_none_right_eq_some.1 found).2
  · dsimp only
    repeat' split
    all_goals exact { inline with }

theorem function_inline : (function reading token).Inline := by
  unfold function
  dsimp only
  split
  · exact after_list_inline inline solid
  split
  · exact { inline with symbol := inline.symbol.to_function true }
  split
  · exact inline
  split
  · next named =>
      have word := is_word_of_is_declared_name (Bool.and_eq_true_iff.1 named).2
      exact { inline with symbol := { inline.symbol with name := (solid.word word).2.inline } }
  split <;> exact { inline with }

omit inline solid in
theorem type_of_pending_inline {pending : Option String}
    (waiting : ∀ type ∈ pending, Text.Inline type) :
    ∀ type ∈ typeOfPending pending, Text.Inline type := by
  intro type kept
  obtain ⟨before, given, rfl⟩ := Option.map_eq_some_iff.1 (Option.mem_filter_iff.1 kept).1
  exact (waiting before given).of_subset (Text.drop_last_run_subset '&' before)

theorem extend_pending_get_inline : ((extendPending? reading token).getD reading).Inline := by
  cases found : extendPending? reading token with
  | none => exact inline
  | some extended => exact extend_pending_inline inline solid found

theorem type_token_inline : (typeToken reading token).Inline := by
  unfold typeToken
  split
  · exact inline
  split
  · next type waiting =>
      split
      · next reference =>
          have word := (solid.word (Bool.and_eq_true_iff.1 reference).2).2.inline
          have fits := (inline.pendingType type waiting).append word
          exact { inline with pendingType := forall_mem_some fits }
      · exact extend_pending_get_inline inline solid
  · exact extend_pending_get_inline inline solid

theorem list_token_inline : (listToken reading token).Inline := by
  unfold listToken
  dsimp only
  split
  · exact { inline with pendingType := nofun }
  · exact { inline with pendingType := nofun }
  · exact { inline with }
  · exact inline
  · refine { inline with pendingType := ?_ }
    intro type longer
    obtain ⟨before, given, rfl⟩ := Option.map_eq_some_iff.1 longer
    exact (inline.pendingType before given).append (by decide)
  · split
    · next named =>
        exact { inline with
          symbol := inline.symbol.push_param
            { name := (solid.word (is_word_of_is_name named)).2
              type := type_of_pending_inline inline.pendingType }
          pendingType := nofun }
    · exact type_token_inline inline solid
  · exact type_token_inline inline solid

theorem parameters_inline : (parameters reading token).Inline := by
  unfold parameters
  split
  · exact expected_value_get_inline inline (list_token_inline inline solid)
  · exact inline

theorem extend_variable_get_inline : ((extendVariable? reading token).getD reading).Inline := by
  cases found : extendVariable? reading token with
  | none => exact inline
  | some extended => exact extend_variable_inline inline solid found

theorem undeclared_inline : (undeclared reading token).Inline := by
  unfold undeclared
  split
  · exact inline
  split
  · exact { inline with }
  split
  · exact { inline with symbol := { inline.symbol with } }
  split
  · next named =>
      have fits := (solid.word (is_word_of_is_name named)).2.inline
      exact { inline with symbol := { inline.symbol with name := fits } }
  split
  · exact extend_variable_get_inline { inline with symbol := { inline.symbol with } } solid
  · exact inline

theorem constant_inline : (constant reading token).Inline := by
  unfold constant
  split
  · exact { inline with }
  split
  · next named => exact inline.named (solid.word (is_word_of_is_declared_name named)).2.inline
  · exact inline

theorem unnamed_inline : (unnamed reading token).Inline := by
  unfold unnamed
  split
  · next named => exact inline.named (solid.word (is_word_of_is_name named)).2.inline
  split
  · exact { inline with symbol := { inline.symbol with varType := nofun } }
  · exact extend_variable_get_inline inline solid

theorem declared_inline : (declared reading token).Inline := by
  unfold declared
  dsimp only
  split
  · next member => exact inline.named (solid.word (Bool.and_eq_true_iff.1 member).2).2.inline
  repeat' split
  all_goals exact { inline with }

theorem variable_rule_inline : (variableRule reading token).Inline := by
  unfold variableRule
  split
  · exact undeclared_inline inline solid
  · split
    · exact constant_inline inline solid
    split
    · exact unnamed_inline inline solid
    · exact declared_inline inline solid
  all_goals exact inline

end Sigil

namespace AtRule

omit inline solid in
theorem is_word_of_is_dollar_word (dollar : isDollarWord token = true) :
    token.kind.isWord = true := by
  simp only [isDollarWord, Bool.and_eq_true, beq_iff_eq] at dollar
  rw [dollar.1]
  rfl

omit inline solid in
theorem literal_type_spelled : ∀ type ∈ literalType? token, TypeText.Spelled type := by
  intro type literal
  have name : type ∈ ["Number", "Color", "String", "List", "Bool", "Null"] := by
    unfold literalType? at literal
    grind
  have spelled : ∀ name ∈ ["Number", "Color", "String", "List", "Bool", "Null"],
      name ≠ "" ∧ Text.Inline name := by decide
  exact ⟨(spelled type name).1, (spelled type name).2⟩

theorem function_inline : (function reading token).Inline := by
  unfold function
  dsimp only
  split
  · exact { inline with symbol := inline.symbol.to_function _ }
  split
  · exact inline
  split
  · split
    · next named =>
        have word := is_word_of_is_name (Bool.and_eq_true_iff.1 named).2
        exact { inline.named (solid.word word).2.inline with }
    · exact inline
  all_goals
    repeat' split
    all_goals exact { inline with }

theorem list_token_inline : (listToken reading token).Inline := by
  unfold listToken
  split
  · exact { inline with pendingType := nofun }
  · exact { inline with pendingType := nofun }
  · exact { inline with }
  · split
    · next dollar =>
        exact { inline with
          symbol := inline.symbol.push_param
            { name := (solid.word (is_word_of_is_dollar_word dollar)).2, type := nofun } }
    · exact inline

theorem parameters_inline : (parameters reading token).Inline := by
  unfold parameters
  split
  · exact expected_value_get_inline inline (list_token_inline inline solid)
  · exact inline

theorem variable_rule_inline : (variableRule reading token).Inline := by
  unfold variableRule
  split
  · split
    · exact { inline with }
    split
    · next dollar =>
        have fits := (solid.word (is_word_of_is_dollar_word dollar)).2.inline
        exact { inline with symbol := { inline.symbol with name := fits } }
    · exact { inline with }
  · split
    · exact { inline with symbol := { inline.symbol with varType := literal_type_spelled } }
    split <;> exact { inline with }
  all_goals exact inline

end AtRule

namespace Language

variable (language : Language)

omit inline solid in
theorem is_word_of_is_declared_name (declared : language.isDeclaredName token = true) :
    token.kind.isWord = true := by
  cases language with
  | php => exact Sigil.is_word_of_is_declared_name declared
  | _ => exact is_word_of_is_name declared

theorem class_rule_inline : (language.classRule reading token).Inline := by
  unfold classRule
  split
  · exact { inline with symbol := { inline.symbol with } }
  split
  · next named =>
      have word := is_word_of_is_declared_name language (Bool.and_eq_true_iff.1 named).2
      exact { inline.named (solid.word word).2.inline with }
  · exact inline

theorem function_rule_inline : (language.functionRule reading token).Inline := by
  cases language with
  | c | java => exact TypeFirst.function_inline inline solid
  | javascript => exact NameFirst.function_inline inline solid
  | php => exact Sigil.function_inline inline solid
  | scss => exact AtRule.function_inline inline solid

theorem parameter_rule_inline : (language.parameterRule reading token).Inline := by
  cases language with
  | c | java => exact TypeFirst.parameters_inline inline solid _ _
  | javascript => exact NameFirst.parameters_inline inline solid
  | php => exact Sigil.parameters_inline inline solid
  | scss => exact AtRule.parameters_inline inline solid

theorem variable_rule_inline : (language.variableRule reading token).Inline := by
  cases language with
  | c | java => exact TypeFirst.variable_rule_inline inline solid _ _
  | javascript => exact NameFirst.variable_rule_inline inline solid
  | php => exact Sigil.variable_rule_inline inline solid
  | scss => exact AtRule.variable_rule_inline inline solid

theorem step_inline : (language.step reading token).Inline := by
  have afterClass := class_rule_inline inline solid language
  have afterFunction := function_rule_inline afterClass solid language
  have afterParameters := parameter_rule_inline afterFunction solid language
  have afterVariable := variable_rule_inline afterParameters solid language
  exact { afterVariable with }

end Language

end

namespace Language

variable {language : Language}

theorem tokens_solid {line : String} {tokens : List Token}
    (scanned : language.tokens line = .ok tokens) : ∀ token ∈ tokens, token.Solid := by
  unfold Language.tokens Token.scanSignificant at scanned
  cases all : Token.scan (language.prepare line) with
  | error error => simp [all, Except.map] at scanned
  | ok found =>
      obtain rfl : Token.significant found = tokens := by simpa [all, Except.map] using scanned
      intro token member
      exact ((Token.munches_of_scan all).stands member).solid

theorem reading_after_inline {tokens : List Token} (solid : ∀ token ∈ tokens, token.Solid) :
    (language.readingAfter tokens).Inline := by
  have start : Reading.Inline {} := ⟨Symbol.inline_empty, nofun, nofun, nofun⟩
  have keeps : ∀ reading token, Token.Solid token → reading.Inline →
      (language.step reading token).Inline :=
    fun _ _ solid inline => step_inline inline solid language
  exact @reading_after_holds language Reading.Inline Token.Solid start keeps tokens solid

theorem finish_inline {reading : Reading} (inline : reading.Inline) :
    (language.finish reading).Inline := by
  cases language with
  | javascript => exact NameFirst.finish_inline inline
  | _ => exact inline

/-- Whatever a line holds, the texts of its symbol fit on a line. -/
theorem parse_inline {line : String} {symbol : Symbol}
    (parsed : language.parse line = .ok symbol) : symbol.Inline := by
  unfold parse at parsed
  cases scanned : language.tokens line with
  | error error => simp [scanned, Except.map] at parsed
  | ok tokens =>
      obtain rfl : language.recognize tokens = symbol := by
        simpa [scanned, Except.map] using parsed
      exact (finish_inline (reading_after_inline (tokens_solid scanned))).symbol

end Language

end DocComment
