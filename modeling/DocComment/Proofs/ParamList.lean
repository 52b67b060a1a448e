import DocComment.Proofs.KindStep

/-!
What one token does to the parameters and to the state of their list. Inside an open list it may add
a parameter, complete the last one or drop it; it may also close the list. Every other rule leaves
the parameters alone, except where a group was taken for a list. The main statement is that only the
last parameter can change, from any reading, reachable or not.
-/

namespace DocComment

namespace Symbol

inductive ParamsStep (before : List Param) : List Param → Prop where
  | same : ParamsStep before before
  | added (param : Param) : ParamsStep before (before ++ [param])
  | changed (nonempty : before ≠ []) (last : Param) : ParamsStep before (before.dropLast ++ [last])
  | dropped : ParamsStep before before.dropLast

namespace ParamsStep

theorem modify_last_param (symbol : Symbol) (change : Param → Param) :
    ParamsStep symbol.params (symbol.modifyLastParam change).params := by
  unfold modifyLastParam
  split
  · next last found =>
      have nonempty : symbol.params ≠ [] := by
        intro empty
        simp [empty] at found
      exact .changed nonempty (change last)
  · exact .same

/-- What was there before the last parameter is still there, in front. -/
theorem earlier_kept {before after : List Param} (step : ParamsStep before after) :
    before.dropLast <+: after := by
  cases step with
  | same => exact List.dropLast_prefix before
  | added param => exact (List.dropLast_prefix before).trans (List.prefix_append before [param])
  | changed _ last => exact List.prefix_append before.dropLast [last]
  | dropped => exact List.prefix_refl before.dropLast

theorem length_within_one {before after : List Param} (step : ParamsStep before after) :
    after.length ≤ before.length + 1 ∧ before.length ≤ after.length + 1 := by
  cases step with
  | same => omega
  | added param =>
      rw [List.length_append, List.length_singleton]
      omega
  | changed _ last =>
      rw [List.length_append, List.length_singleton, List.length_dropLast]
      omega
  | dropped =>
      rw [List.length_dropLast]
      omega

end ParamsStep

end Symbol

structure ListState where
  parameter : Bool
  listClosed : Bool
  parameterType : Bool
  returnType : Bool
  tentativeArrow : Bool
  nesting : Nat
  patternDepth : Nat
  pendingType : Option String

def Expectations.listState (expects : Expectations) : ListState :=
  { parameter := expects.parameter
    listClosed := expects.listClosed
    parameterType := expects.parameterType
    returnType := expects.returnType
    tentativeArrow := expects.tentativeArrow
    nesting := expects.nesting
    patternDepth := expects.patternDepth
    pendingType := expects.pendingType }

/-- What stands as long as a list stays open. -/
def Expectations.standing (expects : Expectations) : Bool × Bool × Bool × Bool :=
  (expects.parameter, expects.listClosed, expects.returnType, expects.tentativeArrow)

namespace Reading

open DocComment.Symbol

/-- What one token of an open list does to what is expected. A token that is no part of a value
finds no bracket of one open, and a list with patterns is closed outside of them. -/
inductive ListMove (language : Language) (before after : Expectations) : Prop where
  | valued (expected : before.value = true) (nesting : Nat) (same : after = { before with nesting })
  | inside (refused : before.value = true → before.nesting = 0)
      (standing : after.standing = before.standing)
      (nesting : after.nesting = before.nesting ∨ after.nesting = 0)
      (pattern : language ≠ .javascript → after.patternDepth = before.patternDepth)
  | closed (pattern : language = .javascript → before.patternDepth = 0)
      (same : after = before.closeList)

structure ListEffect (language : Language) (before after : Reading) : Prop where
  params : ParamsStep before.symbol.params after.symbol.params
  move : ListMove language before.expects after.expects

theorem ListEffect.within {language : Language} {before after : Reading}
    (refused : before.expects.value = true → before.expects.nesting = 0)
    (params : ParamsStep before.symbol.params after.symbol.params)
    (standing : after.expects.standing = before.expects.standing)
    (nesting : after.expects.nesting = before.expects.nesting)
    (pattern : after.expects.patternDepth = before.expects.patternDepth) :
    ListEffect language before after :=
  ⟨params, .inside refused standing (.inl nesting) fun _ => pattern⟩

/-- As `within`, where patterns may be opened and closed. -/
theorem ListEffect.around {before after : Reading}
    (refused : before.expects.value = true → before.expects.nesting = 0)
    (params : ParamsStep before.symbol.params after.symbol.params)
    (standing : after.expects.standing = before.expects.standing)
    (nesting : after.expects.nesting = before.expects.nesting) :
    ListEffect .javascript before after :=
  ⟨params, .inside refused standing (.inl nesting) fun other => absurd rfl other⟩

structure ListFrame (before after : Reading) : Prop where
  params : after.symbol.params = before.symbol.params
  list : after.expects.listState = before.expects.listState

/-- What the rule for functions does to the list: it stays, is opened, or lies behind. -/
inductive FunctionMove (language : Language) (before after : Reading) : Prop where
  | kept (frame : ListFrame before after) (kind : after.symbol.kind = before.symbol.kind)
      (value : after.expects.value = before.expects.value)
  | introduced (frame : ListFrame before after) (plain : before.symbol.kind ≠ .function)
      (kind : after.symbol.kind = .function)
  | opened (params : after.symbol.params = before.symbol.params)
      (unopened : before.expects.parameter = false ∧ before.expects.listClosed = false)
      (kind : after.symbol.kind = .function) (tentative : Bool)
      (list : after.expects.listState =
        { before.expects.listState with parameter := true, tentativeArrow := tentative })
  | returned (params : after.symbol.params = before.symbol.params)
      (closed : before.symbol.kind = .function ∧ before.expects.listClosed = true)
      (kind : after.symbol.kind = .function) (returns tentative : Bool)
      (list : after.expects.listState =
        { before.expects.listState with returnType := returns, tentativeArrow := tentative })
  | regrouped (javascript : language = .javascript) (params : after.symbol.params = [])
      (closed : before.symbol.kind = .function ∧ before.Undecided)
      (kind : after.symbol.kind = .var)
      (list : after.expects.listState =
        { before.expects.listState with returnType := false, tentativeArrow := false })

end Reading

namespace Language

open Reading DocComment.Symbol

theorem nesting_after_none {nesting : Nat} {kind : Token.Kind}
    (refused : DefaultValue.nestingAfter? nesting kind = none) : nesting = 0 := by
  by_cases closed : nesting = 0
  · exact closed
  · cases kind <;> simp [DefaultValue.nestingAfter?, closed] at refused

theorem value_refused {reading : Reading} {token : Token}
    (refused : DefaultValue.expected? reading token = none)
    (expected : reading.expects.value = true) : reading.expects.nesting = 0 := by
  rw [DefaultValue.expected?, if_pos expected, DefaultValue.collect?, Option.map_eq_none_iff]
    at refused
  exact nesting_after_none refused

theorem expected_value_effect (language : Language) {reading taken : Reading} {token : Token}
    (found : DefaultValue.expected? reading token = some taken) :
    ListEffect language reading taken := by
  simp only [DefaultValue.expected?, DefaultValue.collect?] at found
  split at found
  · next expected =>
      obtain ⟨nesting, _, rfl⟩ := Option.map_eq_some_iff.1 found
      exact ⟨ParamsStep.modify_last_param _ _, .valued expected nesting rfl⟩
  · contradiction

section

variable {language : Language} {reading : Reading} {token : Token}
  (refused : reading.expects.value = true → reading.expects.nesting = 0)
include refused

theorem extend_pending_effect {extended : Reading}
    (found : TypeText.extendPending? reading token = some extended) :
    ListEffect language reading extended := by
  obtain ⟨extension, _, rfl⟩ := Option.map_eq_some_iff.1 found
  exact .within refused .same rfl rfl rfl

theorem extend_pending_or_effect :
    ListEffect language reading ((TypeText.extendPending? reading token).getD reading) := by
  cases found : TypeText.extendPending? reading token with
  | none => exact .within refused .same rfl rfl rfl
  | some extended => exact extend_pending_effect refused found

theorem extend_last_param_effect {extended : Reading}
    (found : TypeText.extendLastParam? reading token = some extended) :
    ListEffect language reading extended := by
  obtain ⟨last, _, composed⟩ := Option.bind_eq_some_iff.1 found
  obtain ⟨extension, _, rfl⟩ := Option.map_eq_some_iff.1 composed
  exact .within refused (.modify_last_param _ _) rfl rfl rfl

end

theorem settle_pending_cases (reading : Reading) :
    ∃ params, ParamsStep reading.symbol.params params ∧ TypeFirst.settlePending reading =
      ⟨{ reading.symbol with params }, { reading.expects with pendingType := none }⟩ := by
  unfold TypeFirst.settlePending
  split
  · next untyped => exact ⟨_, .same, by simp [← untyped]⟩
  · next type _ =>
      dsimp only
      split
      · exact ⟨_, .same, rfl⟩
      · exact ⟨_, .added { type := some type }, rfl⟩

section

variable {language : Language} {reading : Reading} (token : Token)
  (refused : reading.expects.value = true → reading.expects.nesting = 0)
include refused

theorem parameter_word_effect (grammar : Grammar) :
    ListEffect language reading (TypeFirst.parameterWord grammar reading token) := by
  unfold TypeFirst.parameterWord
  split
  · exact .within refused .same rfl rfl rfl
  split
  · split
    · next extended found => exact extend_pending_effect refused found
    split
    · exact .within refused .same rfl rfl rfl
    split
    · exact .within refused (.added _) rfl rfl rfl
    · exact .within refused .same rfl rfl rfl
  · split
    · exact .within refused .same rfl rfl rfl
    · exact .within refused .same rfl rfl rfl

theorem type_first_list_token_effect (other : language ≠ .javascript) (grammar : Grammar)
    (rules : TypeFirst.Rules) :
    ListEffect language reading (TypeFirst.listToken grammar rules reading token) := by
  have word : ListEffect language reading (TypeFirst.parameterWord grammar reading token) :=
    parameter_word_effect token refused grammar
  obtain ⟨params, step, settled⟩ := settle_pending_cases reading
  unfold TypeFirst.listToken
  rw [settled]
  split
  · exact .within refused .same rfl rfl rfl
  · exact ⟨step, .closed (fun javascript => absurd javascript other) rfl⟩
  · split
    · exact ⟨step, .inside refused rfl (.inr rfl) fun _ => rfl⟩
    · exact word
  · exact .within refused step rfl rfl rfl
  · split
    · exact .within refused .same rfl rfl rfl
    · exact word
  · split
    · exact .within refused .same rfl rfl rfl
    · exact word
  · split
    · exact .within refused (.modify_last_param _ _) rfl rfl rfl
    · exact word
  · exact word

theorem sigil_type_token_effect :
    ListEffect language reading (Sigil.typeToken reading token) := by
  unfold Sigil.typeToken
  split
  · exact .within refused .same rfl rfl rfl
  split
  · split
    · exact .within refused .same rfl rfl rfl
    · exact extend_pending_or_effect refused
  · exact extend_pending_or_effect refused

theorem sigil_list_token_effect (other : language ≠ .javascript) :
    ListEffect language reading (Sigil.listToken reading token) := by
  unfold Sigil.listToken
  dsimp only
  split
  · exact ⟨.same, .closed (fun javascript => absurd javascript other) rfl⟩
  · exact ⟨.same, .inside refused rfl (.inr rfl) fun _ => rfl⟩
  · exact .within refused .same rfl rfl rfl
  · exact .within refused .same rfl rfl rfl
  · exact .within refused .same rfl rfl rfl
  · split
    · exact .within refused (.added _) rfl rfl rfl
    · exact sigil_type_token_effect token refused
  · exact sigil_type_token_effect token refused

theorem at_rule_list_token_effect (other : language ≠ .javascript) :
    ListEffect language reading (AtRule.listToken reading token) := by
  unfold AtRule.listToken
  split
  · exact ⟨.same, .closed (fun javascript => absurd javascript other) rfl⟩
  · exact ⟨.same, .inside refused rfl (.inr rfl) fun _ => rfl⟩
  · exact .within refused .same rfl rfl rfl
  · split
    · exact .within refused (.added _) rfl rfl rfl
    · exact .within refused .same rfl rfl rfl

theorem name_first_pattern_effect : ListEffect .javascript reading
    (NameFirst.pattern { reading with expects.parameterType := false } token) := by
  unfold NameFirst.pattern
  dsimp only
  split
  · split
    · exact .around refused .dropped rfl rfl
    · exact .around refused .same rfl rfl
  · split
    · exact .around refused .dropped rfl rfl
    · exact .around refused .same rfl rfl
  · exact .around refused .same rfl rfl
  · exact .around refused .same rfl rfl
  · exact .around refused .same rfl rfl
  · exact .around refused .same rfl rfl
  · split
    · dsimp only [Reading.mapSymbol]
      split
      · exact .around refused (.modify_last_param _ _) rfl rfl
      · exact .around refused (.added _) rfl rfl
    · exact .around refused .same rfl rfl
  · exact .around refused .same rfl rfl

theorem name_first_list_token_effect (unpatterned : reading.expects.patternDepth = 0) :
    ListEffect .javascript reading
      (NameFirst.listToken { reading with expects.parameterType := false } token) := by
  unfold NameFirst.listToken
  dsimp only
  split
  · exact .around refused .same rfl rfl
  · exact .around refused .same rfl rfl
  · exact ⟨.same, .closed (fun _ => unpatterned) rfl⟩
  · exact ⟨.same, .inside refused rfl (.inr rfl) fun _ => rfl⟩
  · exact .around refused .same rfl rfl
  · exact .around refused .same rfl rfl
  · split
    · exact .around refused (.added _) rfl rfl
    · exact .around refused .same rfl rfl
  · exact .around refused .same rfl rfl

end

theorem name_first_parameters_effect {reading : Reading} (token : Token)
    (inList : reading.expects.inList = true) :
    ListEffect .javascript reading (NameFirst.parameters reading token) := by
  simp only [NameFirst.parameters, inList, Bool.not_true, Bool.false_eq_true, if_false]
  split
  · next taken found =>
      rcases Option.or_eq_some_iff.1 found with value | ⟨refused, type⟩
      · exact expected_value_effect .javascript value
      · simp only [NameFirst.parameterType?] at type
        split at type
        · contradiction
        split at type
        · exact extend_pending_effect (value_refused refused) type
        · exact extend_last_param_effect (value_refused refused) type
  · next untaken =>
      have refused := value_refused (Option.or_eq_none_iff.1 untaken).1
      split
      · exact name_first_pattern_effect token refused
      · next unpatterned =>
          exact name_first_list_token_effect token refused (Nat.eq_zero_of_not_pos unpatterned)

theorem parameter_rule_effect (language : Language) {reading : Reading} (token : Token)
    (inList : reading.expects.inList = true) :
    ListEffect language reading (language.parameterRule reading token) := by
  have valued : ∀ {otherwise : Reading},
      ((reading.expects.value = true → reading.expects.nesting = 0) →
        ListEffect language reading otherwise) →
      ListEffect language reading ((DefaultValue.expected? reading token).getD otherwise) := by
    intro otherwise effect
    cases found : DefaultValue.expected? reading token with
    | none => exact effect (value_refused found)
    | some taken => exact expected_value_effect language found
  cases language with
  | c | java =>
      simp only [parameterRule, TypeFirst.parameters, inList, if_true]
      exact valued fun refused => type_first_list_token_effect token refused (by decide) _ _
  | javascript => exact name_first_parameters_effect token inList
  | php =>
      simp only [parameterRule, Sigil.parameters, inList, if_true]
      exact valued fun refused => sigil_list_token_effect token refused (by decide)
  | scss =>
      simp only [parameterRule, AtRule.parameters, inList, if_true]
      exact valued fun refused => at_rule_list_token_effect token refused (by decide)

section

variable {language : Language} (reading : Reading) (token : Token)

theorem type_first_after_list_move (closed : reading.symbol.kind = .function ∧
    reading.expects.listClosed = true) :
    FunctionMove language reading (TypeFirst.afterList reading token) := by
  unfold TypeFirst.afterList
  split
  · next extended found =>
      split at found
      · obtain ⟨returns, depth, rfl⟩ := extend_return_frame found
        exact .returned rfl closed closed.1 _ _ rfl
      · contradiction
  · dsimp only
    split
    all_goals exact .returned rfl closed closed.1 _ _ rfl

theorem type_first_function_move :
    FunctionMove language reading (TypeFirst.function reading token) := by
  unfold TypeFirst.function
  split
  · next closed =>
      rw [Bool.and_eq_true, beq_iff_eq] at closed
      exact type_first_after_list_move reading token closed
  split
  · next opens =>
      simp only [TypeFirst.opensList, Bool.and_eq_true, beq_iff_eq, Bool.not_eq_true'] at opens
      have unopened := And.intro opens.1.1.2 opens.1.2
      unfold TypeFirst.openList
      dsimp only
      split
      · split
        · exact .kept ⟨rfl, rfl⟩ rfl rfl
        · exact .opened rfl unopened rfl _ rfl
      · exact .opened rfl unopened rfl _ rfl
  · exact .kept ⟨rfl, rfl⟩ rfl rfl

theorem name_first_after_list_move (closed : reading.symbol.kind = .function ∧
    reading.expects.listClosed = true) :
    FunctionMove .javascript reading (NameFirst.afterList reading token) := by
  unfold NameFirst.afterList
  split
  · next extended found =>
      split at found
      · obtain ⟨returns, depth, rfl⟩ := extend_return_frame found
        exact .returned rfl closed closed.1 _ _ rfl
      · contradiction
  · dsimp only
    split
    · exact .returned rfl closed closed.1 _ _ rfl
    split
    · exact .returned rfl closed closed.1 _ _ rfl
    split
    · next tentative => exact .regrouped rfl rfl ⟨closed.1, tentative, closed.2⟩ rfl rfl
    split
    · exact .returned rfl closed closed.1 _ _ rfl
    · exact .returned rfl closed closed.1 _ _ rfl

theorem name_first_open_list_move (opens : NameFirst.opensList reading = true) :
    FunctionMove .javascript reading (NameFirst.openList reading) := by
  have unopened : reading.expects.parameter = false ∧ reading.expects.listClosed = false := by
    unfold NameFirst.opensList at opens
    dsimp only at opens
    split at opens
    · contradiction
    · next shut =>
        simp only [Bool.or_eq_true, not_or, Bool.not_eq_true] at shut
        exact shut.1
  unfold NameFirst.openList
  dsimp only
  split
  · next kind => exact .opened rfl unopened kind _ rfl
  all_goals exact .opened rfl unopened rfl _ rfl

theorem name_first_function_move :
    FunctionMove .javascript reading (NameFirst.function reading token) := by
  unfold NameFirst.function
  dsimp only
  split
  · next closed => exact name_first_after_list_move reading token closed
  split
  · next introduces =>
      rw [Bool.and_eq_true] at introduces
      exact .introduced ⟨rfl, rfl⟩ (not_function_of_introduced introduces.2) rfl
  split
  · exact .kept ⟨rfl, rfl⟩ rfl rfl
  split
  · next opens =>
      rw [Bool.and_eq_true] at opens
      exact name_first_open_list_move reading opens.2
  · exact .kept ⟨rfl, rfl⟩ rfl rfl

theorem sigil_after_list_move (closed : reading.symbol.kind = .function ∧
    reading.expects.listClosed = true) :
    FunctionMove language reading (Sigil.afterList reading token) := by
  unfold Sigil.afterList
  split
  · next extended found =>
      split at found
      · obtain ⟨returns, depth, rfl⟩ := extend_return_frame found
        exact .returned rfl closed closed.1 _ _ rfl
      · contradiction
  · dsimp only
    split
    · split
      all_goals exact .returned rfl closed closed.1 _ _ rfl
    all_goals exact .returned rfl closed closed.1 _ _ rfl

theorem sigil_function_move : FunctionMove language reading (Sigil.function reading token) := by
  unfold Sigil.function
  dsimp only
  split
  · next closed => exact sigil_after_list_move reading token closed
  next unclosed =>
  split
  · next introduces =>
      rw [Bool.and_eq_true] at introduces
      exact .introduced ⟨rfl, rfl⟩ (not_function_of_introduced introduces.2) rfl
  split
  · exact .kept ⟨rfl, rfl⟩ rfl rfl
  next function =>
  have kind : reading.symbol.kind = .function := by simpa using function
  split
  · exact .kept ⟨rfl, rfl⟩ rfl rfl
  split
  · next opens =>
      simp only [Bool.and_eq_true, Bool.not_eq_true'] at opens
      have open' : reading.expects.listClosed = false := by simpa [kind] using unclosed
      exact .opened rfl ⟨opens.2, open'⟩ kind _ rfl
  · exact .kept ⟨rfl, rfl⟩ rfl rfl

theorem at_rule_function_move : FunctionMove language reading (AtRule.function reading token) := by
  unfold AtRule.function
  dsimp only
  split
  · next introduces =>
      simp only [Bool.and_eq_true, beq_iff_eq] at introduces
      exact .introduced ⟨rfl, rfl⟩ (by simp [introduces.1]) rfl
  split
  · exact .kept ⟨rfl, rfl⟩ rfl rfl
  next function =>
  have kind : reading.symbol.kind = .function := by simpa using function
  split
  · split
    all_goals exact .kept ⟨rfl, rfl⟩ rfl rfl
  · split
    · next opens =>
        simp only [Bool.and_eq_true, Bool.not_eq_true'] at opens
        exact .opened rfl opens kind _ rfl
    · exact .kept ⟨rfl, rfl⟩ rfl rfl
  · split
    all_goals exact .kept ⟨rfl, rfl⟩ rfl rfl
  · split
    all_goals exact .kept ⟨rfl, rfl⟩ rfl rfl
  · exact .kept ⟨rfl, rfl⟩ rfl rfl

theorem function_rule_move (language : Language) :
    FunctionMove language reading (language.functionRule reading token) := by
  cases language with
  | c | java => exact type_first_function_move reading token
  | javascript => exact name_first_function_move reading token
  | php => exact sigil_function_move reading token
  | scss => exact at_rule_function_move reading token

theorem class_rule_frame (language : Language) :
    ListFrame reading (language.classRule reading token) := by
  unfold classRule
  split
  · exact ⟨rfl, rfl⟩
  split <;> exact ⟨rfl, rfl⟩

theorem extend_variable_or_frame :
    ListFrame reading ((TypeText.extendVariable? reading token).getD reading) := by
  cases found : TypeText.extendVariable? reading token with
  | none => exact ⟨rfl, rfl⟩
  | some extended =>
      obtain ⟨type, depth, rfl⟩ := extend_variable_frame found
      exact ⟨rfl, rfl⟩

theorem type_first_undeclared_frame (grammar : Grammar) :
    ListFrame reading (TypeFirst.undeclared grammar reading token) := by
  unfold TypeFirst.undeclared
  dsimp only
  repeat' split
  all_goals exact ⟨rfl, rfl⟩

theorem type_first_unnamed_frame (grammar : Grammar) (rules : TypeFirst.Rules) :
    ListFrame reading (TypeFirst.unnamed grammar rules reading token) := by
  unfold TypeFirst.unnamed
  split
  · exact ⟨rfl, rfl⟩
  split
  · exact ⟨rfl, rfl⟩
  split
  · next extended found =>
      obtain ⟨type, depth, rfl⟩ := extend_variable_frame found
      exact ⟨rfl, rfl⟩
  repeat' split
  all_goals exact ⟨rfl, rfl⟩

theorem type_first_declared_frame (grammar : Grammar) (rules : TypeFirst.Rules) :
    ListFrame reading (TypeFirst.declared grammar rules reading token) := by
  unfold TypeFirst.declared
  dsimp only
  repeat' split
  all_goals exact ⟨rfl, rfl⟩

theorem name_first_undeclared_frame : ListFrame reading (NameFirst.undeclared reading token) := by
  unfold NameFirst.undeclared
  dsimp only
  repeat' split
  all_goals exact ⟨rfl, rfl⟩

theorem name_first_declared_frame : ListFrame reading (NameFirst.declared reading token) := by
  unfold NameFirst.declared
  split
  · next extended found =>
      split at found
      · obtain ⟨type, depth, rfl⟩ := extend_variable_frame found
        exact ⟨rfl, rfl⟩
      · contradiction
  · dsimp only
    repeat' split
    all_goals exact ⟨rfl, rfl⟩

theorem sigil_undeclared_frame : ListFrame reading (Sigil.undeclared reading token) := by
  unfold Sigil.undeclared
  split
  · exact ⟨rfl, rfl⟩
  split
  · exact ⟨rfl, rfl⟩
  split
  · exact ⟨rfl, rfl⟩
  split
  · exact ⟨rfl, rfl⟩
  split
  · have typed := extend_variable_or_frame { reading with symbol.kind := .var } token
    exact ⟨typed.params, typed.list⟩
  · exact ⟨rfl, rfl⟩

theorem sigil_unnamed_frame : ListFrame reading (Sigil.unnamed reading token) := by
  unfold Sigil.unnamed
  split
  · exact ⟨rfl, rfl⟩
  split
  · exact ⟨rfl, rfl⟩
  · exact extend_variable_or_frame reading token

theorem variable_rule_frame (language : Language) :
    ListFrame reading (language.variableRule reading token) := by
  cases language with
  | c | java =>
      simp only [variableRule, TypeFirst.variableRule]
      split
      · exact type_first_undeclared_frame reading token _
      · split
        · exact type_first_unnamed_frame reading token _ _
        · exact type_first_declared_frame reading token _ _
      all_goals exact ⟨rfl, rfl⟩
  | javascript =>
      simp only [variableRule, NameFirst.variableRule]
      split
      · exact name_first_undeclared_frame reading token
      · split
        · split <;> exact ⟨rfl, rfl⟩
        · exact name_first_declared_frame reading token
      all_goals exact ⟨rfl, rfl⟩
  | php =>
      simp only [variableRule, Sigil.variableRule]
      split
      · exact sigil_undeclared_frame reading token
      · split
        · unfold Sigil.constant
          repeat' split
          all_goals exact ⟨rfl, rfl⟩
        split
        · exact sigil_unnamed_frame reading token
        · unfold Sigil.declared
          dsimp only
          repeat' split
          all_goals exact ⟨rfl, rfl⟩
      all_goals exact ⟨rfl, rfl⟩
  | scss =>
      simp only [variableRule, AtRule.variableRule]
      repeat' split
      all_goals exact ⟨rfl, rfl⟩

theorem class_rule_eq_of_not_class (language : Language)
    (plain : (language.classRule reading token).symbol.kind ≠ .classLike) :
    language.classRule reading token = reading := by
  unfold classRule at plain ⊢
  split at plain
  · exact absurd rfl plain
  next undeclared =>
  rw [if_neg undeclared]
  split at plain
  · next named =>
      simp only [Bool.and_eq_true, beq_iff_eq] at named
      exact absurd named.1.1 plain
  · next unnamed => rw [if_neg unnamed]

theorem name_first_variable_rule_var (kind : reading.symbol.kind = .var) :
    (NameFirst.variableRule reading token).symbol.kind = .var := by
  simp only [NameFirst.variableRule, kind]
  split
  · split <;> exact kind
  · exact (name_first_declared_kind reading token).trans kind

/-- Only the rules for functions and for parameters have a hand in the parameters. -/
theorem step_params (language : Language) :
    ParamsStep reading.symbol.params (language.step reading token).symbol.params ∨
      (language = .javascript ∧ reading.symbol.kind = .function ∧ reading.Undecided ∧
        (language.step reading token).symbol.kind = .var ∧
        (language.step reading token).symbol.params = []) := by
  let classed := language.classRule reading token
  let ruled := language.functionRule classed token
  let listed := language.parameterRule ruled token
  have classedParams : classed.symbol.params = reading.symbol.params :=
    (class_rule_frame reading token language).params
  have lastParams : (language.step reading token).symbol.params = listed.symbol.params :=
    (variable_rule_frame listed token language).params
  have inList : ParamsStep ruled.symbol.params listed.symbol.params := by
    cases list : ruled.expects.inList with
    | true => exact (language.parameter_rule_effect token list).params
    | false =>
        have outside : listed = ruled := language.parameter_rule_outside token list
        rw [outside]
        exact .same
  have stays : ruled.symbol.params = classed.symbol.params →
      ParamsStep reading.symbol.params (language.step reading token).symbol.params := by
    intro params
    rw [lastParams, ← classedParams, ← params]
    exact inList
  cases function_rule_move classed token language with
  | kept frame => exact .inl (stays frame.params)
  | introduced frame => exact .inl (stays frame.params)
  | opened params => exact .inl (stays params)
  | returned params => exact .inl (stays params)
  | regrouped javascript params closed kind list =>
      have unclassed : classed = reading := by
        apply class_rule_eq_of_not_class
        rw [show (language.classRule reading token).symbol.kind = .function from closed.1]
        decide
      have shut : ruled.expects.listClosed = true :=
        (congrArg ListState.listClosed list).trans closed.2.2
      have outside : listed = ruled :=
        language.parameter_rule_outside token (by simp [Expectations.inList, shut])
      rw [unclassed] at closed
      refine .inr ⟨javascript, closed.1, closed.2, ?_, ?_⟩
      · subst javascript
        exact name_first_variable_rule_var listed token ((congrArg (·.symbol.kind) outside).trans kind)
      · rw [lastParams, outside, params]

/-- From any reading one token leaves all parameters but the last as they are and adds or takes away
one at most, unless it tells that the list was a group and nothing is left of it. -/
theorem step_keeps_earlier_params (language : Language) (reading : Reading) (token : Token) :
    (reading.symbol.params.dropLast <+: (language.step reading token).symbol.params ∧
      (language.step reading token).symbol.params.length ≤ reading.symbol.params.length + 1 ∧
      reading.symbol.params.length ≤ (language.step reading token).symbol.params.length + 1) ∨
    (language = .javascript ∧ reading.symbol.kind = .function ∧
      reading.expects.listClosed = true ∧ reading.expects.tentativeArrow = true ∧
      (language.step reading token).symbol.kind = .var ∧
      (language.step reading token).symbol.params = []) := by
  rcases step_params reading token language with step | ⟨javascript, function, undecided, cleared⟩
  · exact .inl ⟨step.earlier_kept, step.length_within_one⟩
  · exact .inr ⟨javascript, function, undecided.2, undecided.1, cleared⟩

end

end Language

end DocComment
