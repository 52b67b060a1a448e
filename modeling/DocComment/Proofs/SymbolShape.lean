import DocComment.Proofs.Phases

/-!
The shape that every symbol keeps. Only a function has parameters and a return, only a variable has
a type of its own, and a function with a return type returns something unless the type is `void`.
A line passes through two stages, before its list and from its list on, and a rule can be held to
the shape by what its stage says about the flags.
-/

namespace DocComment

namespace Symbol

structure Shaped (symbol : Symbol) : Prop where
  plain : symbol.kind ≠ .function → symbol.params = [] ∧ symbol.returns = {}
  untyped : symbol.kind ≠ .var → symbol.varType = none
  present : ∀ type ∈ symbol.returns.type, (symbol.returns.present = true ↔ type ≠ "void")

theorem shaped_empty : Shaped {} := by
  constructor <;> simp

/-- A variable has no list and no return, whatever its type. -/
theorem shaped_to_variable (symbol : Symbol) (type : Option String) :
    (symbol.toVariable type).Shaped := by
  constructor <;> simp [toVariable]

theorem shaped_with_return (symbol : Symbol) (kind : symbol.kind = .function)
    (untyped : symbol.varType = none) (type : String) :
    Shaped { symbol with returns := { present := type != "void", type := some type } } := by
  constructor
  · intro other
    exact absurd kind other
  · intro _
    exact untyped
  · simp

namespace Shaped

variable {symbol : Symbol} (shaped : symbol.Shaped)
include shaped

theorem return_untyped (kind : symbol.kind ≠ .function) : symbol.returns.type = none := by
  rw [(shaped.plain kind).2]

theorem rename (name : String) : Shaped { symbol with name } :=
  ⟨shaped.plain, shaped.untyped, shaped.present⟩

/-- What is declared first has nothing else yet. -/
theorem declare (unset : symbol.kind = .unset) (kind : Kind) : Shaped { symbol with kind } := by
  have plain : symbol.kind ≠ .function := by simp [unset]
  refine ⟨fun _ => shaped.plain plain, fun _ => shaped.untyped (by simp [unset]), ?_⟩
  simp [shaped.return_untyped plain]

theorem retype (kind : symbol.kind = .var) (type : Option String) :
    Shaped { symbol with varType := type } := by
  refine ⟨shaped.plain, ?_, shaped.present⟩
  intro other
  exact absurd kind other

theorem to_function (kind : symbol.kind ≠ .function) (returns : Bool) :
    (symbol.toFunction returns).Shaped := by
  constructor
  · simp [toFunction]
  · simp [toFunction]
  · simp [toFunction, shaped.return_untyped kind]

theorem same_but_params {after : Symbol} (kind : symbol.kind = .function)
    (same : SameButParams symbol after) : after.Shaped := by
  constructor
  · intro other
    rw [same.kind] at other
    exact absurd kind other
  · rw [same.kind, same.varType]
    exact shaped.untyped
  · rw [same.returns]
    exact shaped.present

end Shaped

end Symbol

namespace Reading

/-- No list has been opened, and what still waits for a name has no return type. -/
structure Unlisted (reading : Reading) : Prop where
  parameter : reading.expects.parameter = false
  closed : reading.expects.listClosed = false
  unreturned : reading.expects.name = true → reading.symbol.returns.type = none

structure Listed (reading : Reading) : Prop where
  kind : reading.symbol.kind = .function
  named : reading.expects.name = false

structure Live (reading : Reading) : Prop where
  shaped : reading.symbol.Shaped
  stage : reading.Unlisted ∨ reading.Listed

structure Over (reading : Reading) : Prop where
  shaped : reading.symbol.Shaped
  done : reading.expects.done = true
  outside : reading.expects.inList = false

namespace Live

variable {reading : Reading} (live : reading.Live)
include live

theorem unlisted (kind : reading.symbol.kind ≠ .function) : reading.Unlisted := by
  rcases live.stage with unlisted | listed
  · exact unlisted
  · exact absurd listed.kind kind

theorem listed_of_closed (closed : reading.expects.listClosed = true) : reading.Listed := by
  rcases live.stage with unlisted | listed
  · rw [unlisted.closed] at closed
    contradiction
  · exact listed

theorem listed_of_in_list (inList : reading.expects.inList = true) : reading.Listed := by
  rcases live.stage with unlisted | listed
  · simp [Expectations.inList, unlisted.parameter] at inList
  · exact listed

/-- A word for a function introduces one that has nothing else yet. -/
theorem introduce (kind : reading.symbol.kind ≠ .function) (returns : Bool)
    {expects : Expectations} (parameter : expects.parameter = reading.expects.parameter)
    (closed : expects.listClosed = reading.expects.listClosed) :
    Live ⟨reading.symbol.toFunction returns, expects⟩ := by
  have unlisted := live.unlisted kind
  refine ⟨live.shaped.to_function kind returns, .inl ⟨?_, ?_, ?_⟩⟩
  · exact parameter.trans unlisted.parameter
  · exact closed.trans unlisted.closed
  · intro _
    exact live.shaped.return_untyped kind

end Live

end Reading

namespace Language

open Token Reading

theorem class_rule_live (language : Language) {reading : Reading} (token : Token)
    (live : reading.Live) : (language.classRule reading token).Live := by
  unfold classRule
  split
  · next declares =>
      simp only [Bool.and_eq_true, beq_iff_eq] at declares
      have kind : reading.symbol.kind = .unset := declares.1
      have plain : reading.symbol.kind ≠ .function := by simp [kind]
      have unlisted := live.unlisted plain
      refine ⟨live.shaped.declare kind .classLike, .inl ⟨unlisted.parameter, unlisted.closed, ?_⟩⟩
      intro _
      exact live.shaped.return_untyped plain
  · split
    · next names =>
        simp only [Bool.and_eq_true, beq_iff_eq] at names
        have plain : reading.symbol.kind ≠ .function := by simp [names.1.1]
        have unlisted := live.unlisted plain
        refine ⟨live.shaped.rename token.text, .inl ⟨unlisted.parameter, unlisted.closed, ?_⟩⟩
        intro _
        exact live.shaped.return_untyped plain
    · exact live

theorem parameter_rule_live (language : Language) {reading : Reading} (token : Token)
    (live : reading.Live) : (language.parameterRule reading token).Live := by
  by_cases inList : reading.expects.inList = true
  · have listed := live.listed_of_in_list inList
    have same := language.parameter_rule_same reading token
    refine ⟨live.shaped.same_but_params listed.kind same.symbol, .inr ⟨?_, ?_⟩⟩
    · rw [same.symbol.kind, listed.kind]
    · rw [same.name, listed.named]
  · rw [language.parameter_rule_outside token (by simpa using inList)]
    exact live

theorem extend_return_live {reading extended : Reading} {token : Token} (live : reading.Live)
    (listed : reading.Listed) (found : TypeText.extendReturn? reading token = some extended) :
    extended.Live := by
  simp only [TypeText.extendReturn?, Option.map_eq_some_iff] at found
  obtain ⟨⟨type, depth⟩, _, rfl⟩ := found
  have untyped : reading.symbol.varType = none := live.shaped.untyped (by simp [listed.kind])
  exact ⟨Symbol.shaped_with_return reading.symbol listed.kind untyped type,
    .inr ⟨listed.kind, listed.named⟩⟩

theorem type_first_after_list_live {reading : Reading} (token : Token) (live : reading.Live)
    (listed : reading.Listed) : (TypeFirst.afterList reading token).Live := by
  unfold TypeFirst.afterList
  split
  · next extended found =>
      split at found
      · exact extend_return_live live listed found
      · contradiction
  · dsimp only
    split
    · refine ⟨⟨?_, ?_, ?_⟩, .inr ⟨listed.kind, listed.named⟩⟩
      · intro other
        exact absurd listed.kind other
      · exact live.shaped.untyped
      · simp
    all_goals exact ⟨live.shaped, .inr ⟨listed.kind, listed.named⟩⟩

theorem type_first_open_list_live {reading : Reading} (live : reading.Live)
    (kind : reading.symbol.kind = .var) : (TypeFirst.openList reading).Live := by
  have plain : reading.symbol.kind ≠ .function := by simp [kind]
  unfold TypeFirst.openList
  dsimp only
  split
  · split
    · exact live
    · -- A lone type becomes the name of a constructor.
      next type _ =>
        exact ⟨(live.shaped.rename (Text.afterLastColons type)).to_function plain false,
          .inr ⟨rfl, rfl⟩⟩
  · refine ⟨⟨?_, ?_, ?_⟩, .inr ⟨rfl, rfl⟩⟩
    · simp [Symbol.toFunction]
    · simp [Symbol.toFunction]
    · cases reading.symbol.varType <;> simp [Symbol.toFunction]

theorem type_first_function_live {reading : Reading} (token : Token) (live : reading.Live) :
    (TypeFirst.function reading token).Live := by
  unfold TypeFirst.function
  split
  · next closed =>
      rw [Bool.and_eq_true] at closed
      exact type_first_after_list_live token live (live.listed_of_closed closed.2)
  · split
    · next opens =>
        simp only [TypeFirst.opensList, Bool.and_eq_true, beq_iff_eq] at opens
        exact type_first_open_list_live live opens.1.1.1.2
    · exact live

theorem name_first_after_list_live {reading : Reading} (token : Token) (live : reading.Live)
    (closed : reading.expects.listClosed = true) :
    (NameFirst.afterList reading token).Live ∨ (NameFirst.afterList reading token).Over := by
  have listed := live.listed_of_closed closed
  have same : ∀ expects, expects.name = false → Live ⟨reading.symbol, expects⟩ :=
    fun _ named => ⟨live.shaped, .inr ⟨listed.kind, named⟩⟩
  unfold NameFirst.afterList
  split
  · next extended found =>
      split at found
      · exact .inl (extend_return_live live listed found)
      · contradiction
  · dsimp only
    split
    · exact .inl (same _ listed.named)
    split
    · exact .inl (same _ listed.named)
    split
    · -- No arrow came. The symbol is a variable again although its list was closed.
      refine .inr ⟨Symbol.shaped_to_variable _ _, rfl, ?_⟩
      simp [Reading.finished, NameFirst.abandonArrow, Expectations.inList, closed]
    split
    · exact .inl (same _ listed.named)
    · exact .inl (same _ listed.named)

theorem name_first_open_list_live {reading : Reading} (live : reading.Live) :
    (NameFirst.openList reading).Live := by
  unfold NameFirst.openList
  dsimp only
  split
  · next kind => exact ⟨live.shaped, .inr ⟨kind, rfl⟩⟩
  · next kind => exact ⟨live.shaped.to_function (by simp [kind]) true, .inr ⟨rfl, rfl⟩⟩
  · next kind =>
      exact ⟨(live.shaped.rename _).to_function (by simp [kind]) _, .inr ⟨rfl, rfl⟩⟩
  · next kind =>
      exact ⟨(live.shaped.rename _).to_function (by simp [kind]) _, .inr ⟨rfl, rfl⟩⟩

theorem not_function_of_introduced {kind : Symbol.Kind}
    (introduced : (kind == .unset || kind == .var) = true) : kind ≠ .function := by
  intro function
  rw [function] at introduced
  exact absurd introduced (by decide)

theorem name_first_function_live {reading : Reading} (token : Token) (live : reading.Live) :
    (NameFirst.function reading token).Live ∨ (NameFirst.function reading token).Over := by
  unfold NameFirst.function
  dsimp only
  split
  · next closed => exact name_first_after_list_live token live closed.2
  refine .inl ?_
  split
  · next introduces =>
      rw [Bool.and_eq_true] at introduces
      exact live.introduce (not_function_of_introduced introduces.2) true rfl rfl
  split
  · next names =>
      simp only [Bool.and_eq_true, beq_iff_eq] at names
      have kind : reading.symbol.kind = .function := names.1.1
      exact ⟨live.shaped.rename token.text, .inr ⟨kind, rfl⟩⟩
  split
  · exact name_first_open_list_live live
  · exact live

theorem sigil_after_list_live {reading : Reading} (token : Token) (live : reading.Live)
    (listed : reading.Listed) : (Sigil.afterList reading token).Live := by
  unfold Sigil.afterList
  split
  · next extended found =>
      split at found
      · exact extend_return_live live listed found
      · contradiction
  · dsimp only
    split
    · split
      all_goals exact ⟨live.shaped, .inr ⟨listed.kind, listed.named⟩⟩
    all_goals exact ⟨live.shaped, .inr ⟨listed.kind, listed.named⟩⟩

theorem sigil_function_live {reading : Reading} (token : Token) (live : reading.Live) :
    (Sigil.function reading token).Live := by
  unfold Sigil.function
  dsimp only
  split
  · next closed => exact sigil_after_list_live token live (live.listed_of_closed closed.2)
  split
  · next introduces =>
      rw [Bool.and_eq_true] at introduces
      exact live.introduce (not_function_of_introduced introduces.2) true rfl rfl
  split
  · exact live
  next function =>
  have kind : reading.symbol.kind = .function := by simpa using function
  split
  · next names =>
      rw [Bool.and_eq_true] at names
      -- The name decides about the return, which has no type before the name is known.
      have unreturned : reading.symbol.returns.type = none := by
        rcases live.stage with unlisted | listed
        · exact unlisted.unreturned names.1
        · rw [listed.named] at names
          exact absurd names.1 (by decide)
      refine ⟨⟨?_, live.shaped.untyped, ?_⟩, .inr ⟨kind, rfl⟩⟩
      · intro other
        exact absurd kind other
      · simp [unreturned]
  split
  · exact ⟨live.shaped, .inr ⟨kind, rfl⟩⟩
  · exact live

theorem at_rule_function_live {reading : Reading} (token : Token) (live : reading.Live) :
    (AtRule.function reading token).Live := by
  have finished : reading.finished.Live := by
    refine ⟨live.shaped, ?_⟩
    rcases live.stage with unlisted | listed
    · exact .inl ⟨unlisted.parameter, unlisted.closed, unlisted.unreturned⟩
    · exact .inr ⟨listed.kind, listed.named⟩
  unfold AtRule.function
  dsimp only
  split
  · next introduces =>
      simp only [Bool.and_eq_true, beq_iff_eq] at introduces
      have kind : reading.symbol.kind ≠ .function := by simp [introduces.1]
      exact live.introduce kind _ rfl rfl
  split
  · exact live
  next function =>
  have kind : reading.symbol.kind = .function := by simpa using function
  split
  · split
    · exact ⟨live.shaped.rename token.text, .inr ⟨kind, rfl⟩⟩
    · exact live
  · split
    · exact ⟨live.shaped, .inr ⟨kind, rfl⟩⟩
    · exact live
  · split
    · exact live
    · exact finished
  · split
    · exact live
    · exact finished
  · exact live

theorem function_rule_live (language : Language) {reading : Reading} (token : Token)
    (live : reading.Live) :
    (language.functionRule reading token).Live ∨ (language.functionRule reading token).Over := by
  cases language with
  | c => exact .inl (type_first_function_live token live)
  | java => exact .inl (type_first_function_live token live)
  | javascript => exact name_first_function_live token live
  | php => exact .inl (sigil_function_live token live)
  | scss => exact .inl (at_rule_function_live token live)

end Language

namespace Reading

/-- What the rule for variables may change: not the list, and never back to a reading that goes
on. -/
structure VariableOnly (before after : Reading) : Prop where
  shaped : after.symbol.Shaped
  kind : after.symbol.kind ≠ .function
  parameter : after.expects.parameter = before.expects.parameter
  closed : after.expects.listClosed = before.expects.listClosed
  done : before.expects.done = true → after.expects.done = true

section

variable {reading : Reading} (token : Token) (shaped : reading.symbol.Shaped)
include shaped

theorem type_first_undeclared_only (grammar : Grammar) (kind : reading.symbol.kind = .unset) :
    VariableOnly reading (TypeFirst.undeclared grammar reading token) := by
  have plain : reading.symbol.kind ≠ .function := by simp [kind]
  unfold TypeFirst.undeclared
  dsimp only
  split
  · split
    all_goals exact ⟨shaped, plain, rfl, rfl, id⟩
  split
  · exact ⟨shaped, plain, rfl, rfl, fun _ => rfl⟩
  split
  · exact ⟨shaped, plain, rfl, rfl, id⟩
  split
  · exact ⟨shaped, plain, rfl, rfl, id⟩
  split
  · exact ⟨(shaped.declare kind .var).retype rfl (some token.text), by simp, rfl, rfl, id⟩
  · exact ⟨shaped, plain, rfl, rfl, id⟩

omit shaped in
theorem extend_variable_only {extended : Reading} (shaped : reading.symbol.Shaped)
    (kind : reading.symbol.kind = .var)
    (found : TypeText.extendVariable? reading token = some extended) :
    VariableOnly reading extended := by
  simp only [TypeText.extendVariable?, Option.map_eq_some_iff] at found
  obtain ⟨⟨type, depth⟩, _, rfl⟩ := found
  exact ⟨shaped.retype kind (some type), by simp [kind], rfl, rfl, id⟩

theorem extend_variable_or_only (kind : reading.symbol.kind = .var) :
    VariableOnly reading ((TypeText.extendVariable? reading token).getD reading) := by
  cases found : TypeText.extendVariable? reading token with
  | none => exact ⟨shaped, by simp [kind], rfl, rfl, id⟩
  | some extended => exact extend_variable_only token shaped kind found

theorem type_first_unnamed_only (grammar : Grammar) (rules : TypeFirst.Rules)
    (kind : reading.symbol.kind = .var) :
    VariableOnly reading (TypeFirst.unnamed grammar rules reading token) := by
  have plain : reading.symbol.kind ≠ .function := by simp [kind]
  unfold TypeFirst.unnamed
  split
  · exact ⟨shaped, plain, rfl, rfl, id⟩
  split
  · exact ⟨shaped.retype kind _, plain, rfl, rfl, id⟩
  split
  · next extended found => exact extend_variable_only token shaped kind found
  split
  · exact ⟨shaped.retype kind (some token.text), plain, rfl, rfl, id⟩
  split
  · exact ⟨shaped.rename token.text, plain, rfl, rfl, id⟩
  · exact ⟨shaped, plain, rfl, rfl, id⟩

theorem type_first_declared_only (grammar : Grammar) (rules : TypeFirst.Rules)
    (kind : reading.symbol.kind = .var) :
    VariableOnly reading (TypeFirst.declared grammar rules reading token) := by
  have plain : reading.symbol.kind ≠ .function := by simp [kind]
  unfold TypeFirst.declared
  split
  case h_2 =>
    split
    · dsimp only
      split
      · exact ⟨shaped.rename token.text, plain, rfl, rfl, id⟩
      · exact ⟨shaped, plain, rfl, rfl, id⟩
    · exact ⟨shaped, plain, rfl, rfl, id⟩
  case h_3 =>
    split
    · exact ⟨shaped.retype kind _, plain, rfl, rfl, id⟩
    · exact ⟨shaped, plain, rfl, rfl, id⟩
  case h_1 | h_7 => exact ⟨shaped, plain, rfl, rfl, id⟩
  all_goals exact ⟨shaped, plain, rfl, rfl, fun _ => rfl⟩

theorem type_first_variable_only (grammar : Grammar) (rules : TypeFirst.Rules)
    (plain : reading.symbol.kind ≠ .function) :
    VariableOnly reading (TypeFirst.variableRule grammar rules reading token) := by
  unfold TypeFirst.variableRule
  split
  · next kind => exact type_first_undeclared_only token shaped grammar kind
  · next kind =>
      split
      · exact type_first_unnamed_only token shaped grammar rules kind
      · exact type_first_declared_only token shaped grammar rules kind
  all_goals exact ⟨shaped, plain, rfl, rfl, id⟩

theorem name_first_undeclared_only (kind : reading.symbol.kind = .unset) :
    VariableOnly reading (NameFirst.undeclared reading token) := by
  have plain : reading.symbol.kind ≠ .function := by simp [kind]
  have same : ∀ expects, expects.parameter = reading.expects.parameter →
      expects.listClosed = reading.expects.listClosed →
      (reading.expects.done = true → expects.done = true) →
      VariableOnly reading ⟨reading.symbol, expects⟩ :=
    fun _ parameter closed done => ⟨shaped, plain, parameter, closed, done⟩
  unfold NameFirst.undeclared
  dsimp only
  split
  · split
    all_goals exact same _ rfl rfl id
  split
  · exact same _ rfl rfl (fun _ => rfl)
  split
  · exact ⟨shaped.declare kind .var, by simp, rfl, rfl, id⟩
  split
  · split
    · exact ⟨shaped.rename token.text, plain, rfl, rfl, id⟩
    split
    · exact same _ rfl rfl id
    · exact same _ rfl rfl id
  · split
    · exact same _ rfl rfl id
    · exact same _ rfl rfl id
  · split
    · exact ⟨shaped.declare kind .var, by simp, rfl, rfl, id⟩
    · exact same _ rfl rfl id
  · split
    · exact ⟨shaped.declare kind .var, by simp, rfl, rfl, id⟩
    · exact same _ rfl rfl id
  · exact same _ rfl rfl id

theorem name_first_declared_only (kind : reading.symbol.kind = .var) :
    VariableOnly reading (NameFirst.declared reading token) := by
  have plain : reading.symbol.kind ≠ .function := by simp [kind]
  unfold NameFirst.declared
  split
  · next extended found =>
      split at found
      · exact extend_variable_only token shaped kind found
      · contradiction
  · dsimp only
    split
    · exact ⟨shaped, plain, rfl, rfl, id⟩
    split
    · exact ⟨shaped, plain, rfl, rfl, id⟩
    split
    · exact ⟨shaped, plain, rfl, rfl, fun _ => rfl⟩
    split
    · exact ⟨shaped, plain, rfl, rfl, fun _ => rfl⟩
    · exact ⟨shaped, plain, rfl, rfl, id⟩

theorem name_first_variable_only (plain : reading.symbol.kind ≠ .function) :
    VariableOnly reading (NameFirst.variableRule reading token) := by
  unfold NameFirst.variableRule
  split
  · next kind => exact name_first_undeclared_only token shaped kind
  · next kind =>
      split
      · split
        · exact ⟨shaped.rename token.text, plain, rfl, rfl, id⟩
        · exact ⟨shaped, plain, rfl, rfl, id⟩
      · exact name_first_declared_only token shaped kind
  all_goals exact ⟨shaped, plain, rfl, rfl, id⟩

theorem sigil_undeclared_only (kind : reading.symbol.kind = .unset) :
    VariableOnly reading (Sigil.undeclared reading token) := by
  have plain : reading.symbol.kind ≠ .function := by simp [kind]
  have declared := shaped.declare kind .var
  unfold Sigil.undeclared
  split
  · exact ⟨shaped, plain, rfl, rfl, id⟩
  split
  · exact ⟨shaped, plain, rfl, rfl, fun _ => rfl⟩
  split
  · exact ⟨declared, by simp, rfl, rfl, id⟩
  split
  · exact ⟨declared.rename token.text, by simp, rfl, rfl, id⟩
  split
  · have typed := @extend_variable_or_only { reading with symbol.kind := .var } token declared rfl
    exact ⟨typed.shaped, typed.kind, typed.parameter, typed.closed, typed.done⟩
  · exact ⟨shaped, plain, rfl, rfl, id⟩

theorem sigil_unnamed_only (kind : reading.symbol.kind = .var) :
    VariableOnly reading (Sigil.unnamed reading token) := by
  have plain : reading.symbol.kind ≠ .function := by simp [kind]
  unfold Sigil.unnamed
  split
  · exact ⟨shaped.rename token.text, plain, rfl, rfl, id⟩
  split
  · refine ⟨⟨fun _ => shaped.plain plain, fun _ => rfl, shaped.present⟩, by simp, rfl, rfl, ?_⟩
    exact fun _ => rfl
  · exact extend_variable_or_only token shaped kind

theorem sigil_variable_only (plain : reading.symbol.kind ≠ .function) :
    VariableOnly reading (Sigil.variableRule reading token) := by
  unfold Sigil.variableRule
  split
  · next kind => exact sigil_undeclared_only token shaped kind
  · next kind =>
      split
      · unfold Sigil.constant
        split
        · exact ⟨shaped, plain, rfl, rfl, fun _ => rfl⟩
        split
        · exact ⟨shaped.rename token.text, plain, rfl, rfl, id⟩
        · exact ⟨shaped, plain, rfl, rfl, id⟩
      split
      · exact sigil_unnamed_only token shaped kind
      · unfold Sigil.declared
        dsimp only
        split
        · exact ⟨shaped.rename token.text, plain, rfl, rfl, id⟩
        split
        · exact ⟨shaped, plain, rfl, rfl, id⟩
        split
        · exact ⟨shaped, plain, rfl, rfl, fun _ => rfl⟩
        split
        · exact ⟨shaped, plain, rfl, rfl, fun _ => rfl⟩
        · exact ⟨shaped, plain, rfl, rfl, id⟩
  all_goals exact ⟨shaped, plain, rfl, rfl, id⟩

theorem at_rule_variable_only (plain : reading.symbol.kind ≠ .function) :
    VariableOnly reading (AtRule.variableRule reading token) := by
  unfold AtRule.variableRule
  split
  · next kind =>
      split
      · exact ⟨shaped, plain, rfl, rfl, fun _ => rfl⟩
      split
      · exact ⟨(shaped.declare kind .var).rename token.text, by simp, rfl, rfl, id⟩
      · exact ⟨shaped, plain, rfl, rfl, fun _ => rfl⟩
  · next kind =>
      split
      · exact ⟨shaped.retype kind _, plain, rfl, rfl, fun _ => rfl⟩
      split
      · exact ⟨shaped, plain, rfl, rfl, id⟩
      · exact ⟨shaped, plain, rfl, rfl, fun _ => rfl⟩
  all_goals exact ⟨shaped, plain, rfl, rfl, id⟩

theorem variable_rule_only (language : Language) (plain : reading.symbol.kind ≠ .function) :
    VariableOnly reading (language.variableRule reading token) := by
  cases language with
  | c => exact type_first_variable_only token shaped _ _ plain
  | java => exact type_first_variable_only token shaped _ _ plain
  | javascript => exact name_first_variable_only token shaped plain
  | php => exact sigil_variable_only token shaped plain
  | scss => exact at_rule_variable_only token shaped plain

end

end Reading

namespace Language

open Reading

theorem variable_rule_live (language : Language) {reading : Reading} (token : Token)
    (live : reading.Live) : (language.variableRule reading token).Live := by
  by_cases kind : reading.symbol.kind = .function
  · rw [language.variable_rule_ignores token (.inl kind)]
    exact live
  · have only := variable_rule_only token live.shaped language kind
    have unlisted := live.unlisted kind
    refine ⟨only.shaped, .inl ⟨?_, ?_, ?_⟩⟩
    · rw [only.parameter, unlisted.parameter]
    · rw [only.closed, unlisted.closed]
    · intro _
      exact only.shaped.return_untyped only.kind

theorem variable_rule_over (language : Language) {reading : Reading} (token : Token)
    (ended : reading.Over) : (language.variableRule reading token).Over := by
  by_cases kind : reading.symbol.kind = .function
  · rw [language.variable_rule_ignores token (.inl kind)]
    exact ended
  · have only := variable_rule_only token ended.shaped language kind
    refine ⟨only.shaped, only.done ended.done, ?_⟩
    have outside := ended.outside
    rw [Expectations.inList] at outside ⊢
    rw [only.parameter, only.closed, outside]

/-- One step keeps the shape. The function rule alone can end a reading at a place where the later
rules would not expect it. -/
theorem step_live (language : Language) {reading : Reading} (token : Token) (live : reading.Live) :
    (language.step reading token).Live ∨ (language.step reading token).Over := by
  have afterClass := language.class_rule_live token live
  rcases language.function_rule_live token afterClass with afterFunction | afterFunction
  · have afterParameters := language.parameter_rule_live token afterFunction
    have afterVariable := language.variable_rule_live token afterParameters
    refine .inl ⟨afterVariable.shaped, ?_⟩
    rcases afterVariable.stage with unlisted | listed
    · exact .inl ⟨unlisted.parameter, unlisted.closed, unlisted.unreturned⟩
    · exact .inr ⟨listed.kind, listed.named⟩
  · have afterVariable := language.variable_rule_over token afterFunction
    rw [← language.parameter_rule_outside token afterFunction.outside] at afterVariable
    exact .inr ⟨afterVariable.shaped, afterVariable.done, afterVariable.outside⟩

theorem step_unless_done_live (language : Language) {reading : Reading} (token : Token)
    (sound : reading.Live ∨ reading.Over) :
    (language.stepUnlessDone reading token).Live ∨ (language.stepUnlessDone reading token).Over := by
  unfold stepUnlessDone
  split
  · exact sound
  · next undone =>
      rcases sound with live | ended
      · exact language.step_live token live
      · exact absurd ended.done undone

theorem run_live (language : Language) (tokens : List Token) {reading : Reading}
    (sound : reading.Live ∨ reading.Over) :
    (tokens.foldl language.stepUnlessDone reading).Live ∨
      (tokens.foldl language.stepUnlessDone reading).Over := by
  induction tokens generalizing reading with
  | nil => exact sound
  | cons token tokens induction => exact induction (language.step_unless_done_live token sound)

theorem finish_shaped (language : Language) {reading : Reading}
    (shaped : reading.symbol.Shaped) : (language.finish reading).symbol.Shaped := by
  cases language with
  | javascript =>
      simp only [finish, NameFirst.finish]
      split
      · exact Symbol.shaped_to_variable _ _
      · exact shaped
  | _ => exact shaped

/-- Whatever tokens come, the symbol has its shape after each of them and at the end of the line. -/
theorem symbol_shaped (language : Language) (tokens : List Token) :
    (tokens.foldl language.stepUnlessDone {}).symbol.Shaped ∧
      (language.recognize tokens).Shaped := by
  have start : Live {} := ⟨Symbol.shaped_empty, .inl ⟨rfl, rfl, fun _ => rfl⟩⟩
  have shaped : (tokens.foldl language.stepUnlessDone {}).symbol.Shaped := by
    rcases language.run_live tokens (.inl start) with live | ended
    · exact live.shaped
    · exact ended.shaped
  exact ⟨shaped, language.finish_shaped shaped⟩

end Language

end DocComment
