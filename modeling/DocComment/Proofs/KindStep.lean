import DocComment.Proofs.SymbolShape

/-!
How one token changes the kind of a symbol. The four rules run on the same token and see each
other's changes, so each is first held to what it does to the kind alone.
-/

namespace DocComment

namespace Reading

/-- The changes of kind that a step may make. A function is a variable again only if `regroups`
holds. -/
inductive KindStep (language : Language) (regroups : Prop) (before after : Reading) : Prop where
  | same (kind : after.symbol.kind = before.symbol.kind)
  | declared (unset : before.symbol.kind = .unset) (kind : after.symbol.kind ≠ .unset)
  | called (before : before.symbol.kind = .var) (after : after.symbol.kind = .function)
  | regrouped (language : language = .javascript) (group : regroups)
      (before : before.symbol.kind = .function) (after : after.symbol.kind = .var)
  | dismissed (language : language = .php) (unnamed : after.symbol.name = "")
      (done : after.expects.done = true) (before : before.symbol.kind = .var)
      (after : after.symbol.kind = .unset)

theorem KindStep.of_unset {language : Language} {regroups : Prop} {before after : Reading}
    (unset : before.symbol.kind = .unset) : KindStep language regroups before after := by
  by_cases kind : after.symbol.kind = .unset
  · exact .same (kind.trans unset.symm)
  · exact .declared unset kind

namespace KindStep

variable {language : Language} {regroups : Prop} {before after : Reading}

theorem class_stays (step : KindStep language regroups before after)
    (kind : before.symbol.kind = .classLike) : after.symbol.kind = .classLike := by
  cases step with
  | same stays => exact stays.trans kind
  | declared other => simp [kind] at other
  | called other => simp [kind] at other
  | regrouped _ _ other => simp [kind] at other
  | dismissed _ _ _ other => simp [kind] at other

theorem function_stays (step : KindStep language regroups before after)
    (kind : before.symbol.kind = .function) (final : language ≠ .javascript ∨ ¬ regroups) :
    after.symbol.kind = .function := by
  cases step with
  | same stays => exact stays.trans kind
  | declared other => simp [kind] at other
  | called other => simp [kind] at other
  | regrouped javascript group => exact absurd group (final.resolve_left (not_not_intro javascript))
  | dismissed _ _ _ other => simp [kind] at other

theorem weaken {first : Reading} {weaker : Prop} (step : KindStep language regroups before after)
    (kind : before.symbol.kind = first.symbol.kind)
    (implies : language = .javascript → regroups → weaker) :
    KindStep language weaker first after := by
  cases step with
  | same stays => exact .same (stays.trans kind)
  | declared unset declared => exact .declared (kind.symm.trans unset) declared
  | called before after => exact .called (kind.symm.trans before) after
  | regrouped javascript group before after =>
      exact .regrouped javascript (implies javascript group) (kind.symm.trans before) after
  | dismissed php unnamed done before after =>
      exact .dismissed php unnamed done (kind.symm.trans before) after

/-- The kind of the last token is noted without a change. -/
theorem seen (step : KindStep language regroups before after) (token : Token) :
    KindStep language regroups before { after with expects.previous := some token.kind } := by
  cases step with
  | same stays => exact .same stays
  | declared unset declared => exact .declared unset declared
  | called before after => exact .called before after
  | regrouped javascript group before after => exact .regrouped javascript group before after
  | dismissed php unnamed done before after => exact .dismissed php unnamed done before after

end KindStep

def Undecided (reading : Reading) : Prop :=
  reading.expects.tentativeArrow = true ∧ reading.expects.listClosed = true

end Reading

namespace Language

open Reading

theorem class_rule_class (language : Language) {reading : Reading} (token : Token)
    (kind : reading.symbol.kind = .classLike) :
    (language.classRule reading token).symbol.kind = .classLike := by
  unfold classRule
  split
  · rfl
  split
  · exact kind
  · exact kind

theorem class_rule_of_variable (language : Language) (reading : Reading) (token : Token)
    (kind : (language.classRule reading token).symbol.kind = .var) :
    language.classRule reading token = reading := by
  unfold classRule at kind ⊢
  split at kind
  · contradiction
  next undeclared =>
  rw [if_neg undeclared]
  split at kind
  · next named =>
      rw [Bool.and_eq_true, Bool.and_eq_true, beq_iff_eq] at named
      exact absurd (named.1.1.symm.trans kind) (by decide)
  · next unnamed => rw [if_neg unnamed]

theorem class_rule_expects (language : Language) (reading : Reading) (token : Token) :
    (language.classRule reading token).expects.value = reading.expects.value ∧
      (language.classRule reading token).expects.variableType = reading.expects.variableType ∧
      (language.classRule reading token).expects.tentativeArrow =
        reading.expects.tentativeArrow := by
  unfold classRule
  split
  · exact ⟨rfl, rfl, rfl⟩
  split <;> exact ⟨rfl, rfl, rfl⟩

theorem extend_return_frame {reading extended : Reading} {token : Token}
    (found : TypeText.extendReturn? reading token = some extended) :
    ∃ returns depth, extended =
      { symbol := { reading.symbol with returns }
        expects := { reading.expects with genericDepth := depth } } := by
  simp only [TypeText.extendReturn?, Option.map_eq_some_iff] at found
  obtain ⟨⟨type, depth⟩, _, rfl⟩ := found
  exact ⟨_, depth, rfl⟩

theorem extend_return_arrow (reading : Reading) {token : Token} (arrow : token.kind = .fatArrow) :
    TypeText.extendReturn? reading token = none := by
  simp [TypeText.extendReturn?, TypeText.extend?, TypeText.addition?, arrow]

/-- What a token past the list of a function does to an arrow that is still tentative. -/
inductive AfterList (reading : Reading) (token : Token) (after : Reading) : Prop where
  | waits (kind : after.symbol.kind = reading.symbol.kind) (unconfirmed : token.kind ≠ .fatArrow)
      (tentative : after.expects.tentativeArrow = reading.expects.tentativeArrow)
      (closed : after.expects.listClosed = reading.expects.listClosed)
      (done : after.expects.done = reading.expects.done)
  | settled (kind : after.symbol.kind = reading.symbol.kind)
      (settled : after.expects.tentativeArrow = false)
  | abandoned (tentative : reading.expects.tentativeArrow = true)
      (unconfirmed : token.kind ≠ .fatArrow) (kind : after.symbol.kind = .var)
      (settled : after.expects.tentativeArrow = false) (done : after.expects.done = true)

section

variable (reading : Reading) (token : Token)

theorem name_first_after_list :
    AfterList reading token (NameFirst.afterList reading token) := by
  unfold NameFirst.afterList
  split
  · next extended found =>
      split at found
      · have unconfirmed : token.kind ≠ .fatArrow := by
          intro arrow
          rw [extend_return_arrow reading arrow] at found
          contradiction
        obtain ⟨returns, depth, rfl⟩ := extend_return_frame found
        exact .waits rfl unconfirmed rfl rfl rfl
      · contradiction
  · dsimp only
    split
    · next colon => exact .waits rfl (by simp [colon.1]) rfl rfl rfl
    split
    · exact .settled rfl rfl
    next unconfirmed =>
    split
    · next tentative => exact .abandoned tentative unconfirmed rfl rfl rfl
    next settled =>
    split
    · exact .settled rfl (Bool.eq_false_iff.2 settled)
    · exact .waits rfl unconfirmed rfl rfl rfl

theorem type_first_after_list_kind :
    (TypeFirst.afterList reading token).symbol.kind = reading.symbol.kind := by
  unfold TypeFirst.afterList
  split
  · next extended found =>
      split at found
      · obtain ⟨returns, depth, rfl⟩ := extend_return_frame found
        rfl
      · contradiction
  · dsimp only
    split <;> rfl

theorem sigil_after_list_kind :
    (Sigil.afterList reading token).symbol.kind = reading.symbol.kind := by
  unfold Sigil.afterList
  split
  · next extended found =>
      split at found
      · obtain ⟨returns, depth, rfl⟩ := extend_return_frame found
        rfl
      · contradiction
  · dsimp only
    split
    · split <;> rfl
    all_goals rfl

theorem name_first_open_list_kind :
    (NameFirst.openList reading).symbol.kind = .function := by
  unfold NameFirst.openList
  dsimp only
  split
  · next kind => exact kind
  all_goals rfl

theorem name_first_function_kind :
    NameFirst.function reading token = reading ∨
      (reading.symbol.kind ≠ .classLike ∧
        (NameFirst.function reading token).symbol.kind = .function) ∨
      (reading.symbol.kind = .function ∧ (reading.Undecided ∧ token.kind ≠ .fatArrow) ∧
        (NameFirst.function reading token).symbol.kind = .var ∧
        (NameFirst.function reading token).expects.done = true) := by
  unfold NameFirst.function
  dsimp only
  split
  · next closed =>
      have other : reading.symbol.kind ≠ .classLike := by simp [closed.1]
      cases name_first_after_list reading token with
      | waits kind => exact .inr (.inl ⟨other, kind.trans closed.1⟩)
      | settled kind => exact .inr (.inl ⟨other, kind.trans closed.1⟩)
      | abandoned tentative unconfirmed kind _ done =>
          exact .inr (.inr ⟨closed.1, ⟨⟨tentative, closed.2⟩, unconfirmed⟩, kind, done⟩)
  split
  · next introduces =>
      refine .inr (.inl ⟨?_, rfl⟩)
      intro kind
      simp [kind] at introduces
  split
  · next names =>
      simp only [Bool.and_eq_true, beq_iff_eq] at names
      have kind : reading.symbol.kind = .function := names.1.1
      exact .inr (.inl ⟨by simp [kind], kind⟩)
  split
  · next opens =>
      refine .inr (.inl ⟨?_, name_first_open_list_kind reading⟩)
      intro kind
      simp [NameFirst.opensList, kind] at opens
  · exact .inl rfl

theorem type_first_function_kind :
    TypeFirst.function reading token = reading ∨ (reading.symbol.kind ≠ .classLike ∧
      (TypeFirst.function reading token).symbol.kind = .function) := by
  unfold TypeFirst.function
  split
  · next closed =>
      simp only [Bool.and_eq_true, beq_iff_eq] at closed
      refine .inr ⟨by simp [closed.1], ?_⟩
      rw [type_first_after_list_kind, closed.1]
  split
  · next opens =>
      simp only [TypeFirst.opensList, Bool.and_eq_true, beq_iff_eq] at opens
      have other : reading.symbol.kind ≠ .classLike := by simp [opens.1.1.1.2]
      unfold TypeFirst.openList
      dsimp only
      split
      · split
        · exact .inl rfl
        · exact .inr ⟨other, rfl⟩
      · exact .inr ⟨other, rfl⟩
  · exact .inl rfl

theorem sigil_function_kind :
    Sigil.function reading token = reading ∨ (reading.symbol.kind ≠ .classLike ∧
      (Sigil.function reading token).symbol.kind = .function) := by
  unfold Sigil.function
  dsimp only
  split
  · next closed =>
      refine .inr ⟨by simp [closed.1], ?_⟩
      rw [sigil_after_list_kind, closed.1]
  split
  · next introduces =>
      refine .inr ⟨?_, rfl⟩
      intro kind
      simp [kind] at introduces
  split
  · exact .inl rfl
  next function =>
  have kind : reading.symbol.kind = .function := by simpa using function
  have other : reading.symbol.kind ≠ .classLike := by simp [kind]
  split
  · exact .inr ⟨other, kind⟩
  split
  · exact .inr ⟨other, kind⟩
  · exact .inl rfl

theorem at_rule_function_kind :
    AtRule.function reading token = reading ∨ (reading.symbol.kind ≠ .classLike ∧
      (AtRule.function reading token).symbol.kind = .function) := by
  unfold AtRule.function
  dsimp only
  split
  · next introduces =>
      simp only [Bool.and_eq_true, beq_iff_eq] at introduces
      exact .inr ⟨by simp [introduces.1], rfl⟩
  split
  · exact .inl rfl
  next function =>
  have kind : reading.symbol.kind = .function := by simpa using function
  have other : reading.symbol.kind ≠ .classLike := by simp [kind]
  split
  · split
    · exact .inr ⟨other, kind⟩
    · exact .inl rfl
  · split
    · exact .inr ⟨other, kind⟩
    · exact .inl rfl
  · split
    · exact .inl rfl
    · exact .inr ⟨other, kind⟩
  · split
    · exact .inl rfl
    · exact .inr ⟨other, kind⟩
  · exact .inl rfl

/-- The rule for functions leaves a reading alone, makes it a function, or ends a group. -/
theorem function_rule_kind (language : Language) :
    language.functionRule reading token = reading ∨
      (reading.symbol.kind ≠ .classLike ∧
        (language.functionRule reading token).symbol.kind = .function) ∨
      (language = .javascript ∧ reading.symbol.kind = .function ∧
        (reading.Undecided ∧ token.kind ≠ .fatArrow) ∧
        (language.functionRule reading token).symbol.kind = .var) := by
  cases language with
  | c => exact (type_first_function_kind reading token).imp_right .inl
  | java => exact (type_first_function_kind reading token).imp_right .inl
  | javascript =>
      rcases name_first_function_kind reading token with same | made | ⟨kind, group, ended, _⟩
      · exact .inl same
      · exact .inr (.inl made)
      · exact .inr (.inr ⟨rfl, kind, group, ended⟩)
  | php => exact (sigil_function_kind reading token).imp_right .inl
  | scss => exact (at_rule_function_kind reading token).imp_right .inl

theorem extend_variable_frame {reading extended : Reading} {token : Token}
    (found : TypeText.extendVariable? reading token = some extended) :
    ∃ type depth, extended =
      { symbol := { reading.symbol with varType := some type }
        expects := { reading.expects with genericDepth := depth } } := by
  simp only [TypeText.extendVariable?, Option.map_eq_some_iff] at found
  obtain ⟨⟨type, depth⟩, _, rfl⟩ := found
  exact ⟨type, depth, rfl⟩

theorem extend_variable_or_kind :
    ((TypeText.extendVariable? reading token).getD reading).symbol.kind = reading.symbol.kind := by
  cases found : TypeText.extendVariable? reading token with
  | none => rfl
  | some extended =>
      obtain ⟨type, depth, rfl⟩ := extend_variable_frame found
      rfl

theorem type_first_unnamed_kind (grammar : Grammar) (rules : TypeFirst.Rules) :
    (TypeFirst.unnamed grammar rules reading token).symbol.kind = reading.symbol.kind := by
  unfold TypeFirst.unnamed
  split
  · rfl
  split
  · rfl
  split
  · next extended found =>
      obtain ⟨type, depth, rfl⟩ := extend_variable_frame found
      rfl
  split
  · rfl
  split <;> rfl

theorem type_first_declared_kind (grammar : Grammar) (rules : TypeFirst.Rules) :
    (TypeFirst.declared grammar rules reading token).symbol.kind = reading.symbol.kind := by
  unfold TypeFirst.declared
  split
  case h_2 =>
    split
    · dsimp only
      split <;> rfl
    · rfl
  case h_3 => split <;> rfl
  all_goals rfl

theorem name_first_declared_kind :
    (NameFirst.declared reading token).symbol.kind = reading.symbol.kind := by
  unfold NameFirst.declared
  split
  · next extended found =>
      split at found
      · obtain ⟨type, depth, rfl⟩ := extend_variable_frame found
        rfl
      · contradiction
  · dsimp only
    split
    · rfl
    split
    · rfl
    split
    · rfl
    split <;> rfl

theorem sigil_constant_kind :
    (Sigil.constant reading token).symbol.kind = reading.symbol.kind := by
  unfold Sigil.constant
  split
  · rfl
  split <;> rfl

theorem sigil_declared_kind :
    (Sigil.declared reading token).symbol.kind = reading.symbol.kind := by
  unfold Sigil.declared
  dsimp only
  split
  · rfl
  split
  · rfl
  split
  · rfl
  split <;> rfl

theorem sigil_unnamed_kind (kind : reading.symbol.kind = .var)
    (unnamed : reading.symbol.name = "") :
    KindStep .php False reading (Sigil.unnamed reading token) := by
  unfold Sigil.unnamed
  split
  · exact .same rfl
  split
  · exact .dismissed rfl unnamed rfl kind rfl
  · exact .same (extend_variable_or_kind reading token)

theorem variable_rule_kind (language : Language) :
    KindStep language False reading (language.variableRule reading token) := by
  cases kind : reading.symbol.kind with
  | unset => exact .of_unset kind
  | function =>
      rw [language.variable_rule_ignores token (.inl kind)]
      exact .same rfl
  | classLike =>
      rw [language.variable_rule_ignores token (.inr kind)]
      exact .same rfl
  | var =>
      cases language with
      | c | java =>
          simp only [variableRule, TypeFirst.variableRule, kind]
          split
          · exact .same (type_first_unnamed_kind reading token _ _)
          · exact .same (type_first_declared_kind reading token _ _)
      | javascript =>
          simp only [variableRule, NameFirst.variableRule, kind]
          split
          · split <;> exact .same rfl
          · exact .same (name_first_declared_kind reading token)
      | php =>
          simp only [variableRule, Sigil.variableRule, kind]
          split
          · exact .same (sigil_constant_kind reading token)
          split
          · next unnamed => exact sigil_unnamed_kind reading token kind unnamed
          · exact .same (sigil_declared_kind reading token)
      | scss =>
          simp only [variableRule, AtRule.variableRule, kind]
          split
          · exact .same kind.symm
          split <;> exact .same rfl

/-- One step, whatever the reading. -/
theorem step_kind (language : Language) :
    KindStep language (reading.Undecided ∧ token.kind ≠ .fatArrow) reading
      (language.step reading token) := by
  let ruled := language.functionRule (language.classRule reading token) token
  let listed := language.parameterRule ruled token
  have listedKind : listed.symbol.kind = ruled.symbol.kind :=
    (language.parameter_rule_same ruled token).symbol.kind
  have last : KindStep language False listed (language.step reading token) :=
    (variable_rule_kind listed token language).seen token
  -- Only a symbol without a kind can change it twice; the others are settled by the rule for
  -- functions, and what the rule for variables may add depends on the outcome of that.
  cases kind : reading.symbol.kind with
  | unset => exact .of_unset kind
  | classLike =>
      have named := language.class_rule_class token kind
      have ruledKind : ruled.symbol.kind = .classLike := by
        rcases function_rule_kind (language.classRule reading token) token language with
          same | ⟨other, _⟩ | ⟨_, function, _⟩
        · rw [← named, ← same]
        · exact absurd named other
        · rw [named] at function
          contradiction
      exact .same ((last.class_stays (listedKind.trans ruledKind)).trans kind.symm)
  | var =>
      have unclassed := language.class_rule_ignores token (.inr kind)
      rcases function_rule_kind (language.classRule reading token) token language with
        same | ⟨_, function⟩ | ⟨_, function, _⟩
      · have ruledKind : ruled.symbol.kind = reading.symbol.kind := by
          rw [show ruled = reading from same.trans unclassed]
        exact last.weaken (listedKind.trans ruledKind) (fun _ => False.elim)
      · exact .called kind (last.function_stays (listedKind.trans function) (.inr not_false))
      · rw [unclassed, kind] at function
        contradiction
  | function =>
      have unclassed := language.class_rule_ignores token (.inl kind)
      have stays : ruled.symbol.kind = .function →
          KindStep language (reading.Undecided ∧ token.kind ≠ .fatArrow) reading
            (language.step reading token) := by
        intro ruledKind
        have after := last.function_stays (listedKind.trans ruledKind) (.inr not_false)
        exact .same (after.trans kind.symm)
      rcases function_rule_kind (language.classRule reading token) token language with
        same | ⟨_, function⟩ | ⟨javascript, _, group, ended⟩
      · apply stays
        rw [show ruled = reading from same.trans unclassed, kind]
      · exact stays function
      · rw [unclassed] at group
        have listedVar : listed.symbol.kind = .var := listedKind.trans ended
        cases last with
        | same after => exact .regrouped javascript group kind (after.trans listedVar)
        | declared unset => simp [listedVar] at unset
        | called _ after => exact .same (after.trans kind.symm)
        | regrouped _ group => exact group.elim
        | dismissed php => simp [javascript] at php

end

end Language

end DocComment
