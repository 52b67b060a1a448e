import DocComment.Proofs.ArrowGroup
import DocComment.Proofs.ParamList

/-!
The flags and counters of a reading fit together. Brackets of a value, brackets of a pattern and a
type that waits for its name are all part of an open list, an open list belongs to a function, and a
return type is expected only behind a closed one. This holds after any tokens from the start of a
line on; what a rule may do to the state of the list is all that its step needs.
-/

namespace DocComment

namespace ListState

def isOpen (state : ListState) : Bool := state.parameter && !state.listClosed

/-- What holds between the state of a list, the kind of the symbol and the expectation of a value. -/
structure Consistent (language : Language) (kind : Symbol.Kind) (value : Bool) (state : ListState) :
    Prop where
  exclusive : ¬ (state.parameter = true ∧ state.listClosed = true)
  called : state.isOpen = true → kind = .function
  nested : 0 < state.nesting → value = true ∧ state.isOpen = true
  patterned : 0 < state.patternDepth → state.isOpen = true
  typed : state.parameterType = true → state.isOpen = true
  pending : state.pendingType ≠ none → state.isOpen = true
  returning : state.returnType = true → kind = .function ∧ state.listClosed = true
  tentative : state.tentativeArrow = true → kind = .function
  unpatterned : language ≠ .javascript → state.patternDepth = 0

/-- An open list of a function may hold whatever it holds. -/
theorem consistent_of_open {language : Language} {value : Bool} {state : ListState}
    (opened : state.isOpen = true) (unreturned : state.returnType = false)
    (nested : 0 < state.nesting → value = true)
    (unpatterned : language ≠ .javascript → state.patternDepth = 0) :
    state.Consistent language .function value := by
  refine ⟨?_, fun _ => rfl, fun nesting => ⟨nested nesting, opened⟩, fun _ => opened,
    fun _ => opened, fun _ => opened, ?_, fun _ => rfl, unpatterned⟩
  · intro both
    simp [isOpen, both.2] at opened
  · simp [unreturned]

namespace Consistent

variable {language : Language} {kind : Symbol.Kind} {value : Bool} {state : ListState}
  (consistent : state.Consistent language kind value)
include consistent

theorem nesting_closed (shut : state.isOpen = false) : state.nesting = 0 := by
  apply Nat.eq_zero_of_not_pos
  intro nested
  exact Bool.false_ne_true (shut.symm.trans (consistent.nested nested).2)

theorem pattern_closed (shut : state.isOpen = false) : state.patternDepth = 0 := by
  apply Nat.eq_zero_of_not_pos
  intro patterned
  exact Bool.false_ne_true (shut.symm.trans (consistent.patterned patterned))

theorem not_open (plain : kind ≠ .function) : state.isOpen = false := by
  rw [Bool.eq_false_iff]
  intro isOpen
  exact plain (consistent.called isOpen)

/-- As long as there is no function, kinds and values come and go. -/
theorem rekind (plain : kind ≠ .function) (after : Symbol.Kind) (expected : Bool) :
    state.Consistent language after expected := by
  have shut := consistent.not_open plain
  refine ⟨consistent.exclusive, ?_, ?_, consistent.patterned, consistent.typed, consistent.pending,
    ?_, ?_, consistent.unpatterned⟩
  · simp [shut]
  · simp [consistent.nesting_closed shut]
  · intro returning
    exact absurd (consistent.returning returning).1 plain
  · intro tentative
    exact absurd (consistent.tentative tentative) plain

theorem openList (unopened : state.parameter = false ∧ state.listClosed = false)
    (expected tentative : Bool) :
    { state with parameter := true, tentativeArrow := tentative }.Consistent language .function
      expected := by
  have shut : state.isOpen = false := by simp [isOpen, unopened.1]
  apply consistent_of_open
  · simp [isOpen, unopened.2]
  · rw [Bool.eq_false_iff]
    intro returning
    have closed := (consistent.returning returning).2
    simp [unopened.2] at closed
  · simp [consistent.nesting_closed shut]
  · exact consistent.unpatterned

theorem pastList (closed : state.listClosed = true) (expected returns tentative : Bool) :
    { state with returnType := returns, tentativeArrow := tentative }.Consistent language .function
      expected := by
  have shut : state.isOpen = false := by simp [isOpen, closed]
  refine ⟨consistent.exclusive, fun _ => rfl, ?_, consistent.patterned, consistent.typed,
    consistent.pending, fun _ => ⟨rfl, closed⟩, fun _ => rfl, consistent.unpatterned⟩
  simp [consistent.nesting_closed shut]

theorem regroup (closed : state.listClosed = true) (expected : Bool) :
    { state with returnType := false, tentativeArrow := false }.Consistent language .var
      expected := by
  have shut : state.isOpen = false := by simp [isOpen, closed]
  refine ⟨consistent.exclusive, ?_, ?_, consistent.patterned, consistent.typed, consistent.pending,
    nofun, nofun, consistent.unpatterned⟩
  · intro opened
    exact absurd (shut.symm.trans opened) Bool.false_ne_true
  · simp [consistent.nesting_closed shut]

end Consistent

end ListState

namespace Reading

def Consistent (language : Language) (reading : Reading) : Prop :=
  reading.expects.listState.Consistent language reading.symbol.kind reading.expects.value

theorem consistent_start (language : Language) : Consistent language {} := by
  constructor <;> simp [Expectations.listState, ListState.isOpen]

end Reading

namespace Language

open Reading

section

variable {language : Language} {before after : Reading}

/-- A rule that leaves the list alone may do the rest freely unless there is a function. -/
theorem consistent_of_frame (consistent : before.Consistent language)
    (frame : ListFrame before after) (plain : before.symbol.kind ≠ .function) :
    after.Consistent language := by
  rw [Reading.Consistent, frame.list]
  exact ListState.Consistent.rekind consistent plain _ _

theorem consistent_of_function_move (consistent : before.Consistent language)
    (move : FunctionMove language before after) : after.Consistent language := by
  cases move with
  | kept frame kind value =>
      rw [Reading.Consistent, frame.list, kind, value]
      exact consistent
  | introduced frame plain _ => exact consistent_of_frame consistent frame plain
  | opened _ unopened kind tentative list =>
      rw [Reading.Consistent, list, kind]
      exact ListState.Consistent.openList consistent unopened _ tentative
  | returned _ closed kind returns tentative list =>
      rw [Reading.Consistent, list, kind]
      exact ListState.Consistent.pastList consistent closed.2 _ returns tentative
  | regrouped _ _ closed kind list =>
      rw [Reading.Consistent, list, kind]
      exact ListState.Consistent.regroup consistent closed.2.2 _

/-- A token inside the list keeps it open or closes it. Unless it belongs to a value, no bracket of
a value is open then. -/
theorem consistent_of_list_move (consistent : before.Consistent language)
    (inList : before.expects.inList = true) (kind : after.symbol.kind = before.symbol.kind)
    (move : ListMove language before.expects after.expects) : after.Consistent language := by
  have unreturned : before.expects.returnType = false := by
    rw [Bool.eq_false_iff]
    intro returning
    have closed : before.expects.listClosed = true := (consistent.returning returning).2
    simp [Expectations.inList, closed] at inList
  rw [Reading.Consistent, kind.trans (consistent.called inList)]
  cases move with
  | valued expected nesting same =>
      rw [same]
      exact ListState.consistent_of_open inList unreturned (fun _ => expected) consistent.unpatterned
  | inside refused standing nesting pattern =>
      simp only [Expectations.standing, Prod.mk.injEq] at standing
      obtain ⟨parameter, closed, returns, _⟩ := standing
      have unnested : before.expects.nesting = 0 := by
        apply Nat.eq_zero_of_not_pos
        intro nested
        exact Nat.lt_irrefl 0 (refused (consistent.nested nested).1 ▸ nested)
      apply ListState.consistent_of_open
      · change after.expects.inList = true
        rw [Expectations.inList, parameter, closed]
        exact inList
      · exact returns.trans unreturned
      · intro nested
        rcases nesting with same | zero
        · exact absurd (same.trans unnested) (Nat.ne_of_gt nested)
        · exact absurd zero (Nat.ne_of_gt nested)
      · intro other
        exact (pattern other).trans (consistent.unpatterned other)
  | closed pattern same =>
      have unpatterned : before.expects.patternDepth = 0 := by
        by_cases patterns : language = .javascript
        · exact pattern patterns
        · exact consistent.unpatterned patterns
      rw [same]
      constructor <;>
        simp [Expectations.closeList, Expectations.nextParameter, Expectations.listState,
          ListState.isOpen, unpatterned]

end

theorem step_consistent (language : Language) {reading : Reading} (token : Token)
    (consistent : reading.Consistent language) :
    (language.step reading token).Consistent language := by
  let classed := language.classRule reading token
  let ruled := language.functionRule classed token
  let listed := language.parameterRule ruled token
  have afterClass : classed.Consistent language := by
    by_cases kind : reading.symbol.kind = .function
    · rw [show classed = reading from language.class_rule_ignores token (.inl kind)]
      exact consistent
    · exact consistent_of_frame consistent (class_rule_frame reading token language) kind
  have afterFunction : ruled.Consistent language :=
    consistent_of_function_move afterClass (function_rule_move classed token language)
  have afterParameters : listed.Consistent language := by
    cases inList : ruled.expects.inList with
    | true =>
        have kind := (language.parameter_rule_same ruled token).symbol.kind
        have effect := language.parameter_rule_effect token inList
        exact consistent_of_list_move afterFunction inList kind effect.move
    | false =>
        rw [show listed = ruled from language.parameter_rule_outside token inList]
        exact afterFunction
  have afterVariable : (language.variableRule listed token).Consistent language := by
    by_cases kind : listed.symbol.kind = .function
    · rw [language.variable_rule_ignores token (.inl kind)]
      exact afterParameters
    · exact consistent_of_frame afterParameters (variable_rule_frame listed token language) kind
  exact afterVariable

/-- After any tokens the flags and counters of the list agree with each other and with the kind. -/
theorem list_flags_agree (language : Language) (tokens : List Token) :
    let reading := language.readingAfter tokens
    let kind := reading.symbol.kind
    let expects := reading.expects
    ¬ (expects.parameter = true ∧ expects.listClosed = true) ∧
      (expects.inList = true → kind = .function) ∧
      (0 < expects.nesting → expects.value = true ∧ expects.inList = true) ∧
      (0 < expects.patternDepth ∨ expects.parameterType = true ∨ expects.pendingType ≠ none →
        expects.inList = true) ∧
      (expects.listClosed = true → expects.nesting = 0 ∧ expects.patternDepth = 0 ∧
        expects.pendingType = none ∧ expects.parameterType = false) ∧
      (expects.returnType = true → kind = .function ∧ expects.listClosed = true) ∧
      (expects.tentativeArrow = true → kind = .function) ∧
      (language ≠ .javascript → expects.patternDepth = 0) := by
  intro reading kind expects
  have consistent : reading.Consistent language :=
    language.reading_after_holds (consistent_start language)
      (fun _ token _ before => language.step_consistent token before) fun _ _ => trivial
  refine ⟨consistent.exclusive, consistent.called, consistent.nested, ?_, ?_, consistent.returning,
    consistent.tentative, consistent.unpatterned⟩
  · rintro (patterned | typed | pending)
    · exact consistent.patterned patterned
    · exact consistent.typed typed
    · exact consistent.pending pending
  · intro closed
    have shut : expects.listState.isOpen = false := by
      have closed : expects.listState.listClosed = true := closed
      simp [ListState.isOpen, closed]
    refine ⟨consistent.nesting_closed shut, consistent.pattern_closed shut, ?_, ?_⟩
    · by_contra pending
      exact Bool.false_ne_true (shut.symm.trans (consistent.pending pending))
    · rw [Bool.eq_false_iff]
      intro typed
      exact Bool.false_ne_true (shut.symm.trans (consistent.typed typed))

end Language

end DocComment
