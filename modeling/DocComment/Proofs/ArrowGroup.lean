import Mathlib.Data.List.Induction
import DocComment.Proofs.KindStep

/-!
A parenthesis after a sign of a variable opens a list of arrow parameters that may turn out to be a
group. The tokens read so far tell how far this has come: a reading that can still go back to a
variable has a sign, an opening and a closing parenthesis behind it, and no arrow after them.
-/

namespace DocComment

namespace Language

def readingAfter (language : Language) (tokens : List Token) : Reading :=
  tokens.foldl language.stepUnlessDone {}

theorem reading_after_snoc (language : Language) (tokens : List Token) (token : Token) :
    language.readingAfter (tokens ++ [token]) =
      language.stepUnlessDone (language.readingAfter tokens) token := by
  rw [readingAfter, List.foldl_append]
  rfl

theorem reading_after_step (language : Language) {tokens : List Token}
    (undone : (language.readingAfter tokens).expects.done = false) (token : Token) :
    language.readingAfter (tokens ++ [token]) =
      language.step (language.readingAfter tokens) token := by
  simp [reading_after_snoc, stepUnlessDone, undone]

theorem reading_after_done (language : Language) {tokens : List Token}
    (done : (language.readingAfter tokens).expects.done = true) (token : Token) :
    language.readingAfter (tokens ++ [token]) = language.readingAfter tokens := by
  simp [reading_after_snoc, stepUnlessDone, done]

/-- What the start of a line has and every step on a token of a sort keeps holds after any tokens of
that sort. -/
theorem reading_after_holds (language : Language) {holds : Reading → Prop} {sort : Token → Prop}
    (start : holds {})
    (keeps : ∀ reading token, sort token → holds reading → holds (language.step reading token))
    {tokens : List Token} (sorted : ∀ token ∈ tokens, sort token) :
    holds (language.readingAfter tokens) := by
  induction tokens using List.reverseRecOn with
  | nil => exact start
  | append_singleton tokens token induction =>
      have before := induction fun other member => sorted other (by simp [member])
      cases done : (language.readingAfter tokens).expects.done with
      | true =>
          rw [reading_after_done language done]
          exact before
      | false =>
          rw [reading_after_step language done]
          exact keeps _ token (sorted token (by simp)) before

theorem reading_after_live (language : Language) {tokens : List Token}
    (undone : (language.readingAfter tokens).expects.done = false) :
    (language.readingAfter tokens).Live := by
  have start : Reading.Live {} := ⟨Symbol.shaped_empty, .inl ⟨rfl, rfl, fun _ => rfl⟩⟩
  rcases language.run_live tokens (.inl start) with live | ended
  · exact live
  · exact absurd (undone.symm.trans ended.done) (by decide)

end Language

namespace NameFirst

open Reading DocComment.Language

def Awaits (reading : Reading) : Prop :=
  reading.expects.value = true ∨ reading.expects.variableType = true

def IsSign (token : Token) (after : Reading) : Prop :=
  after.symbol.kind = .var ∧ (token.kind = .assign ∧ after.expects.value = true ∨
    token.kind = .colon ∧ after.expects.variableType = true)

structure SignStep (before : Reading) (token : Token) (after : Reading) : Prop where
  value : after.expects.value = true →
    before.expects.value = true ∨ (token.kind = .assign ∧ after.symbol.kind = .var)
  type : after.expects.variableType = true →
    before.expects.variableType = true ∨ (token.kind = .colon ∧ after.symbol.kind = .var)
  tentative : after.expects.tentativeArrow = before.expects.tentativeArrow
  done : before.expects.done = true → after.expects.done = true

theorem SignStep.awaits {before after : Reading} {token : Token} (step : SignStep before token after)
    (awaits : Awaits after) : Awaits before ∨ IsSign token after := by
  rcases awaits with value | type
  · rcases step.value value with earlier | ⟨sign, kind⟩
    · exact .inl (.inl earlier)
    · exact .inr ⟨kind, .inl ⟨sign, value⟩⟩
  · rcases step.type type with earlier | ⟨sign, kind⟩
    · exact .inl (.inr earlier)
    · exact .inr ⟨kind, .inr ⟨sign, type⟩⟩

section

variable (reading : Reading) (token : Token)

theorem undeclared_signs : SignStep reading token (undeclared reading token) := by
  unfold undeclared
  dsimp only
  split
  · split
    all_goals exact ⟨.inl, .inl, rfl, id⟩
  split
  · exact ⟨.inl, .inl, rfl, fun _ => rfl⟩
  split
  · exact ⟨.inl, .inl, rfl, id⟩
  split
  · split
    · exact ⟨.inl, .inl, rfl, id⟩
    split
    all_goals exact ⟨.inl, .inl, rfl, id⟩
  · split
    all_goals exact ⟨.inl, .inl, rfl, id⟩
  · next sign =>
      split
      · exact ⟨fun _ => .inr ⟨sign, rfl⟩, .inl, rfl, id⟩
      · exact ⟨.inl, .inl, rfl, id⟩
  · next sign =>
      split
      · exact ⟨.inl, fun _ => .inr ⟨sign, rfl⟩, rfl, id⟩
      · exact ⟨.inl, .inl, rfl, id⟩
  · exact ⟨.inl, .inl, rfl, id⟩

theorem declared_signs (kind : reading.symbol.kind = .var) :
    SignStep reading token (declared reading token) := by
  unfold declared
  split
  · next extended found =>
      split at found
      · obtain ⟨type, depth, rfl⟩ := extend_variable_frame found
        exact ⟨.inl, .inl, rfl, id⟩
      · contradiction
  · dsimp only
    split
    · next colon => exact ⟨.inl, fun _ => .inr ⟨colon.1, kind⟩, rfl, id⟩
    split
    · next sign => exact ⟨fun _ => .inr ⟨sign, kind⟩, nofun, rfl, id⟩
    split
    · exact ⟨.inl, nofun, rfl, fun _ => rfl⟩
    split
    · exact ⟨.inl, nofun, rfl, fun _ => rfl⟩
    · exact ⟨.inl, nofun, rfl, id⟩

theorem variable_rule_signs : SignStep reading token (variableRule reading token) := by
  unfold variableRule
  split
  · exact undeclared_signs reading token
  · next kind =>
      split
      · split
        all_goals exact ⟨.inl, .inl, rfl, id⟩
      · exact declared_signs reading token kind
  all_goals exact ⟨.inl, .inl, rfl, id⟩

structure ListStep (before : Reading) (token : Token) (after : Reading) : Prop where
  tentative : after.expects.tentativeArrow = before.expects.tentativeArrow
  done : after.expects.done = before.expects.done
  list : after.expects.inList = before.expects.inList ∨
    (token.kind = .closeParen ∧ after.expects.listClosed = true)

theorem pattern_list : ListStep reading token (pattern reading token) := by
  unfold pattern
  split
  case h_7 =>
    split <;> exact ⟨rfl, rfl, .inl rfl⟩
  all_goals exact ⟨rfl, rfl, .inl rfl⟩

theorem list_token_list : ListStep reading token (listToken reading token) := by
  unfold listToken
  split
  case h_3 sign => exact ⟨rfl, rfl, .inr ⟨sign, rfl⟩⟩
  case h_7 =>
    split <;> exact ⟨rfl, rfl, .inl rfl⟩
  all_goals exact ⟨rfl, rfl, .inl rfl⟩

theorem parameters_list : ListStep reading token (parameters reading token) := by
  unfold parameters
  split
  · exact ⟨rfl, rfl, .inl rfl⟩
  split
  · next taken found =>
      rcases Option.or_eq_some_iff.1 found with value | ⟨_, type⟩
      · simp only [DefaultValue.expected?, DefaultValue.collect?] at value
        split at value
        · obtain ⟨nesting, _, rfl⟩ := Option.map_eq_some_iff.1 value
          exact ⟨rfl, rfl, .inl rfl⟩
        · contradiction
      · simp only [parameterType?] at type
        split at type
        · contradiction
        split at type
        · obtain ⟨extension, _, rfl⟩ := Option.map_eq_some_iff.1 type
          exact ⟨rfl, rfl, .inl rfl⟩
        · obtain ⟨last, _, extended⟩ := Option.bind_eq_some_iff.1 type
          obtain ⟨extension, _, rfl⟩ := Option.map_eq_some_iff.1 extended
          exact ⟨rfl, rfl, .inl rfl⟩
  · dsimp only
    split
    · have inner := pattern_list { reading with expects.parameterType := false } token
      exact ⟨inner.tentative, inner.done, inner.list⟩
    · have inner := list_token_list { reading with expects.parameterType := false } token
      exact ⟨inner.tentative, inner.done, inner.list⟩

/-- An arrow becomes tentative only where a parenthesis opens the list of a variable. -/
theorem function_tentative (tentative : (function reading token).expects.tentativeArrow = true) :
    reading.expects.tentativeArrow = true ∨
      (reading.symbol.kind = .var ∧ token.kind = .openParen ∧ opensList reading = true ∧
        function reading token = openList reading) := by
  by_cases before : reading.expects.tentativeArrow = true
  · exact .inl before
  refine .inr ?_
  -- The branches are taken in the order of the rule; all but the one that opens a list keep the flag.
  unfold function at tentative ⊢
  dsimp only at tentative ⊢
  split at tentative
  · cases name_first_after_list reading token with
    | waits _ _ same => exact absurd (same.symm.trans tentative) before
    | settled _ settled => simp [settled] at tentative
    | abandoned _ _ _ settled => simp [settled] at tentative
  next unlisted =>
  rw [if_neg unlisted]
  split at tentative
  · exact absurd tentative before
  next unworded =>
  rw [if_neg unworded]
  split at tentative
  · exact absurd tentative before
  next unnamed =>
  rw [if_neg unnamed]
  split at tentative
  · next opens =>
      rw [if_pos opens]
      simp only [Bool.and_eq_true, beq_iff_eq] at opens
      refine ⟨?_, opens.1, opens.2, rfl⟩
      unfold openList at tentative
      dsimp only at tentative
      split at tentative
      · exact absurd tentative before
      · next kind => exact kind
      · exact absurd tentative before
      · exact absurd tentative before
  · exact absurd tentative before

end

theorem step_eq_rules (reading : Reading) (token : Token) :
    Language.javascript.step reading token = past (variableRule (parameters
      (function (Language.javascript.classRule reading token) token) token) token) token.kind :=
  rfl

section

variable {reading after : Reading} {token : Token}

theorem step_tentative
    (tentative : (Language.javascript.step reading token).expects.tentativeArrow = true) :
    (function (Language.javascript.classRule reading token) token).expects.tentativeArrow =
      true := by
  rw [step_eq_rules] at tentative
  have signs := (variable_rule_signs (parameters
    (function (Language.javascript.classRule reading token) token) token) token).tentative
  exact (parameters_list _ token).tentative.symm.trans (signs.symm.trans tentative)

/-- Where no function comes out and the reading goes on, only the rule for variables has acted. -/
theorem rules_plain (live : reading.Live)
    (ruled : variableRule (parameters (function reading token) token) token = after)
    (plain : after.symbol.kind ≠ .function) (undone : after.expects.done = false) :
    parameters (function reading token) token = reading := by
  subst ruled
  have list := parameters_list (function reading token) token
  have uncalled : (function reading token).symbol.kind ≠ .function := by
    intro kind
    have same := Language.javascript.parameter_rule_same (function reading token) token
    have listed : (parameters (function reading token) token).symbol.kind = .function :=
      same.symbol.kind.trans kind
    have last : variableRule (parameters (function reading token) token) token =
        parameters (function reading token) token :=
      Language.javascript.variable_rule_ignores token (.inl listed)
    rw [last] at plain
    exact plain listed
  have same : function reading token = reading := by
    rcases name_first_function_kind reading token with same | ⟨_, kind⟩ | ⟨_, _, _, done⟩
    · exact same
    · exact absurd kind uncalled
    · have last := (variable_rule_signs _ token).done (list.done.trans done)
      simp [undone] at last
  rw [same] at uncalled ⊢
  have unlisted := live.unlisted uncalled
  exact Language.javascript.parameter_rule_outside token
    (by simp [Expectations.inList, unlisted.parameter])

section

variable (live : reading.Live) (stepped : Language.javascript.step reading token = after)
  (plain : after.symbol.kind ≠ .function) (undone : after.expects.done = false)
include live stepped plain undone

theorem step_plain :
    after = past (variableRule (Language.javascript.classRule reading token) token) token.kind := by
  subst stepped
  have classed := Language.javascript.class_rule_live token live
  rw [step_eq_rules, rules_plain classed rfl plain undone]

theorem step_awaits (awaits : Awaits after) : Awaits reading ∨ IsSign token after := by
  obtain ⟨value, type, _⟩ := class_rule_expects .javascript reading token
  have signs := variable_rule_signs (Language.javascript.classRule reading token) token
  rw [step_plain live stepped plain undone] at awaits ⊢
  rcases signs.awaits awaits with earlier | sign
  · rw [Awaits, value, type] at earlier
    exact .inl earlier
  · exact .inr sign

/-- A function that is left for good takes the reading to its end. -/
theorem step_plain_before : reading.symbol.kind ≠ .function := by
  intro kind
  have same := step_plain live stepped plain undone
  have last : variableRule reading token = reading :=
    Language.javascript.variable_rule_ignores token (.inl kind)
  rw [Language.javascript.class_rule_ignores token (.inl kind), last] at same
  rw [same] at plain
  exact plain kind

end

end

abbrev reached (tokens : List Token) : Reading := Language.javascript.readingAfter tokens

def Signed (tokens : List Token) : Prop :=
  ∃ before sign between, tokens = before ++ sign :: between ∧
    IsSign sign (reached (before ++ [sign]))

/-- A parenthesis after a sign of a variable opens a list that has no arrow yet. -/
structure OpensTentatively (opening : List Token) (paren : Token) : Prop where
  signed : Signed opening
  declared : (reached opening).symbol.kind = .var
  sign : paren.kind = .openParen
  called : (reached (opening ++ [paren])).symbol.kind = .function
  tentative : (reached (opening ++ [paren])).expects.tentativeArrow = true

def Grouping (tokens : List Token) : Prop :=
  ∃ opening paren inside, tokens = opening ++ paren :: inside ∧ OpensTentatively opening paren ∧
    (reached tokens).expects.inList = true

/-- A list that was opened tentatively has been closed, and no arrow has come after it. -/
def Grouped (tokens : List Token) : Prop :=
  ∃ inner closing rest, tokens = inner ++ closing :: rest ∧ Grouping inner ∧
    closing.kind = .closeParen ∧ (reached (inner ++ [closing])).expects.listClosed = true ∧
    ∀ token ∈ rest, token.kind ≠ .fatArrow

theorem Signed.snoc {tokens : List Token} (signed : Signed tokens) (token : Token) :
    Signed (tokens ++ [token]) := by
  obtain ⟨before, sign, between, rfl, found⟩ := signed
  exact ⟨before, sign, between ++ [token], by simp, found⟩

theorem Grouped.snoc {tokens : List Token} (grouped : Grouped tokens) {token : Token}
    (unconfirmed : token.kind ≠ .fatArrow) : Grouped (tokens ++ [token]) := by
  obtain ⟨inner, closing, rest, rfl, inside, sign, closed, arrowless⟩ := grouped
  refine ⟨inner, closing, rest ++ [token], by simp, inside, sign, closed, ?_⟩
  intro other member
  rcases List.mem_append.1 member with earlier | last
  · exact arrowless other earlier
  · rw [List.mem_singleton.1 last]
    exact unconfirmed

/-- What is known while an arrow is tentative: the list is open, or it is closed without an arrow
after it. -/
structure Tentative (tokens : List Token) : Prop where
  undone : (reached tokens).expects.done = false
  kind : (reached tokens).symbol.kind = .function
  group : Grouping tokens ∨ (reached tokens).expects.listClosed = true ∧ Grouped tokens

structure Traced (tokens : List Token) : Prop where
  undeclared : (reached tokens).expects.done = false → (reached tokens).symbol.kind = .unset →
    ¬ Awaits (reached tokens)
  signed : (reached tokens).expects.done = false → (reached tokens).symbol.kind = .var →
    Awaits (reached tokens) → Signed tokens
  tentative : (reached tokens).expects.tentativeArrow = true → Tentative tokens

section

variable {tokens : List Token} {token : Token}

theorem tentative_of_opened (undone : (reached tokens).expects.done = false)
    (kind : (reached tokens).symbol.kind = .var) (signed : Signed tokens)
    (sign : token.kind = .openParen)
    (opened : function (reached tokens) token = openList (reached tokens)) :
    Tentative (tokens ++ [token]) := by
  have unlisted := (Language.javascript.reading_after_live undone).unlisted (by simp [kind])
  have list : (openList (reached tokens)).expects.tentativeArrow = true ∧
      (openList (reached tokens)).expects.done = false ∧
      (openList (reached tokens)).expects.inList = true := by
    simp [openList, kind, Expectations.openList, Expectations.inList, undone, unlisted.closed]
  have frame := parameters_list (openList (reached tokens)) token
  have listKind : (parameters (openList (reached tokens)) token).symbol.kind = .function :=
    (name_first_parameters_same _ token).symbol.kind.trans (name_first_open_list_kind _)
  have after : reached (tokens ++ [token]) =
      past (parameters (openList (reached tokens)) token) token.kind := by
    have last := Language.javascript.variable_rule_ignores token (.inl listKind)
    rw [reached, reading_after_step _ undone, step_eq_rules,
      Language.javascript.class_rule_ignores token (.inr kind), opened]
    exact congrArg (past · token.kind) last
  have inside : (reached (tokens ++ [token])).expects.inList = true := by
    rcases frame.list with same | ⟨closing, _⟩
    · rw [after]
      exact same.trans list.2.2
    · simp [sign] at closing
  have opens : OpensTentatively tokens token := by
    refine ⟨signed, kind, sign, ?_, ?_⟩
    · rw [after]
      exact listKind
    · rw [after]
      exact frame.tentative.trans list.1
  refine ⟨?_, opens.called, .inl ⟨tokens, token, [], by simp, opens, inside⟩⟩
  rw [after]
  exact frame.done.trans list.2.1

theorem tentative_of_grouping (undone : (reached tokens).expects.done = false)
    (kind : (reached tokens).symbol.kind = .function) (grouping : Grouping tokens) (token : Token) :
    Tentative (tokens ++ [token]) := by
  obtain ⟨opening, paren, inside, same, opens, inList⟩ := grouping
  have listed := (Language.javascript.reading_after_live undone).listed_of_in_list inList
  have after : reached (tokens ++ [token]) =
      past (parameters (reached tokens) token) token.kind := by
    rw [reached, reading_after_step _ undone]
    exact Language.javascript.step_in_list _ token kind inList listed.named
  have frame := parameters_list (reached tokens) token
  refine ⟨?_, ?_, ?_⟩
  · rw [after]
    exact frame.done.trans undone
  · rw [after]
    exact (name_first_parameters_same _ token).symbol.kind.trans kind
  · rcases frame.list with stays | ⟨closing, closed⟩
    · refine .inl ⟨opening, paren, inside ++ [token], by simp [same], opens, ?_⟩
      rw [after]
      exact stays.trans inList
    · have closedAfter : (reached (tokens ++ [token])).expects.listClosed = true := by
        rw [after]
        exact closed
      exact .inr ⟨closedAfter, tokens, token, [], rfl,
        ⟨opening, paren, inside, same, opens, inList⟩, closing, closedAfter, by simp⟩

theorem tentative_of_grouped (undone : (reached tokens).expects.done = false)
    (kind : (reached tokens).symbol.kind = .function)
    (closed : (reached tokens).expects.listClosed = true) (grouped : Grouped tokens)
    (tentative : (reached (tokens ++ [token])).expects.tentativeArrow = true) :
    Tentative (tokens ++ [token]) := by
  have rule : function (reached tokens) token = afterList (reached tokens) token := by
    simp [function, kind, closed]
  rw [reached, reading_after_step _ undone] at tentative
  have arrow := step_tentative tentative
  rw [Language.javascript.class_rule_ignores token (.inl kind), rule] at arrow
  cases name_first_after_list (reached tokens) token with
  | waits kindAfter unconfirmed _ closedAfter doneAfter =>
      have after : reached (tokens ++ [token]) =
          past (afterList (reached tokens) token) token.kind := by
        rw [reached, reading_after_step _ undone, ← rule]
        apply Language.javascript.step_past_list _ token kind
        · exact (congrArg (·.symbol.kind) rule).trans (kindAfter.trans kind)
        · change (function (reached tokens) token).expects.inList = false
          simp [rule, Expectations.inList, closedAfter, closed]
      refine ⟨?_, ?_, .inr ⟨?_, grouped.snoc unconfirmed⟩⟩
      · rw [after]
        exact doneAfter.trans undone
      · rw [after]
        exact kindAfter.trans kind
      · rw [after]
        exact closedAfter.trans closed
  | settled _ settled => simp [settled] at arrow
  | abandoned _ _ _ settled => simp [settled] at arrow

/-- A sign with something still to come after it was read now or before. -/
theorem signed_of_awaits (traced : Traced tokens) (before : (reached tokens).expects.done = false)
    (undone : (reached (tokens ++ [token])).expects.done = false)
    (plain : (reached (tokens ++ [token])).symbol.kind ≠ .function)
    (awaits : Awaits (reached (tokens ++ [token]))) :
    (reached (tokens ++ [token])).symbol.kind ≠ .unset ∧
      ((reached (tokens ++ [token])).symbol.kind = .var → Signed (tokens ++ [token])) := by
  have live := Language.javascript.reading_after_live before
  have stepped := (Language.javascript.reading_after_step before token).symm
  have uncalled := step_plain_before live stepped plain undone
  rcases step_awaits live stepped plain undone awaits with earlier | sign
  · have declared : (reached tokens).symbol.kind ≠ .unset := by
      intro unset
      exact traced.undeclared before unset earlier
    have moved := Language.javascript.step_kind (reached tokens) token
    rw [stepped] at moved
    cases moved with
    | same kind =>
        rw [kind]
        refine ⟨declared, ?_⟩
        intro named
        exact (traced.signed before named earlier).snoc token
    | declared unset => exact absurd unset declared
    | called _ function => exact absurd function plain
    | regrouped _ _ function => exact absurd function uncalled
    | dismissed php => contradiction
  · refine ⟨by simp [sign.1], ?_⟩
    intro _
    exact ⟨tokens, token, [], rfl, sign⟩

theorem awaits_of_opens_list {reading : Reading} (kind : reading.symbol.kind = .var)
    (opens : opensList reading = true) : Awaits reading := by
  simp only [opensList, kind] at opens
  split at opens
  · contradiction
  rcases Bool.or_eq_true_iff.1 opens with value | type
  · exact .inl value
  · exact .inr (Bool.and_eq_true_iff.1 type).1

theorem tentative_step (traced : Traced tokens) (undone : (reached tokens).expects.done = false)
    (tentative : (reached (tokens ++ [token])).expects.tentativeArrow = true) :
    Tentative (tokens ++ [token]) := by
  have arrow := tentative
  rw [reached, Language.javascript.reading_after_step undone token] at arrow
  rcases function_tentative _ token (step_tentative arrow) with
    before | ⟨kind, sign, opens, opened⟩
  · rw [(class_rule_expects .javascript _ token).2.2] at before
    obtain ⟨_, kind, grouping | ⟨closed, grouped⟩⟩ := traced.tentative before
    · exact tentative_of_grouping undone kind grouping token
    · exact tentative_of_grouped undone kind closed grouped tentative
  · have unclassed := class_rule_of_variable .javascript _ token kind
    rw [unclassed] at kind opens opened
    have signed := traced.signed undone kind (awaits_of_opens_list kind opens)
    exact tentative_of_opened undone kind signed sign opened

theorem traced_step (traced : Traced tokens) (token : Token) : Traced (tokens ++ [token]) := by
  cases done : (reached tokens).expects.done with
  | true =>
      have same := Language.javascript.reading_after_done done token
      refine ⟨?_, ?_, ?_⟩
      · intro undone
        rw [reached, same, done] at undone
        contradiction
      · intro undone
        rw [reached, same, done] at undone
        contradiction
      · intro tentative
        rw [reached, same] at tentative
        exact absurd (done.symm.trans (traced.tentative tentative).undone) (by decide)
  | false =>
      refine ⟨?_, ?_, ?_⟩
      · intro undone unset awaits
        have plain : (reached (tokens ++ [token])).symbol.kind ≠ .function := by simp [unset]
        exact (signed_of_awaits traced done undone plain awaits).1 unset
      · intro undone kind awaits
        have plain : (reached (tokens ++ [token])).symbol.kind ≠ .function := by simp [kind]
        exact (signed_of_awaits traced done undone plain awaits).2 kind
      · intro tentative
        exact tentative_step traced done tentative

end

/-- The tokens say so after every part of a line. -/
theorem traced (tokens : List Token) : Traced tokens := by
  induction tokens using List.reverseRecOn with
  | nil => exact ⟨by simp [Awaits, reached, readingAfter], nofun, nofun⟩
  | append_singleton tokens token induction => exact traced_step induction token

/-- A function that no arrow can undo any more. -/
structure Settled (reading : Reading) : Prop where
  kind : reading.symbol.kind = .function
  arrow : reading.expects.tentativeArrow = false

theorem settled_step {reading : Reading} (settled : Settled reading) (token : Token) :
    Settled (Language.javascript.step reading token) := by
  have decided : ¬ (reading.Undecided ∧ token.kind ≠ .fatArrow) := by
    simp [Undecided, settled.arrow]
  have moved := Language.javascript.step_kind reading token
  refine ⟨moved.function_stays settled.kind (.inr decided), ?_⟩
  rw [Bool.eq_false_iff]
  intro tentative
  have arrow := step_tentative tentative
  rw [Language.javascript.class_rule_ignores token (.inl settled.kind)] at arrow
  rcases function_tentative reading token arrow with before | ⟨kind, _⟩
  · simp [settled.arrow] at before
  · simp [settled.kind] at kind

theorem grouped_of_undecided {tokens : List Token} (undecided : (reached tokens).Undecided) :
    Grouped tokens := by
  rcases ((traced tokens).tentative undecided.1).group with ⟨_, _, _, _, _, inList⟩ | ⟨_, grouped⟩
  · simp [Expectations.inList, undecided.2] at inList
  · exact grouped

end NameFirst

end DocComment
