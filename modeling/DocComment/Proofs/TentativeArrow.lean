import DocComment.Proofs.BareVariable
import DocComment.Proofs.Destructuring

/-!
A parenthesis behind the sign of a variable. It is read as a list of parameters until its end shows
what it was: an arrow makes the variable a function, and anything else gives the variable back.
Until then any tokens may stand in it, and they are read as names, types, values and patterns. The
main statement is that the closing parenthesis is noticed in each of these states if the brackets
ahead of it are properly nested, and that nothing read ahead of it is left in a variable.
-/

namespace DocComment.NameFirst

open Token Grammar TypeText DefaultValue

def isEnclosing : Kind → Bool
  | .openParen | .closeParen | .openBrace | .closeBrace | .openBracket | .closeBracket => true
  | _ => false

/-- No parentheses, and every other bracket is closed by one of its kind. -/
inductive Nested : List Lexeme → Prop where
  | nil : Nested []
  | plain {lexeme : Lexeme} {rest : List Lexeme} (plain : isEnclosing lexeme.1 = false)
      (further : Nested rest) : Nested (lexeme :: rest)
  | enclosed (bracket : Bracket) (opening closing : String) {inside rest : List Lexeme}
      (within : Nested inside) (further : Nested rest) :
      Nested ((bracket.opening.1, opening) :: inside ++ (bracket.closing.1, closing) :: rest)

def outside (expects : Expectations) : Expectations :=
  { expects with
    parameterType := false, value := false, genericDepth := 0, nesting := 0, patternDepth := 0,
    pendingType := none, previous := none }

/-- No value is expected, or the token ends it. -/
def Refused (expects : Expectations) (token : Token) : Prop :=
  expects.value = true → nestingAfter? expects.nesting token.kind = none

inductive ListTurn (reading : Reading) (token : Token) (after : Reading) : Prop where
  | collected (nesting : Nat) (expected : reading.expects.value = true)
      (counted : nestingAfter? reading.expects.nesting token.kind = some nesting)
      (same : after.expects = { reading.expects with nesting })
  | typed (pendingType : Option String) (genericDepth : Nat)
      (refused : Refused reading.expects token) (expected : reading.expects.parameterType = true)
      (taken : token.kind ≠ .openBrace ∧ token.kind ≠ .closeBrace ∧ token.kind ≠ .closeParen)
      (same : after.expects = { reading.expects with pendingType, genericDepth })
  | patterned (refused : Refused reading.expects token)
      (within : 0 < reading.expects.patternDepth)
      (same : after = pattern { reading with expects.parameterType := false } token)
  | listed (refused : Refused reading.expects token)
      (unpatterned : reading.expects.patternDepth = 0)
      (same : after = listToken { reading with expects.parameterType := false } token)

theorem taken_of_extend {type : Option String} {depth : Nat} {token : Token}
    {extension : String × Nat} (extended : extend? type depth token = some extension) :
    token.kind ≠ .openBrace ∧ token.kind ≠ .closeBrace ∧ token.kind ≠ .closeParen := by
  refine ⟨?_, ?_, ?_⟩ <;>
    · intro sign
      simp [extend?, addition?, sign] at extended

theorem parameters_turn {reading : Reading} (token : Token)
    (inList : reading.expects.inList = true) :
    ListTurn reading token (parameters reading token) := by
  simp only [parameters, inList, Bool.not_true, Bool.false_eq_true, if_false]
  cases value : expected? reading token with
  | some taken =>
      simp only [expected?, collect?] at value
      split at value
      · next expected =>
          obtain ⟨nesting, counted, rfl⟩ := Option.map_eq_some_iff.1 value
          exact .collected nesting expected counted rfl
      · contradiction
  | none =>
      have refused : Refused reading.expects token := by
        intro expected
        simpa [expected?, collect?, expected] using value
      rw [Option.none_or]
      cases type : parameterType? reading token with
      | some taken =>
          simp only [parameterType?] at type
          split at type
          · contradiction
          next expected =>
            have expected : reading.expects.parameterType = true := by simpa using expected
            split at type
            · obtain ⟨extension, extended, rfl⟩ := Option.map_eq_some_iff.1 type
              exact .typed (some extension.1) extension.2 refused expected
                (taken_of_extend extended) rfl
            · obtain ⟨last, _, composed⟩ := Option.bind_eq_some_iff.1 type
              obtain ⟨extension, extended, rfl⟩ := Option.map_eq_some_iff.1 composed
              exact .typed reading.expects.pendingType extension.2 refused expected
                (taken_of_extend extended) rfl
      | none =>
          dsimp only
          split
          · next within => exact .patterned refused within rfl
          · next unpatterned =>
              exact .listed refused (Nat.eq_zero_of_not_pos unpatterned) rfl

/-- In a parenthesis that may be a group, at this depth of patterns and of brackets in a value. A
bracket is open in a value only if a value is expected, and a pattern has no types. -/
structure Scanning (held : Option String) (depth nesting : Nat) (expects : Expectations) :
    Prop where
  frame : outside expects = { parameter := true, tentativeArrow := true, heldType := held }
  patterns : expects.patternDepth = depth
  brackets : expects.nesting = nesting
  valued : 0 < nesting → expects.value = true
  untyped : 0 < depth → expects.parameterType = false

section

variable {held : Option String} {depth nesting : Nat} {reading : Reading} {token : Token}

theorem Scanning.in_list {expects : Expectations} (scanning : Scanning held depth nesting expects) :
    expects.inList = true :=
  congrArg Expectations.inList scanning.frame

/-- What is no part of a value finds no bracket of one open. -/
theorem Scanning.flat {expects : Expectations} (scanning : Scanning held depth nesting expects)
    (refused : Refused expects token) : nesting = 0 := by
  rcases Nat.eq_zero_or_pos nesting with flat | deep
  · exact flat
  · have ended := refused (scanning.valued deep)
    rw [scanning.brackets] at ended
    have open' : nesting ≠ 0 := Nat.ne_of_gt deep
    cases kind : token.kind <;> simp [nestingAfter?, kind, open'] at ended

theorem Scanning.extended {expects : Expectations} (scanning : Scanning held depth nesting expects)
    (pendingType : Option String) (genericDepth : Nat) :
    Scanning held depth nesting { expects with pendingType, genericDepth } :=
  ⟨scanning.frame, scanning.patterns, scanning.brackets, scanning.valued, scanning.untyped⟩

theorem Scanning.counted {expects : Expectations} (scanning : Scanning held depth nesting expects)
    (expected : expects.value = true) (after : Nat) :
    Scanning held depth after { expects with nesting := after } :=
  ⟨scanning.frame, scanning.patterns, rfl, fun _ => expected, scanning.untyped⟩

structure Settles (before after : Expectations) : Prop where
  frame : outside after = outside before
  brackets : after.nesting = before.nesting ∨ after.nesting = 0

theorem Scanning.settle {before after : Expectations} {depth' : Nat}
    (scanning : Scanning held depth nesting before) (refused : Refused before token)
    (settles : Settles before after) (patterns : after.patternDepth = depth')
    (untyped : 0 < depth' → after.parameterType = false) : Scanning held depth' 0 after := by
  have brackets : after.nesting = 0 := by
    rcases settles.brackets with same | zero
    · rw [same, scanning.brackets, scanning.flat refused]
    · exact zero
  exact ⟨settles.frame.trans scanning.frame, patterns, brackets,
    fun deep => absurd deep (Nat.lt_irrefl 0), untyped⟩

theorem pattern_settles (reading : Reading) (token : Token) :
    Settles reading.expects (pattern reading token).expects ∧
      (pattern reading token).expects.parameterType = reading.expects.parameterType := by
  unfold pattern
  split
  case h_7 =>
    split
    · exact ⟨⟨rfl, .inl rfl⟩, rfl⟩
    · exact ⟨⟨rfl, .inl rfl⟩, rfl⟩
  all_goals exact ⟨⟨rfl, .inl rfl⟩, rfl⟩

theorem list_token_settles (reading : Reading) (notClose : token.kind ≠ .closeParen) :
    Settles reading.expects (listToken reading token).expects := by
  unfold listToken
  split
  case h_3 close => exact absurd close notClose
  case h_4 => exact ⟨rfl, .inr rfl⟩
  case h_7 =>
    split
    · exact ⟨rfl, .inl rfl⟩
    · exact ⟨rfl, .inl rfl⟩
  all_goals exact ⟨rfl, .inl rfl⟩

theorem pattern_depth_plain (reading : Reading) (plain : isEnclosing token.kind = false) :
    (pattern reading token).expects.patternDepth = reading.expects.patternDepth := by
  cases kind : token.kind <;> simp [isEnclosing, kind] at plain <;> simp [pattern, kind]
  split <;> rfl

theorem list_depth_plain (reading : Reading) (plain : isEnclosing token.kind = false) :
    (listToken reading token).expects.patternDepth = reading.expects.patternDepth := by
  cases kind : token.kind <;> simp [isEnclosing, kind] at plain <;>
    simp [listToken, kind, Expectations.nextParameter]
  split <;> rfl

theorem nesting_plain {kind : Kind} {after : Nat} (plain : isEnclosing kind = false)
    (counted : nestingAfter? nesting kind = some after) : after = nesting := by
  cases kind <;> simp_all [isEnclosing, nestingAfter?]

/-- In a pattern no type is expected, whatever the token. -/
theorem Scanning.patterned {depth' : Nat} (scanning : Scanning held depth nesting reading.expects)
    (refused : Refused reading.expects token)
    (patterns :
      (pattern { reading with expects.parameterType := false } token).expects.patternDepth = depth') :
    Scanning held depth' 0
      (pattern { reading with expects.parameterType := false } token).expects := by
  obtain ⟨settles, untyped⟩ := pattern_settles { reading with expects.parameterType := false } token
  exact scanning.settle refused ⟨settles.frame, settles.brackets⟩ patterns fun _ => untyped

theorem Scanning.plain (scanning : Scanning held depth nesting reading.expects)
    (plain : isEnclosing token.kind = false) :
    Scanning held depth nesting (parameters reading token).expects := by
  cases parameters_turn token scanning.in_list with
  | collected after expected counted same =>
      rw [scanning.brackets] at counted
      rw [same, nesting_plain plain counted]
      exact scanning.counted expected nesting
  | typed pendingType genericDepth refused expected taken same =>
      rw [same]
      exact scanning.extended pendingType genericDepth
  | patterned refused within same =>
      obtain rfl := scanning.flat refused
      rw [same]
      exact scanning.patterned refused ((pattern_depth_plain _ plain).trans scanning.patterns)
  | listed refused unpatterned same =>
      have outermost : depth = 0 := scanning.patterns.symm.trans unpatterned
      have notClose : token.kind ≠ .closeParen := by
        intro close
        simp [isEnclosing, close] at plain
      have settles := list_token_settles { reading with expects.parameterType := false } notClose
      obtain rfl := scanning.flat refused
      rw [same]
      exact scanning.settle refused ⟨settles.frame, settles.brackets⟩
        ((list_depth_plain _ plain).trans scanning.patterns)
        fun deep => absurd outermost (Nat.ne_of_gt deep)

theorem Scanning.past {reading : Reading} (scanning : Scanning held depth nesting reading.expects)
    (kind : Kind) : Scanning held depth nesting (Language.past reading kind).expects :=
  ⟨scanning.frame, scanning.patterns, scanning.brackets, scanning.valued, scanning.untyped⟩

/-- Behind an opening bracket: it was counted in a value or in a pattern, or it is one of a type. -/
inductive Entered (held : Option String) (bracket : Bracket) (depth nesting : Nat)
    (expects : Expectations) : Prop where
  | valued (scanning : Scanning held depth (nesting + 1) expects)
  | patterned (flat : nesting = 0) (scanning : Scanning held (depth + 1) 0 expects)
  | typed (flat : nesting = 0) (outermost : depth = 0) (square : bracket = .square)
      (scanning : Scanning held 0 0 expects)

theorem Scanning.opened {bracket : Bracket} (scanning : Scanning held depth nesting reading.expects)
    (opens : token.kind = bracket.opening.1) :
    Entered held bracket depth nesting (parameters reading token).expects := by
  cases parameters_turn token scanning.in_list with
  | collected after expected counted same =>
      have deeper : after = nesting + 1 := by
        rw [scanning.brackets, opens] at counted
        cases bracket <;> exact (Option.some.inj counted).symm
      refine .valued ?_
      rw [same, deeper]
      exact scanning.counted expected (nesting + 1)
  | typed pendingType genericDepth refused expected taken same =>
      obtain rfl := scanning.flat refused
      have outermost : depth = 0 := by
        rcases Nat.eq_zero_or_pos depth with outermost | deep
        · exact outermost
        · rw [scanning.untyped deep] at expected
          contradiction
      subst outermost
      have square : bracket = .square := by
        cases bracket with
        | brace => exact absurd opens taken.1
        | square => rfl
      refine .typed rfl rfl square ?_
      rw [same]
      exact scanning.extended pendingType genericDepth
  | patterned refused within same =>
      refine .patterned (scanning.flat refused) ?_
      rw [same]
      refine scanning.patterned refused ?_
      rw [← scanning.patterns]
      cases bracket <;> simp [pattern, opens, Bracket.opening]
  | listed refused unpatterned same =>
      have outermost : depth = 0 := scanning.patterns.symm.trans unpatterned
      have notClose : token.kind ≠ .closeParen := by
        rw [opens]
        cases bracket <;> decide
      have settles := list_token_settles { reading with expects.parameterType := false } notClose
      refine .patterned (scanning.flat refused) ?_
      rw [same, outermost]
      -- The list itself opens a pattern, and expects no type any more.
      refine scanning.settle refused ⟨settles.frame, settles.brackets⟩ ?_ fun _ => ?_
      · cases bracket <;> simp [listToken, opens, Bracket.opening]
      · cases bracket <;> simp [listToken, opens, Bracket.opening]

theorem Entered.past {reading : Reading} {bracket : Bracket}
    (entered : Entered held bracket depth nesting reading.expects) (kind : Kind) :
    Entered held bracket depth nesting (Language.past reading kind).expects := by
  cases entered with
  | valued scanning => exact .valued (scanning.past kind)
  | patterned flat scanning => exact .patterned flat (scanning.past kind)
  | typed flat outermost square scanning => exact .typed flat outermost square (scanning.past kind)

theorem Entered.closed {bracket : Bracket}
    (entered : Entered held bracket depth nesting reading.expects)
    (closes : token.kind = bracket.closing.1) :
    Scanning held depth nesting (parameters reading token).expects := by
  have notClose : token.kind ≠ .closeParen := by
    rw [closes]
    cases bracket <;> decide
  cases entered with
  | valued scanning =>
      have counted : nestingAfter? reading.expects.nesting token.kind = some nesting := by
        rw [scanning.brackets, closes]
        cases bracket <;> rfl
      have expected := scanning.valued (Nat.succ_pos nesting)
      cases parameters_turn token scanning.in_list with
      | collected after _ counted' same =>
          rw [same, Option.some.inj (counted'.symm.trans counted)]
          exact scanning.counted expected nesting
      | typed _ _ refused => exact absurd (counted.symm.trans (refused expected)) (by simp)
      | patterned refused => exact absurd (counted.symm.trans (refused expected)) (by simp)
      | listed refused => exact absurd (counted.symm.trans (refused expected)) (by simp)
  | patterned flat scanning =>
      subst flat
      cases parameters_turn token scanning.in_list with
      | collected after _ counted same =>
          rw [scanning.brackets, closes] at counted
          cases bracket <;> contradiction
      | typed _ _ _ expected =>
          rw [scanning.untyped (Nat.succ_pos depth)] at expected
          contradiction
      | patterned refused within same =>
          rw [same]
          refine scanning.patterned refused ?_
          cases bracket <;> simp [pattern, closes, Bracket.closing, scanning.patterns]
      | listed _ unpatterned => exact absurd (scanning.patterns.symm.trans unpatterned) (by simp)
  | typed flat outermost square scanning =>
      subst flat outermost square
      cases parameters_turn token scanning.in_list with
      | collected after _ counted same =>
          rw [scanning.brackets, closes] at counted
          contradiction
      | typed pendingType genericDepth refused expected taken same =>
          rw [same]
          exact scanning.extended pendingType genericDepth
      | patterned _ within =>
          rw [scanning.patterns] at within
          contradiction
      | listed refused unpatterned same =>
          have settles :=
            list_token_settles { reading with expects.parameterType := false } notClose
          rw [same]
          refine scanning.settle refused ⟨settles.frame, settles.brackets⟩ ?_
            fun deep => absurd deep (Nat.lt_irrefl 0)
          simp [listToken, closes, Bracket.closing, unpatterned]

end

/-- The name and the type of the variable are kept, whatever has been read into the parameters. -/
structure InGroup (name : String) (held : Option String) (depth nesting : Nat)
    (reading : Reading) : Prop where
  symbol : Symbol.SameButParams (introduced name) reading.symbol
  scanning : Scanning held depth nesting reading.expects

section

variable {name : String} {held : Option String} {depth nesting : Nat} {reading : Reading}

/-- In the parenthesis a token changes the list, and nothing else. -/
theorem InGroup.step (grouping : InGroup name held depth nesting reading) (lexeme : Lexeme) :
    Language.javascript.stepUnlessDone reading (ofLexeme lexeme) =
        Language.past (parameters reading (ofLexeme lexeme)) lexeme.1 ∧
      Symbol.SameButParams (introduced name) (parameters reading (ofLexeme lexeme)).symbol := by
  have frame := grouping.scanning.frame
  have undone : reading.expects.done = false := congrArg Expectations.done frame
  have unnamed : reading.expects.name = false := congrArg Expectations.name frame
  have same := Language.parameter_rule_same .javascript reading (ofLexeme lexeme)
  refine ⟨?_, grouping.symbol.trans same.symbol⟩
  rw [Language.stepUnlessDone, undone, if_neg Bool.false_ne_true]
  exact Language.step_in_list .javascript reading (ofLexeme lexeme) grouping.symbol.kind
    grouping.scanning.in_list unnamed

theorem Entered.grouping {bracket : Bracket}
    (entered : Entered held bracket depth nesting reading.expects)
    (symbol : Symbol.SameButParams (introduced name) reading.symbol) :
    ∃ depth' nesting', InGroup name held depth' nesting' reading := by
  cases entered with
  | valued scanning => exact ⟨_, _, symbol, scanning⟩
  | patterned _ scanning => exact ⟨_, _, symbol, scanning⟩
  | typed _ _ _ scanning => exact ⟨_, _, symbol, scanning⟩

/-- Whichever way a bracket was counted, what keeps every count keeps this one. -/
theorem Entered.keep {bracket : Bracket} {after : Reading}
    (entered : Entered held bracket depth nesting reading.expects)
    (symbol : Symbol.SameButParams (introduced name) reading.symbol)
    (keeps : ∀ {depth nesting : Nat}, InGroup name held depth nesting reading →
      InGroup name held depth nesting after) :
    Symbol.SameButParams (introduced name) after.symbol ∧
      Entered held bracket depth nesting after.expects := by
  cases entered with
  | valued scanning =>
      have kept := keeps ⟨symbol, scanning⟩
      exact ⟨kept.symbol, .valued kept.scanning⟩
  | patterned flat scanning =>
      have kept := keeps ⟨symbol, scanning⟩
      exact ⟨kept.symbol, .patterned flat kept.scanning⟩
  | typed flat outermost square scanning =>
      have kept := keeps ⟨symbol, scanning⟩
      exact ⟨kept.symbol, .typed flat outermost square kept.scanning⟩

/-- Properly nested tokens leave both depths as they were. -/
theorem InGroup.read {lexemes : List Lexeme} (nested : Nested lexemes)
    (grouping : InGroup name held depth nesting reading) :
    InGroup name held depth nesting (Language.javascript.read reading lexemes) := by
  induction nested generalizing depth nesting reading with
  | nil => exact grouping
  | @plain lexeme rest plain further induction =>
      obtain ⟨stepped, symbol⟩ := grouping.step lexeme
      rw [Language.read_cons, stepped]
      exact induction ⟨symbol, (grouping.scanning.plain plain).past _⟩
  | @enclosed bracket opening closing inside rest within further inner outer =>
      obtain ⟨opened, symbol⟩ := grouping.step (bracket.opening.1, opening)
      have entered : Entered held bracket depth nesting
          (Language.past (parameters reading (ofLexeme (bracket.opening.1, opening)))
            bracket.opening.1).expects :=
        (grouping.scanning.opened rfl).past _
      obtain ⟨symbol, entered⟩ := entered.keep symbol inner
      obtain ⟨_, _, inside⟩ := entered.grouping symbol
      obtain ⟨closed, symbol⟩ := inside.step (bracket.closing.1, closing)
      rw [List.cons_append, Language.read_cons, opened, Language.read_append, Language.read_cons,
        closed]
      exact outer ⟨symbol, (entered.closed rfl).past _⟩

def closedGroup (name : String) (held : Option String) (params : List Symbol.Param) : Reading where
  symbol := { introduced name with params }
  expects := {
    listClosed := true, tentativeArrow := true, heldType := held, previous := some .closeParen }

theorem InGroup.close (grouping : InGroup name held 0 0 reading) :
    ∃ params, Language.javascript.stepUnlessDone reading (ofLexeme (.closeParen, ")")) =
      closedGroup name held params := by
  refine ⟨reading.symbol.params, ?_⟩
  obtain ⟨stepped, _⟩ := grouping.step (.closeParen, ")")
  have scanning := grouping.scanning
  rw [stepped]
  cases parameters_turn (ofLexeme (.closeParen, ")")) scanning.in_list with
  | collected after _ counted =>
      rw [scanning.brackets] at counted
      contradiction
  | typed _ _ _ _ taken => exact absurd rfl taken.2.2
  | patterned _ within =>
      rw [scanning.patterns] at within
      contradiction
  | listed refused unpatterned same =>
      have symbol : reading.symbol = { introduced name with params := reading.symbol.params } := by
        obtain ⟨named, kind, returns, untyped⟩ := grouping.symbol
        cases whole : reading.symbol
        simp_all
      have expects : { reading.expects.closeList with previous := some .closeParen } =
          { outside reading.expects with
            parameter := false, listClosed := true, previous := some .closeParen
            patternDepth := reading.expects.patternDepth } := rfl
      rw [scanning.frame, unpatterned] at expects
      rw [same]
      exact congrArg₂ Reading.mk symbol expects

end

section

variable {name : String} {held : Option String} {params : List Symbol.Param} {lexeme : Lexeme}

theorem concluded_of_arrow (arrow : lexeme.1 = .fatArrow) :
    Language.javascript.Concluded { introduced name with params }
      (Language.javascript.stepUnlessDone (closedGroup name held params) (ofLexeme lexeme)) := by
  have rule : Language.javascript.functionRule (closedGroup name held params) (ofLexeme lexeme) =
      { closedGroup name held params with
        expects.tentativeArrow := false, expects.done := true } := by
    simp [Language.functionRule, function, closedGroup, introduced, afterList, arrow]
  have stepped := Language.step_past_list .javascript (closedGroup name held params)
    (ofLexeme lexeme) rfl (by rw [rule]; rfl) (by rw [rule]; rfl)
  have undone : (closedGroup name held params).expects.done = false := rfl
  rw [Language.stepUnlessDone, undone, if_neg Bool.false_ne_true, stepped, rule]
  exact ⟨rfl, rfl⟩

def restored (name : String) (held : Option String) : Reading where
  symbol := { name, kind := .var, varType := held }
  expects := { listClosed := true, done := true, previous := some .closeParen }

theorem declared_restored (name : String) (held : Option String) (token : Token) :
    (declared (restored name held) token).symbol = (restored name held).symbol ∧
      (declared (restored name held) token).expects.done = true ∧
      (declared (restored name held) token).expects.tentativeArrow = false := by
  cases kind : token.kind
  case colon => cases held <;> simp [declared, restored, kind]
  all_goals simp [declared, restored, kind, Reading.finished]

theorem finish_settled {reading : Reading} (settled : reading.expects.tentativeArrow = false) :
    Language.javascript.finish reading = reading := by
  simp [Language.finish, finish, settled]

theorem concluded_of_other (noColon : lexeme.1 ≠ .colon) (noArrow : lexeme.1 ≠ .fatArrow) :
    Language.javascript.Concluded { name, kind := .var, varType := held }
      (Language.javascript.stepUnlessDone (closedGroup name held params) (ofLexeme lexeme)) := by
  have noClass : Language.javascript.classRule (closedGroup name held params) (ofLexeme lexeme) =
      closedGroup name held params := Language.class_rule_ignores .javascript _ (.inl rfl)
  have rule : Language.javascript.functionRule (closedGroup name held params) (ofLexeme lexeme) =
      restored name held := by
    simp [Language.functionRule, function, closedGroup, introduced, afterList, noColon, noArrow,
      abandonArrow, Symbol.toVariable, Reading.finished, restored]
  have noList : Language.javascript.parameterRule (restored name held) (ofLexeme lexeme) =
      restored name held := rfl
  -- The variable is read on with the same token, which changes no part of it.
  have variable' : Language.javascript.variableRule (restored name held) (ofLexeme lexeme) =
      declared (restored name held) (ofLexeme lexeme) := rfl
  obtain ⟨same, done, settled⟩ := declared_restored name held (ofLexeme lexeme)
  have undone : (closedGroup name held params).expects.done = false := rfl
  rw [Language.stepUnlessDone, undone, if_neg Bool.false_ne_true]
  simp only [Language.step, noClass, rule, noList, variable']
  have finished := @finish_settled (Language.past (declared (restored name held) (ofLexeme lexeme))
    lexeme.1) settled
  exact ⟨done, (congrArg Reading.symbol finished).trans same⟩

end

theorem read_group_modifiers (name : String) (type : Option String)
    (modifiers : List (grammar.Keyword .modifier)) (previous : Option Kind) :
    Language.javascript.read (variableReading name type false true 0 previous)
        (modifiers.map (·.lexeme)) =
      variableReading name type false true 0 (lastKind previous (modifiers.map (·.lexeme))) := by
  apply Language.read_skipping
  intro modifier previous
  have notFunction : grammar.admits (ofLexeme (word modifier.text)) .functionWord = false :=
    Language.not_admits_other .javascript modifier.has (by decide) (by decide) (by decide)
  rw [Keyword.lexeme, step_variable notFunction (by simp)]
  simp [declared, variableReading, modifier.admits, Language.past]

theorem step_group_open (name : String) (type : Option String) (previous : Option Kind) :
    InGroup name type 0 0 (Language.javascript.stepUnlessDone
      (variableReading name type false true 0 previous) (ofLexeme (.openParen, "("))) :=
  ⟨⟨rfl, rfl, rfl, rfl⟩, rfl, rfl, rfl, fun deep => absurd deep (Nat.lt_irrefl 0),
    fun deep => absurd deep (Nat.lt_irrefl 0)⟩

/-- `const name: type = async (group)` -/
def groupLexemes (keyword : grammar.Keyword .variableWord) (name : grammar.Name)
    (type : Option (Expr variableDialect)) (modifiers : List (grammar.Keyword .modifier))
    (group : List Lexeme) : List Lexeme :=
  keyword.lexeme :: name.lexeme :: variableTypeLexemes type ++
    (.assign, "=") :: modifiers.map (·.lexeme) ++ (.openParen, "(") :: group ++ [(.closeParen, ")")]

theorem read_group (keyword : grammar.Keyword .variableWord) (name : grammar.Name)
    (type : Option (Expr variableDialect)) (modifiers : List (grammar.Keyword .modifier))
    {group : List Lexeme} (nested : Nested group) :
    ∃ params,
      Language.javascript.read {} (groupLexemes keyword name type modifiers group) =
        closedGroup name.text (type.map (·.text)) params := by
  obtain ⟨typed, previous, read⟩ := read_variable keyword name type
  have opened := step_group_open name.text (type.map (·.text))
    (lastKind (some .assign) (modifiers.map (·.lexeme)))
  obtain ⟨params, closed⟩ := (opened.read nested).close
  refine ⟨params, ?_⟩
  have assigned : Language.javascript.read
      (variableReading name.text (type.map (·.text)) typed false 0 previous)
      ((.assign, "=") :: modifiers.map (·.lexeme)) =
        variableReading name.text (type.map (·.text)) false true 0
          (lastKind (some .assign) (modifiers.map (·.lexeme))) := by
    rw [Language.read_cons, step_variable_assign, read_group_modifiers]
  rw [groupLexemes, Language.read_append, Language.read_append, Language.read_append, read,
    assigned, Language.read_cons, Language.read_cons, Language.read_nil, closed]

/-- If an arrow follows, the variable is a function that returns something; if anything else follows
but a colon, or nothing, it is a variable with the type it was given and no parameters. -/
theorem recognize_tentative_arrow (keyword : grammar.Keyword .variableWord) (name : grammar.Name)
    (type : Option (Expr variableDialect)) (modifiers : List (grammar.Keyword .modifier))
    (group : List Lexeme) (nested : Nested group) (tokens rest : List Token)
    (spelled : tokens.map lexeme = groupLexemes keyword name type modifiers group)
    (noColon : ∀ token ∈ rest.head?, token.kind ≠ .colon) :
    (rest.head?.map (·.kind) = some .fatArrow →
        ∃ params, Language.javascript.recognize (tokens ++ rest) =
          { name := name.text, kind := .function, params, returns := { present := true } }) ∧
      (rest.head?.map (·.kind) ≠ some .fatArrow →
        Language.javascript.recognize (tokens ++ rest) =
          { name := name.text, kind := .var, varType := type.map (·.text) }) := by
  obtain ⟨params, read⟩ := read_group keyword name type modifiers nested
  rw [Language.recognize_eq_read, List.map_append, spelled, Language.read_append, read]
  cases rest with
  | nil => exact ⟨nofun, fun _ => rfl⟩
  | cons token rest =>
      rw [List.map_cons, Language.read_cons]
      refine ⟨fun arrow => ⟨params, ?_⟩, fun other => ?_⟩
      · have kind : (lexeme token).1 = .fatArrow := Option.some.inj arrow
        exact (concluded_of_arrow kind).read _
      · have noArrow : (lexeme token).1 ≠ .fatArrow := fun kind => other (congrArg some kind)
        exact (concluded_of_other (noColon token rfl) noArrow).read _

def sampleGroup : List Lexeme :=
  [(.openBrace, "\x7b"), word "a", (.colon, ":"), (.openBracket, "["), word "b",
    (.closeBracket, "]"), (.comma, ","), word "c", (.assign, "="), (.openBrace, "\x7b"), word "d",
    (.closeBrace, "\x7d"), (.closeBrace, "\x7d"), (.comma, ","), word "e", (.colon, ":"), word "F",
    (.openBracket, "["), (.number, "0"), (.closeBracket, "]"), (.comma, ","), word "g",
    (.assign, "="), (.openBracket, "["), word "h", (.comma, ","), (.openBrace, "\x7b"), word "i",
    (.closeBrace, "\x7d"), (.closeBracket, "]")]

theorem nested_sample_group : Nested sampleGroup := by
  have index : Nested [(.number, "0")] := .plain rfl .nil
  have array : Nested [word "h", (.comma, ","), (.openBrace, "\x7b"), word "i",
      (.closeBrace, "\x7d")] :=
    .plain rfl (.plain rfl (.enclosed .brace _ _ (.plain rfl .nil) .nil))
  have object : Nested [word "a", (.colon, ":"), (.openBracket, "["), word "b",
      (.closeBracket, "]"), (.comma, ","), word "c", (.assign, "="), (.openBrace, "\x7b"),
      word "d", (.closeBrace, "\x7d")] :=
    .plain rfl (.plain rfl (.enclosed .square _ _ (.plain rfl .nil)
      (.plain rfl (.plain rfl (.plain rfl (.enclosed .brace _ _ (.plain rfl .nil) .nil))))))
  exact .enclosed .brace _ _ object
    (.plain rfl (.plain rfl (.plain rfl (.plain rfl (.enclosed .square _ _ index
      (.plain rfl (.plain rfl (.plain rfl (.enclosed .square _ _ array .nil)))))))))

theorem recognize_sample_group :
    Nested sampleGroup ∧
      Language.javascript.recognize
          (layOut 0 (groupLexemes ⟨"let", by decide⟩ ⟨"x", by decide⟩
            (some (.mk (.word ⟨"T", by decide, by decide⟩) .bare)) [⟨"async", by decide⟩]
            sampleGroup) ++ [ofLexeme (.semicolon, ";")]) =
        { name := "x", kind := .var, varType := some "T" } :=
  ⟨nested_sample_group,
    (recognize_tentative_arrow ⟨"let", by decide⟩ ⟨"x", by decide⟩
      (some (.mk (.word ⟨"T", by decide, by decide⟩) .bare)) [⟨"async", by decide⟩] sampleGroup
      nested_sample_group _ [ofLexeme (.semicolon, ";")] (map_lexeme_lay_out 0 _)
      (by simp)).2 (by simp)⟩

end DocComment.NameFirst
