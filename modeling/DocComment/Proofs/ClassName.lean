import DocComment.Proofs.KindTransition

/-!
Where a class has its name from. Only the first word for a class can make one, and the next word that
can be a name ends the reading with it. In all languages but one nothing has a name before its kind
is known; where names come first, a candidate from ahead of the word stays if no name follows.
-/

namespace DocComment

namespace Reading

/-- What a rule may do to a symbol without a kind: make a variable of it, or leave it as it is. Only
where names come first may it get a name and still have no kind. -/
def StaysUndeclared (language : Language) (before after : Reading) : Prop :=
  after.symbol.kind = .var ∨
    after.symbol.kind = .unset ∧ (language ≠ .javascript → after.symbol = before.symbol)

/-- No class, and unless names come first no name without a kind. -/
structure Unclassed (language : Language) (reading : Reading) : Prop where
  kind : reading.symbol.kind ≠ .classLike
  unnamed : language ≠ .javascript → reading.symbol.kind = .unset → reading.symbol.name = ""

structure Decided (reading : Reading) : Prop where
  kind : reading.symbol.kind ≠ .classLike
  done : reading.symbol.kind = .unset → reading.expects.done = true

structure AwaitsName (reading : Reading) : Prop where
  kind : reading.symbol.kind = .classLike
  name : reading.expects.name = true
  undone : reading.expects.done = false
  outside : reading.expects.inList = false

end Reading

namespace Language

open Reading

structure SplitAtClass (language : Language) (tokens before : List Token) (word : Token)
    (after : List Token) : Prop where
  split : tokens = before ++ word :: after
  introduces : language.grammar.admits word .classWord = true
  first : ∀ token ∈ before, language.grammar.admits token .classWord = false

/-- The symbol has its name from the first token behind the word for a class that can be a name, and
whatever follows that token makes no difference. -/
def NamedBehind (language : Language) (before : List Token) (word : Token) (after : List Token)
    (symbol : Symbol) : Prop :=
  ∃ skipped name rest, after = skipped ++ name :: rest ∧
    (∀ token ∈ skipped, language.isDeclaredName token = false) ∧
    language.isDeclaredName name = true ∧ symbol.name = name.text ∧
    ∀ other, language.recognize (before ++ word :: (skipped ++ name :: other)) = symbol

section

variable {language : Language} {reading : Reading} (token : Token)
  (kind : reading.symbol.kind = .unset)
include kind

theorem type_first_undeclared_stays (grammar : Grammar) :
    StaysUndeclared language reading (TypeFirst.undeclared grammar reading token) := by
  unfold TypeFirst.undeclared
  dsimp only
  split
  · split
    all_goals exact .inr ⟨kind, fun _ => rfl⟩
  split
  · exact .inr ⟨kind, fun _ => rfl⟩
  split
  · exact .inr ⟨kind, fun _ => rfl⟩
  split
  · exact .inr ⟨kind, fun _ => rfl⟩
  split
  · exact .inl rfl
  · exact .inr ⟨kind, fun _ => rfl⟩

theorem name_first_undeclared_stays :
    StaysUndeclared .javascript reading (NameFirst.undeclared reading token) := by
  have unset {after : Reading} (same : after.symbol.kind = reading.symbol.kind) :
      StaysUndeclared .javascript reading after :=
    .inr ⟨same.trans kind, fun other => absurd rfl other⟩
  unfold NameFirst.undeclared
  dsimp only
  split
  · split
    all_goals exact unset rfl
  split
  · exact unset rfl
  split
  · exact .inl rfl
  split
  · split
    · exact unset rfl
    split
    all_goals exact unset rfl
  · split
    all_goals exact unset rfl
  · split
    · exact .inl rfl
    · exact unset rfl
  · split
    · exact .inl rfl
    · exact unset rfl
  · exact unset rfl

theorem sigil_undeclared_stays :
    StaysUndeclared language reading (Sigil.undeclared reading token) := by
  unfold Sigil.undeclared
  split
  · exact .inr ⟨kind, fun _ => rfl⟩
  split
  · exact .inr ⟨kind, fun _ => rfl⟩
  split
  · exact .inl rfl
  split
  · exact .inl rfl
  split
  · exact .inl (extend_variable_or_kind _ token)
  · exact .inr ⟨kind, fun _ => rfl⟩

theorem at_rule_variable_stays :
    StaysUndeclared language reading (AtRule.variableRule reading token) := by
  simp only [AtRule.variableRule, kind]
  split
  · exact .inr ⟨kind, fun _ => rfl⟩
  split
  · exact .inl rfl
  · exact .inr ⟨kind, fun _ => rfl⟩

theorem variable_rule_stays (language : Language) :
    StaysUndeclared language reading (language.variableRule reading token) := by
  cases language with
  | c | java =>
      simp only [variableRule, TypeFirst.variableRule, kind]
      exact type_first_undeclared_stays token kind _
  | javascript =>
      simp only [variableRule, NameFirst.variableRule, kind]
      exact name_first_undeclared_stays token kind
  | php =>
      simp only [variableRule, Sigil.variableRule, kind]
      exact sigil_undeclared_stays token kind
  | scss => exact at_rule_variable_stays token kind

end

section

variable (language : Language) {reading : Reading} (token : Token)

theorem variable_rule_unclassed (unclassed : reading.Unclassed language) :
    (language.variableRule reading token).Unclassed language := by
  cases variable_rule_kind reading token language with
  | same kind =>
      refine ⟨kind ▸ unclassed.kind, fun typed unset => ?_⟩
      have undeclared := kind.symm.trans unset
      rcases variable_rule_stays token undeclared language with var | ⟨_, same⟩
      · simp [unset] at var
      · rw [same typed]
        exact unclassed.unnamed typed undeclared
  | declared unset kind =>
      rcases variable_rule_stays token unset language with var | ⟨still, _⟩
      · exact ⟨by simp [var], fun _ unset => absurd unset kind⟩
      · exact absurd still kind
  | called _ function => exact ⟨by simp [function], by simp [function]⟩
  | regrouped _ group => exact group.elim
  | dismissed _ unnamed _ _ unset => exact ⟨by simp [unset], fun _ _ => unnamed⟩

/-- Without a word for a class no step makes one. -/
theorem step_unclassed (other : language.grammar.admits token .classWord = false)
    (unclassed : reading.Unclassed language) :
    (language.step reading token).Unclassed language := by
  have untouched : language.classRule reading token = reading := by
    simp [classRule, other, unclassed.kind]
  let ruled := language.functionRule reading token
  have afterFunction : ruled.Unclassed language := by
    rcases function_rule_kind reading token language with same | ⟨_, function⟩ | ⟨_, _, _, var⟩
    · rwa [show ruled = reading from same]
    · exact ⟨by simp [ruled, function], by simp [ruled, function]⟩
    · exact ⟨by simp [ruled, var], by simp [ruled, var]⟩
  have afterParameters : (language.parameterRule ruled token).Unclassed language := by
    have same := (language.parameter_rule_same ruled token).symbol
    refine ⟨same.kind ▸ afterFunction.kind, fun typed unset => ?_⟩
    rw [same.name]
    exact afterFunction.unnamed typed (same.kind.symm.trans unset)
  have afterVariable := language.variable_rule_unclassed token afterParameters
  simp only [step]
  rw [untouched]
  exact ⟨afterVariable.kind, afterVariable.unnamed⟩

end

theorem reading_unclassed (language : Language) {tokens : List Token}
    (plain : ∀ token ∈ tokens, language.grammar.admits token .classWord = false) :
    (language.readingAfter tokens).Unclassed language := by
  refine language.reading_after_holds ⟨by decide, fun _ _ => rfl⟩ ?_ plain
  intro reading token other unclassed
  exact language.step_unclassed token other unclassed

section

variable (language : Language) {reading : Reading} {token : Token}

theorem class_rule_in_list (reading : Reading) (token : Token) :
    (language.classRule reading token).expects.inList = reading.expects.inList := by
  unfold classRule
  split
  · rfl
  split <;> rfl

/-- Once there is a class only the rule for classes acts. -/
theorem step_class (outside : reading.expects.inList = false)
    (kind : (language.classRule reading token).symbol.kind = .classLike) :
    language.step reading token = past (language.classRule reading token) token.kind := by
  have untouched : language.functionRule (language.classRule reading token) token =
      language.classRule reading token := by
    rcases function_rule_kind (language.classRule reading token) token language with
      same | ⟨other, _⟩ | ⟨_, function, _⟩
    · exact same
    · exact absurd kind other
    · simp [kind] at function
  have shut := (language.class_rule_in_list reading token).trans outside
  simp only [step]
  rw [untouched, language.parameter_rule_outside token shut,
    language.variable_rule_ignores token (.inr kind)]
  rfl

theorem step_class_word (unset : reading.symbol.kind = .unset)
    (undone : reading.expects.done = false) (outside : reading.expects.inList = false)
    (word : language.grammar.admits token .classWord = true) :
    (language.step reading token).AwaitsName ∧
      (language.step reading token).symbol = { reading.symbol with kind := .classLike } := by
  have introduced : language.classRule reading token =
      { reading with symbol.kind := .classLike, expects.name := true } := by
    simp [classRule, unset, word]
  rw [language.step_class outside (by rw [introduced]), introduced]
  exact ⟨⟨rfl, rfl, undone, outside⟩, rfl⟩

theorem step_class_name (awaits : reading.AwaitsName) (name : language.isDeclaredName token = true) :
    (language.step reading token).expects.done = true ∧
      (language.step reading token).symbol = { reading.symbol with name := token.text } := by
  have named : language.classRule reading token =
      { reading.named token.text with expects.name := false, expects.done := true } := by
    simp [classRule, awaits.kind, awaits.name, name]
  have kind : (language.classRule reading token).symbol.kind = .classLike := by
    rw [named]
    exact awaits.kind
  rw [language.step_class awaits.outside kind, named]
  exact ⟨rfl, rfl⟩

theorem step_class_other (awaits : reading.AwaitsName)
    (other : language.isDeclaredName token = false) :
    (language.step reading token).AwaitsName ∧
      (language.step reading token).symbol = reading.symbol := by
  have untouched : language.classRule reading token = reading := by
    simp [classRule, awaits.kind, other]
  rw [language.step_class awaits.outside (by rw [untouched, awaits.kind]), untouched]
  exact ⟨⟨awaits.kind, awaits.name, awaits.undone, awaits.outside⟩, rfl⟩

end

theorem foldl_done (language : Language) {reading : Reading} (done : reading.expects.done = true)
    (tokens : List Token) : tokens.foldl language.stepUnlessDone reading = reading := by
  induction tokens with
  | nil => rfl
  | cons token tokens induction => rw [List.foldl_cons, stepUnlessDone, if_pos done, induction]

def firstNameOr (language : Language) (name : String) (tokens : List Token) : String :=
  ((tokens.find? language.isDeclaredName).map Token.text).getD name

/-- The first token that can be a name ends the reading with it. -/
theorem foldl_awaits_name (language : Language) (tokens : List Token) {reading : Reading}
    (awaits : reading.AwaitsName) :
    (tokens.foldl language.stepUnlessDone reading).symbol =
      { reading.symbol with name := language.firstNameOr reading.symbol.name tokens } := by
  induction tokens generalizing reading with
  | nil => rfl
  | cons token tokens induction =>
      rw [List.foldl_cons, stepUnlessDone, awaits.undone, if_neg Bool.false_ne_true]
      cases name : language.isDeclaredName token with
      | true =>
          obtain ⟨done, symbol⟩ := language.step_class_name awaits name
          rw [language.foldl_done done, firstNameOr, List.find?_cons_of_pos name, symbol]
          rfl
      | false =>
          obtain ⟨still, symbol⟩ := language.step_class_other awaits name
          rw [induction still, symbol, firstNameOr, firstNameOr,
            List.find?_cons_of_neg (by simp [name])]

theorem reading_decided (language : Language) {earlier : List Token}
    (start : (language.readingAfter earlier).Decided) (later : List Token) :
    (language.readingAfter (earlier ++ later)).Decided := by
  refine language.reading_after_keeps Decided ?_ start later
  intro tokens token decided
  cases done : (language.readingAfter tokens).expects.done with
  | true =>
      rw [language.reading_after_done done]
      exact decided
  | false =>
      have declared : (language.readingAfter tokens).symbol.kind ≠ .unset := by
        intro unset
        exact Bool.false_ne_true (done.symm.trans (decided.done unset))
      cases language.reading_kind_step tokens token with
      | same kind => exact ⟨kind ▸ decided.kind, fun unset => absurd (kind ▸ unset) declared⟩
      | declared unset => exact absurd unset declared
      | called _ function => exact ⟨by simp [function], by simp [function]⟩
      | regrouped _ _ _ var => exact ⟨by simp [var], by simp [var]⟩
      | dismissed _ _ done _ unset => exact ⟨by simp [unset], fun _ => done⟩

/-- Only a function can be settled at the end of the line. -/
theorem recognize_eq_reading (language : Language) {tokens : List Token}
    (plain : (language.readingAfter tokens).symbol.kind ≠ .function) :
    language.recognize tokens = (language.readingAfter tokens).symbol := by
  by_cases javascript : language = .javascript
  · subst javascript
    have settled : (Language.javascript.readingAfter tokens).expects.tentativeArrow = false := by
      rw [Bool.eq_false_iff]
      intro tentative
      exact plain ((NameFirst.traced tokens).tentative tentative).kind
    rw [recognize, ← readingAfter, finish, NameFirst.finish, settled]
    rfl
  · rw [recognize, ← readingAfter, language.finish_eq javascript]

theorem reading_class_of_recognized (language : Language) {tokens : List Token}
    (kind : (language.recognize tokens).kind = .classLike) :
    (language.readingAfter tokens).symbol.kind = .classLike := by
  have recognized : (language.finish (language.readingAfter tokens)).symbol.kind = .classLike := kind
  cases language.finish_kind_step tokens with
  | same same => exact same.symm.trans recognized
  | declared unset =>
      have plain : (language.readingAfter tokens).symbol.kind ≠ .function := by simp [unset]
      rwa [← language.recognize_eq_reading plain]
  | called _ function => simp [function] at recognized
  | regrouped _ _ _ var => simp [var] at recognized
  | dismissed _ _ _ _ unset => simp [unset] at recognized

/-- A class comes from its first word, read while nothing else was declared. -/
theorem split_of_recognized_class (language : Language) {tokens : List Token}
    (kind : (language.recognize tokens).kind = .classLike) :
    ∃ before word after, language.SplitAtClass tokens before word after ∧
      (language.readingAfter before).symbol.kind = .unset ∧
      (language.readingAfter before).expects.done = false := by
  have reached := language.reading_class_of_recognized kind
  cases found : tokens.find? (language.grammar.admits · .classWord) with
  | none =>
      have plain : ∀ token ∈ tokens, language.grammar.admits token .classWord = false := by
        simpa using found
      exact absurd reached (language.reading_unclassed plain).kind
  | some word =>
      obtain ⟨introduces, before, after, rfl, first⟩ := List.find?_eq_some_iff_append.1 found
      have first : ∀ token ∈ before, language.grammar.admits token .classWord = false := by
        simpa using first
      have unclassed := language.reading_unclassed first
      refine ⟨before, word, after, ⟨rfl, introduces, first⟩, ?_⟩
      by_contra undecided
      have decided : (language.readingAfter before).Decided := by
        refine ⟨unclassed.kind, fun unset => ?_⟩
        rw [← Bool.not_eq_false]
        exact fun undone => undecided ⟨unset, undone⟩
      exact (language.reading_decided decided (word :: after)).kind reached

/-- What a line with a class declares, from the reading ahead of the word for it. -/
theorem recognize_class (language : Language) {before : List Token} {word : Token}
    (unset : (language.readingAfter before).symbol.kind = .unset)
    (undone : (language.readingAfter before).expects.done = false)
    (introduces : language.grammar.admits word .classWord = true) (after : List Token) :
    language.recognize (before ++ word :: after) =
      { (language.recognize before) with
        kind := .classLike, name := language.firstNameOr (language.recognize before).name after } := by
  have unlisted := (language.reading_after_live undone).unlisted (by simp [unset])
  have outside : (language.readingAfter before).expects.inList = false := by
    simp [Expectations.inList, unlisted.parameter]
  obtain ⟨awaits, symbol⟩ := language.step_class_word unset undone outside introduces
  have ahead : language.recognize before = (language.readingAfter before).symbol :=
    language.recognize_eq_reading (by simp [unset])
  have run : (language.readingAfter (before ++ word :: after)).symbol =
      { (language.recognize before) with
        kind := .classLike
        name := language.firstNameOr (language.recognize before).name after } := by
    rw [readingAfter, List.foldl_append, ← readingAfter, List.foldl_cons, stepUnlessDone, undone,
      if_neg Bool.false_ne_true, language.foldl_awaits_name after awaits, symbol, ahead]
  rw [language.recognize_eq_reading (by simp [run]), run]

theorem first_name_skipped {language : Language} {skipped : List Token}
    (skips : ∀ token ∈ skipped, language.isDeclaredName token = false) {name : Token}
    (names : language.isDeclaredName name = true) (earlier : String) (rest : List Token) :
    language.firstNameOr earlier (skipped ++ name :: rest) = name.text := by
  have found : (skipped ++ name :: rest).find? language.isDeclaredName = some name :=
    List.find?_eq_some_iff_append.2 ⟨names, skipped, rest, rfl, by simpa using skips⟩
  rw [firstNameOr, found]
  rfl

section

variable {language : Language} {before after : List Token} {word : Token}
  (unset : (language.readingAfter before).symbol.kind = .unset)
  (undone : (language.readingAfter before).expects.done = false)
  (introduces : language.grammar.admits word .classWord = true)
include unset undone introduces

theorem named_behind_of_name {name : Token} (member : name ∈ after)
    (names : language.isDeclaredName name = true) :
    language.NamedBehind before word after (language.recognize (before ++ word :: after)) := by
  cases found : after.find? language.isDeclaredName with
  | none => exact absurd names (List.find?_eq_none.1 found name member)
  | some name =>
      obtain ⟨names, skipped, rest, rfl, skips⟩ := List.find?_eq_some_iff_append.1 found
      have skips : ∀ token ∈ skipped, language.isDeclaredName token = false := by
        simpa using skips
      have whole := language.recognize_class unset undone introduces
      refine ⟨skipped, name, rest, rfl, skips, names, ?_, fun other => ?_⟩
      · rw [whole, first_name_skipped skips names]
      · rw [whole, whole, first_name_skipped skips names, first_name_skipped skips names]

theorem name_kept_of_nameless
    (nameless : ∀ token ∈ after, language.isDeclaredName token = false) :
    (language.recognize (before ++ word :: after)).name = (language.recognize before).name := by
  have none : after.find? language.isDeclaredName = none := by simpa using nameless
  rw [language.recognize_class unset undone introduces, firstNameOr, none]
  rfl

end

/-- A recognized class is named by the first token behind the first word for a class that can be a
name, and all that follows makes no difference. The exception is a line in a language where names
come first that has no such token: then the class keeps the name that stood ahead of the word. -/
theorem parsed_class_name_iff (language : Language) (line : String) (symbol : Symbol)
    (parsed : language.parse line = .ok symbol) (kind : symbol.kind = .classLike)
    (named : symbol.name ≠ "") :
    ∃ tokens before word after, language.tokens line = .ok tokens ∧
      language.SplitAtClass tokens before word after ∧
      (language.NamedBehind before word after symbol ↔
        language ≠ .javascript ∨ ∃ token ∈ after, language.isDeclaredName token = true) ∧
      (¬ language.NamedBehind before word after symbol →
        symbol.name = (language.recognize before).name) := by
  cases scanned : language.tokens line with
  | error error => simp [parse, scanned, Except.map] at parsed
  | ok tokens =>
      obtain rfl : language.recognize tokens = symbol := by
        rw [parse, scanned] at parsed
        exact Except.ok.inj parsed
      obtain ⟨before, word, after, atClass, unset, undone⟩ :=
        language.split_of_recognized_class kind
      refine ⟨tokens, before, word, after, rfl, atClass, ?_⟩
      obtain ⟨rfl, introduces, first⟩ := atClass
      by_cases follows : ∃ token ∈ after, language.isDeclaredName token = true
      · obtain ⟨name, member, names⟩ := follows
        have behind := named_behind_of_name unset undone introduces member names
        exact ⟨iff_of_true behind (.inr ⟨name, member, names⟩), fun other => absurd behind other⟩
      · have nameless : ∀ token ∈ after, language.isDeclaredName token = false := by
          simpa using follows
        have kept := name_kept_of_nameless unset undone introduces nameless
        have ahead : language = .javascript := by
          by_contra typed
          have unnamed := (language.reading_unclassed first).unnamed typed unset
          rw [kept, language.recognize_eq_reading (by simp [unset])] at named
          exact named unnamed
        refine ⟨iff_of_false ?_ ?_, fun _ => kept⟩
        · rintro ⟨skipped, name, rest, rfl, _, names, _⟩
          exact follows ⟨name, by simp, names⟩
        · rintro (typed | name)
          · exact typed ahead
          · exact follows name

/-- A candidate ahead of the word for a class and a second such word behind it. -/
theorem parsed_class_name_behind_second_word :
    let symbol : Symbol := { name := "Store", kind := .classLike }
    Language.javascript.parse "Base.Root; export class enum Store<T> extends Base \x7b" = .ok symbol ∧
      symbol.kind = .classLike ∧ symbol.name ≠ "" ∧
      ∃ tokens before word after,
        Language.javascript.tokens "Base.Root; export class enum Store<T> extends Base \x7b" =
          .ok tokens ∧
        Language.javascript.SplitAtClass tokens before word after ∧
        (Language.javascript.NamedBehind before word after symbol ↔
          Language.javascript ≠ .javascript ∨
            ∃ token ∈ after, Language.javascript.isDeclaredName token = true) ∧
        (¬ Language.javascript.NamedBehind before word after symbol →
          symbol.name = (Language.javascript.recognize before).name) := by
  intro symbol
  have parsed : Language.javascript.parse
      "Base.Root; export class enum Store<T> extends Base \x7b" = .ok symbol := by decide +kernel
  exact ⟨parsed, rfl, by decide, parsed_class_name_iff .javascript _ symbol parsed rfl (by decide)⟩

/-- A member whose name is a word for a class makes a class of what it is a member of. -/
theorem parsed_class_named_ahead :
    Language.javascript.parse "schema.enum = [];" = .ok { name := "schema", kind := .classLike } ∧
      ∀ tokens before word after, Language.javascript.tokens "schema.enum = [];" = .ok tokens →
        Language.javascript.SplitAtClass tokens before word after →
        ¬ Language.javascript.NamedBehind before word after
          { name := "schema", kind := .classLike } := by
  refine ⟨by decide +kernel, ?_⟩
  intro tokens before word after scanned atClass
  rintro ⟨skipped, name, rest, rfl, _, names, _⟩
  have spelled : Language.javascript.tokens "schema.enum = [];" =
      .ok (Token.layOut 0 [(.identifier, "schema"), (.dot, "."), (.identifier, "enum")] ++
        [⟨.assign, "=", ⟨12, 13⟩⟩, ⟨.openBracket, "[", ⟨14, 15⟩⟩, ⟨.closeBracket, "]", ⟨15, 16⟩⟩,
          ⟨.semicolon, ";", ⟨16, 17⟩⟩]) := by decide +kernel
  have same := Except.ok.inj (scanned.symm.trans spelled)
  have nameless : ∀ token ∈ tokens.tail, Language.javascript.isDeclaredName token = false := by
    rw [same]
    decide +kernel
  have member : name ∈ tokens.tail := by
    rw [atClass.split]
    cases before <;> simp
  exact Bool.false_ne_true ((nameless name member).symm.trans names)

end Language

end DocComment
