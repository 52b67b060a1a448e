import DocComment.Proofs.BareVariable
import DocComment.Proofs.MaximalMunch

/-!
One type in three places: ahead of a parameter, behind the colon of a function, ahead of a property.
The list of parameters joins words at an ampersand; in the two other places an ampersand is no part
of a type, and the words behind it are passed over. The main statement gives the type recorded in
each place, and says that the three agree if and only if no ampersand joins two words.
-/

namespace DocComment.Sigil

open Token Grammar TypeText

/-- A bare or qualified name that is no keyword. -/
structure TypeWord where
  text : String
  accepted : isTypeWord (ofLexeme (word text)) = true

theorem TypeWord.spelled (first : TypeWord) :
    Spelling.qualified first.text = true ∧ grammar.isKeyword first.text = false := by
  simpa [isTypeWord, Kind.isWord] using first.accepted

theorem is_word_start_of_letter {c : Char} (letter : Spelling.isLetter c = true) :
    isWordStart c = true := by
  simp only [Spelling.isLetter, isWordStart, Bool.or_eq_true] at letter ⊢
  grind

theorem is_word_char_of_letter_or_digit {c : Char} (letter : Spelling.isLetterOrDigit c = true) :
    isWordChar c = true := by
  simp only [Spelling.isLetterOrDigit, isWordChar, Bool.or_eq_true] at letter ⊢
  grind

theorem segments_word_chars {fresh : Bool} {cs : List Char}
    (path : Spelling.segments fresh cs = true) : ∀ c ∈ cs, isWordChar c = true := by
  induction cs generalizing fresh with
  | nil => simp
  | cons c cs induction =>
      rw [Spelling.segments] at path
      rw [List.forall_mem_cons]
      split at path
      · rw [Bool.and_eq_true] at path
        exact ⟨is_word_char_of_start (is_word_start_of_letter path.1), induction path.2⟩
      split at path
      · next backslash =>
          subst backslash
          exact ⟨by decide, induction path⟩
      · rw [Bool.and_eq_true] at path
        exact ⟨is_word_char_of_letter_or_digit path.1, induction path.2⟩

/-- A qualified name starts like a word and goes on like one. -/
theorem qualified_chars {text : String} (qualified : Spelling.qualified text = true) :
    ∃ c cs, text.toList = c :: cs ∧ isWordStart c = true ∧ c ≠ '$' ∧
      ∀ d ∈ cs, isWordChar d = true := by
  unfold Spelling.qualified at qualified
  split at qualified
  · next cs spelled =>
      exact ⟨'\\', cs, spelled, by decide, by decide, segments_word_chars qualified⟩
  · cases spelled : text.toList with
    | nil =>
        rw [spelled] at qualified
        contradiction
    | cons c cs =>
        rw [spelled, Spelling.segments, if_pos rfl, Bool.and_eq_true] at qualified
        have other : c ≠ '$' := by
          rintro rfl
          exact absurd qualified.1 (by decide)
        exact ⟨c, cs, rfl, is_word_start_of_letter qualified.1, other,
          segments_word_chars qualified.2⟩

theorem reads_as_word_of_qualified {text : String} (qualified : Spelling.qualified text = true) :
    ReadsAsWord text := by
  obtain ⟨c, cs, spelled, starts, _, chars⟩ := qualified_chars qualified
  have tail : wordTail cs = cs.length := by
    have whole := word_tail_append chars []
    simpa [wordTail] using whole
  have notSpace : isSpace c = false := not_space_of_word_start starts
  rw [ReadsAsWord, spelled, lexeme?, notSpace, if_neg Bool.false_ne_true, if_pos starts, tail]
  rfl

theorem not_sigiled_of_qualified {text : String} (qualified : Spelling.qualified text = true) :
    Spelling.sigiled text = false := by
  obtain ⟨c, cs, spelled, _, other, _⟩ := qualified_chars qualified
  unfold Spelling.sigiled
  split
  · next rest sigil =>
      rw [spelled] at sigil
      exact absurd (List.cons.inj sigil).1 other
  · rfl

def TypeWord.toWord (first : TypeWord) : dialect.Word where
  text := first.text
  reads := reads_as_word_of_qualified first.spelled.1
  admitted := by
    simp [dialect, not_sigiled_of_qualified first.spelled.1, first.spelled.2]

@[simp] theorem to_word_text (first : TypeWord) : first.toWord.text = first.text := rfl

/-- `?A`, `A|B|C` or `A&B&C`, with as many words as one likes. -/
inductive DeclaredType where
  | nullable (only : TypeWord)
  | union (first : TypeWord) (rest : List TypeWord)
  | intersection (first : TypeWord) (rest : List TypeWord)

namespace DeclaredType

def toParameterType : DeclaredType → ParameterType
  | .nullable only => .union true only.toWord []
  | .union first rest => .union false first.toWord (rest.map (·.toWord))
  | .intersection first rest => .intersection first.toWord (rest.map (·.toWord))

def lexemes (type : DeclaredType) : List Lexeme := type.toParameterType.lexemes

def text (type : DeclaredType) : String := type.toParameterType.text

/-- What is recorded where an ampersand is no part of a type. -/
def recorded : DeclaredType → String
  | .intersection first _ => first.text
  | type => type.text

def intersects : DeclaredType → Bool
  | .intersection _ (_ :: _) => true
  | _ => false

end DeclaredType

theorem recorded_eq_text_iff (type : DeclaredType) :
    type.recorded = type.text ↔ type.intersects = false := by
  cases type with
  | nullable only => exact ⟨fun _ => rfl, fun _ => rfl⟩
  | union first rest => exact ⟨fun _ => rfl, fun _ => rfl⟩
  | intersection first rest =>
      cases rest with
      | nil =>
          refine ⟨fun _ => rfl, fun _ => ?_⟩
          simp [DeclaredType.recorded, DeclaredType.text, DeclaredType.toParameterType,
            ParameterType.text, ParameterType.lexemes, joined, spelling, word, TypeWord.toWord]
      | cons next rest =>
          refine ⟨fun same => ?_, fun impossible => by contradiction⟩
          -- The whole text is longer than its first word, by the ampersand at least.
          have lengths := congrArg String.length same
          simp [DeclaredType.recorded, DeclaredType.text, DeclaredType.toParameterType,
            ParameterType.text, ParameterType.lexemes, joined, spelling, word, TypeWord.toWord]
            at lengths

def unionCore (first : dialect.Word) : List dialect.Word → Core dialect
  | [] => .word first
  | next :: rest => .union (.word first) (unionCore next rest)

theorem union_core_lexemes (first : dialect.Word) (rest : List dialect.Word) :
    (unionCore first rest).lexemes = joined (.pipe, "|") first rest := by
  induction rest generalizing first with
  | nil => rfl
  | cons next rest induction =>
      rw [unionCore, Core.lexemes, induction, joined]
      rfl

theorem union_core_first (first : dialect.Word) (rest : List dialect.Word) :
    (unionCore first rest).firstWord = first := by
  cases rest <;> rfl

/-- A union, or a single word that may be null, as a type behind a colon or ahead of a property. -/
def unionType (nullable : Bool) (first : TypeWord) (rest : List TypeWord) : VariableType where
  nullable
  type := .mk (unionCore first.toWord (rest.map (·.toWord))) .bare
  starts := by
    have leads : (Expr.mk (unionCore first.toWord (rest.map (·.toWord))) .bare).firstWord =
        first.toWord := union_core_first _ _
    rw [leads]
    exact .inr (.inr first.spelled.1)

theorem union_type_lexemes (nullable : Bool) (first : TypeWord) (rest : List TypeWord) :
    (unionType nullable first rest).lexemes =
      (ParameterType.union nullable first.toWord (rest.map (·.toWord))).lexemes := by
  simp [unionType, ReturnType.lexemes, ParameterType.lexemes, Expr.lexemes, Suffix.bare,
    Suffix.lexemes, union_core_lexemes]

def furtherLexemes (words : List TypeWord) : List Lexeme :=
  words.flatMap fun next => [(.ampersand, "&"), word next.text]

namespace DeclaredType

def leading : DeclaredType → VariableType
  | .nullable only => unionType true only []
  | .union first rest => unionType false first rest
  | .intersection first _ => unionType false first []

def further : DeclaredType → List TypeWord
  | .intersection _ rest => rest
  | _ => []

end DeclaredType

theorem joined_ampersand (first : TypeWord) (rest : List TypeWord) :
    joined (.ampersand, "&") first.toWord (rest.map (·.toWord)) =
      word first.text :: furtherLexemes rest := by
  induction rest generalizing first with
  | nil => rfl
  | cons next rest induction =>
      rw [List.map_cons, joined, induction]
      rfl

theorem declared_type_lexemes (type : DeclaredType) :
    type.lexemes = type.leading.lexemes ++ furtherLexemes type.further := by
  cases type with
  | nullable only => simp [DeclaredType.leading, DeclaredType.further, furtherLexemes,
      union_type_lexemes, DeclaredType.lexemes, DeclaredType.toParameterType]
  | union first rest => simp [DeclaredType.leading, DeclaredType.further, furtherLexemes,
      union_type_lexemes, DeclaredType.lexemes, DeclaredType.toParameterType]
  | intersection first rest =>
      have split := joined_ampersand first rest
      simpa [DeclaredType.leading, DeclaredType.further, union_type_lexemes, DeclaredType.lexemes,
        DeclaredType.toParameterType, ParameterType.lexemes, nullMark, joined] using split

theorem leading_text (type : DeclaredType) : type.leading.text = type.recorded := by
  have spelled : ∀ nullable first rest, (unionType nullable first rest).text =
      spelling (ParameterType.union nullable first.toWord (rest.map (·.toWord))).lexemes := by
    intro nullable first rest
    rw [← union_type_lexemes]
    rfl
  cases type with
  | nullable only => exact spelled true only []
  | union first rest => exact spelled false first rest
  | intersection first rest =>
      refine (spelled false first []).trans ?_
      simp [ParameterType.lexemes, nullMark, joined, spelling, word, TypeWord.toWord,
        DeclaredType.recorded]

/-- An ampersand ends the return type, and a word that follows the end is passed over. -/
theorem step_passed_over {symbol : Symbol} (kind : symbol.kind = .function) {returnType : Bool}
    (previous : Option Kind) {lexeme : Lexeme}
    (passed : lexeme.1 = .ampersand ∨ lexeme.1 = .identifier ∧ returnType = false) :
    Language.php.stepUnlessDone (closedReading symbol returnType previous) (ofLexeme lexeme) =
      closedReading symbol false (some lexeme.1) := by
  have rule : Language.php.functionRule (closedReading symbol returnType previous)
      (ofLexeme lexeme) = closedReading symbol false previous := by
    rcases passed with sign | ⟨isWord, rfl⟩
    · simp [Language.functionRule, function, closedReading, kind, afterList, extendReturn?, extend?,
        addition?, sign]
    · simp [Language.functionRule, function, closedReading, kind, afterList, isWord]
  have stepped := Language.step_past_list .php _ (ofLexeme lexeme) kind
    (by rw [rule]; exact kind) (by rw [rule]; rfl)
  rw [rule] at stepped
  exact stepped

theorem read_further_return {symbol : Symbol} (kind : symbol.kind = .function)
    (words : List TypeWord) (returnType : Bool) (previous : Option Kind) :
    ∃ returnType' previous',
      Language.php.read (closedReading symbol returnType previous) (furtherLexemes words) =
        closedReading symbol returnType' previous' := by
  induction words generalizing returnType previous with
  | nil => exact ⟨returnType, previous, rfl⟩
  | cons next words induction =>
      have unfolded : furtherLexemes (next :: words) =
          (.ampersand, "&") :: word next.text :: furtherLexemes words := rfl
      rw [unfolded, Language.read_cons, step_passed_over kind previous (.inl rfl),
        Language.read_cons, step_passed_over kind _ (.inr ⟨rfl, rfl⟩)]
      exact induction _ _

theorem read_declared_return {symbol : Symbol} (kind : symbol.kind = .function)
    (untyped : symbol.returns.type = none) (type : DeclaredType) :
    ∃ returnType previous,
      Language.php.read (closedReading symbol false (some .closeParen))
          ((.colon, ":") :: type.lexemes) =
        closedReading (symbol.withReturn (some type.recorded)) returnType previous := by
  obtain ⟨typed, returned⟩ := read_return kind untyped type.leading.toReturnType
  have kindAfter : (symbol.withReturn (some type.recorded)).kind = .function := kind
  obtain ⟨returnType, previous, passed⟩ :=
    read_further_return kindAfter type.further true typed
  refine ⟨returnType, previous, ?_⟩
  rw [declared_type_lexemes, ← List.cons_append, Language.read_append, returned, leading_text,
    passed]

theorem read_further_property {type : String} (closed : isOpen type = false)
    (words : List TypeWord) (previous : Option Kind) :
    ∃ previous',
      Language.php.read (variableReading "" (some type) false 0 previous) (furtherLexemes words) =
        variableReading "" (some type) false 0 previous' := by
  induction words generalizing previous with
  | nil => exact ⟨previous, rfl⟩
  | cons next words induction =>
      have bare := bare_word (not_sigiled_of_qualified next.spelled.1) next.spelled.2
      have ampersand : Language.php.stepUnlessDone
          (variableReading "" (some type) false 0 previous) (ofLexeme (.ampersand, "&")) =
            variableReading "" (some type) false 0 (some .ampersand) := rfl
      -- The type is closed, so that no word can go on with it.
      have passed : Language.php.stepUnlessDone
          (variableReading "" (some type) false 0 (some .ampersand))
          (ofLexeme (word next.text)) =
            variableReading "" (some type) false 0 (some .identifier) := by
        rw [step_variable_rule bare.1]
        simp [variableRule, variableReading, unnamed, bare.2, extendVariable?, extend?, addition?,
          closed, Language.past]
      have unfolded : furtherLexemes (next :: words) =
          (.ampersand, "&") :: word next.text :: furtherLexemes words := rfl
      rw [unfolded, Language.read_cons, ampersand, Language.read_cons, passed]
      exact induction _

theorem recorded_closed (type : DeclaredType) : isOpen type.recorded = false := by
  cases type with
  | nullable only => exact not_open_of_ends_firm (parameter_type_ends_firm _)
  | union first rest => exact not_open_of_ends_firm (parameter_type_ends_firm _)
  | intersection first rest =>
      exact not_open_of_ends_firm (ends_firm_of_reads_as_word first.toWord.reads)

theorem read_declared_property (visibility : grammar.Keyword .modifier) (type : DeclaredType)
    (held : Variable) :
    Language.php.read {} (visibility.lexeme :: type.lexemes ++ [word held.text]) =
      variableReading held.text (some type.recorded) false 0 (some .identifier) := by
  have accepted := is_name_of_sigiled held.sigiled
  have notFunction : grammar.admits (ofLexeme (word held.text)) .functionWord = false :=
    not_admits_of_is_name accepted (by decide)
  have marked : Language.php.read {} [visibility.lexeme] = unsetReading (some .identifier) :=
    read_modifiers [visibility] none
  obtain ⟨leading, typed⟩ := read_variable_type type.leading (some .identifier)
  obtain ⟨previous, passed⟩ := read_further_property (recorded_closed type) type.further leading
  have named : Language.php.stepUnlessDone
      (variableReading "" (some type.recorded) false 0 previous) (ofLexeme (word held.text)) =
        variableReading held.text (some type.recorded) false 0 (some .identifier) := by
    rw [step_variable_rule notFunction]
    simp [variableRule, variableReading, unnamed, accepted, Reading.named, Language.past]
  rw [List.cons_append, ← List.singleton_append, Language.read_append, marked,
    Language.read_append, declared_type_lexemes, Language.read_append, typed, leading_text, passed,
    Language.read_cons, Language.read_nil, named]

/-- `function f(D $x) {` -/
def parameterLine (type : DeclaredType) (name : DeclaredName) (held : Variable) : List Lexeme :=
  [word "function", word name.text, (.openParen, "(")] ++ type.lexemes ++
    [word held.text, (.closeParen, ")"), (.openBrace, "\x7b")]

def returnLine (type : DeclaredType) (name : DeclaredName) : List Lexeme :=
  [word "function", word name.text, (.openParen, "("), (.closeParen, ")"), (.colon, ":")] ++
    type.lexemes ++ [(.openBrace, "\x7b")]

def propertyLine (visibility : grammar.Keyword .modifier) (type : DeclaredType)
    (held : Variable) : List Lexeme :=
  visibility.lexeme :: type.lexemes ++ [word held.text, (.semicolon, ";")]

/-- Past its list a function is declared once a brace follows. -/
theorem recognize_closed {symbol : Symbol} {returnType : Bool} {previous : Option Kind}
    (kind : symbol.kind = .function) {tokens : List Token} {lexemes : List Lexeme}
    (spelled : tokens.map lexeme = lexemes ++ [(.openBrace, "\x7b")])
    (reached : Language.php.read {} lexemes = closedReading symbol returnType previous) :
    Language.php.recognize tokens = symbol := by
  have past : Language.PastList (closedReading symbol returnType previous).expects :=
    ⟨rfl, rfl, rfl⟩
  rw [Language.recognize_eq_read, spelled, Language.read_append, reached]
  exact Language.read_body .php (by decide) kind past _ (by simp)

theorem recognize_parameter_line (type : DeclaredType) (name : DeclaredName) (held : Variable)
    {tokens : List Token} (spelled : tokens.map lexeme = parameterLine type name held) :
    Language.php.recognize tokens =
      { name := name.text
        kind := .function
        params := [{ name := held.text, type := some type.text }]
        returns := { present := name.text != "__construct" } } := by
  have reached := read_to_list_end
    { name, parameters := [{ type := some type.toParameterType, name := held }] }
  refine recognize_closed rfl (spelled.trans ?_) reached
  simp [parameterLine, Declaration.header, separated, Parameter.lexemes, Parameter.typeLexemes,
    Parameter.marks, Parameter.valueLexemes, DeclaredType.lexemes]

theorem recognize_return_line (type : DeclaredType) (name : DeclaredName) {tokens : List Token}
    (spelled : tokens.map lexeme = returnLine type name) :
    Language.php.recognize tokens =
      { name := name.text
        kind := .function
        returns := { present := type.recorded != "void", type := some type.recorded } } := by
  have listed := read_to_list_end { name, parameters := [] }
  obtain ⟨returnType, previous, returned⟩ :=
    @read_declared_return (introduced name.text) rfl rfl type
  have reached : Language.php.read {}
      ([word "function", word name.text, (.openParen, "("), (.closeParen, ")")] ++
        (.colon, ":") :: type.lexemes) =
        closedReading ((introduced name.text).withReturn (some type.recorded)) returnType
          previous := by
    rw [Language.read_append, ← returned]
    exact congrArg (Language.php.read · _) listed
  refine recognize_closed rfl (spelled.trans ?_) reached
  simp [returnLine]

theorem recognize_property_line (visibility : grammar.Keyword .modifier) (type : DeclaredType)
    (held : Variable) {tokens : List Token}
    (spelled : tokens.map lexeme = propertyLine visibility type held) :
    Language.php.recognize tokens =
      { name := held.text, kind := .var, varType := some type.recorded } := by
  have regrouped : propertyLine visibility type held =
      (visibility.lexeme :: type.lexemes ++ [word held.text]) ++ [(.semicolon, ";")] := by
    simp [propertyLine]
  rw [Language.recognize_eq_read, spelled, regrouped, Language.read_append, read_declared_property]
  exact read_variable_rest (sigiled_nonempty held) _ (.semicolon [])

/-- The list of parameters records the whole text of a type. Behind the colon and ahead of a
property the text stops at the first ampersand, so that the three places agree if and only if no
ampersand joins two words. -/
theorem recognize_type_places_iff (type : DeclaredType) (name : DeclaredName) (held : Variable)
    (visibility : grammar.Keyword .modifier) (taking returning holding : List Token)
    (takes : taking.map lexeme = parameterLine type name held)
    (returns : returning.map lexeme = returnLine type name)
    (holds : holding.map lexeme = propertyLine visibility type held) :
    Language.php.recognize taking =
        { name := name.text
          kind := .function
          params := [{ name := held.text, type := some type.text }]
          returns := { present := name.text != "__construct" } } ∧
      Language.php.recognize returning =
        { name := name.text
          kind := .function
          returns := { present := type.recorded != "void", type := some type.recorded } } ∧
      Language.php.recognize holding =
        { name := held.text, kind := .var, varType := some type.recorded } ∧
      (type.recorded = type.text ↔ type.intersects = false) :=
  ⟨recognize_parameter_line type name held takes, recognize_return_line type name returns,
    recognize_property_line visibility type held holds, recorded_eq_text_iff type⟩

def sampleIntersection : DeclaredType :=
  .intersection ⟨"Left", by decide⟩ [⟨"\\Far\\Right", by decide⟩]

theorem recognize_sample_intersection :
    Language.php.recognize (layOut 0 (parameterLine sampleIntersection ⟨"meet", by decide⟩
          ⟨"$both", by decide⟩)) =
        { name := "meet"
          kind := .function
          params := [{ name := "$both", type := some "Left&\\Far\\Right" }]
          returns := { present := true } } ∧
      Language.php.recognize (layOut 0 (returnLine sampleIntersection ⟨"meet", by decide⟩)) =
        { name := "meet"
          kind := .function
          returns := { present := true, type := some "Left" } } ∧
      Language.php.recognize (layOut 0 (propertyLine ⟨"private", by decide⟩ sampleIntersection
          ⟨"$both", by decide⟩)) =
        { name := "$both", kind := .var, varType := some "Left" } ∧
      ("Left" = "Left&\\Far\\Right" ↔ true = false) :=
  recognize_type_places_iff sampleIntersection ⟨"meet", by decide⟩ ⟨"$both", by decide⟩
    ⟨"private", by decide⟩ _ _ _ (map_lexeme_lay_out 0 _) (map_lexeme_lay_out 0 _)
    (map_lexeme_lay_out 0 _)

theorem recognize_cut_return_type :
    Language.php.parse "function f(): A&B \x7b" =
        .ok { name := "f", kind := .function, returns := { present := true, type := some "A" } } ∧
      (DeclaredType.intersection ⟨"A", by decide⟩ [⟨"B", by decide⟩]).text = "A&B" :=
  ⟨by decide +kernel, rfl⟩

end DocComment.Sigil
