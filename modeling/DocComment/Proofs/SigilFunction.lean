import DocComment.Proofs.Signature

/-!
Functions of the language that marks its variables with a sigil. Bare words ahead of a parameter are
its type, and an ampersand among them either joins two words or marks a reference: only what follows
tells which. The main statement is that recognition reads a declaration back exactly, with the marks
of references dropped and the joins kept.
-/

namespace DocComment.Sigil

open Token Grammar TypeText DefaultValue

/-- Words with the sigil and keywords are no part of a type. -/
def dialect : Dialect where
  admits text := !Spelling.sigiled text && !grammar.isKeyword text
  declarators := false

theorem word_is_bare (first : dialect.Word) :
    Spelling.sigiled first.text = false ∧ grammar.isKeyword first.text = false := by
  simpa [dialect] using first.admitted

def nullMark (nullable : Bool) : List Lexeme := if nullable then [(.question, "?")] else []

def joined (sign : Lexeme) (first : dialect.Word) : List dialect.Word → List Lexeme
  | [] => [word first.text]
  | next :: rest => word first.text :: sign :: joined sign next rest

inductive ParameterType where
  | union (nullable : Bool) (first : dialect.Word) (rest : List dialect.Word)
  | intersection (first : dialect.Word) (rest : List dialect.Word)

namespace ParameterType

def lexemes : ParameterType → List Lexeme
  | .union nullable first rest => nullMark nullable ++ joined (.pipe, "|") first rest
  | .intersection first rest => joined (.ampersand, "&") first rest

def text (type : ParameterType) : String := spelling type.lexemes

end ParameterType

structure Variable where
  text : String
  sigiled : Spelling.sigiled text = true

/-- `modifiers type &...$name = value`, of which only the name is needed. -/
structure Parameter where
  modifiers : List (grammar.Keyword .modifier) := []
  type : Option ParameterType := none
  reference : Bool := false
  variadic : Bool := false
  name : Variable
  value : Option Value := none

namespace Parameter

def typeLexemes (parameter : Parameter) : List Lexeme :=
  (parameter.type.map (·.lexemes)).getD []

def marks (parameter : Parameter) : List Lexeme :=
  (if parameter.reference then [(.ampersand, "&")] else []) ++
    (if parameter.variadic then [(.ellipsis, "...")] else [])

def valueLexemes (parameter : Parameter) : List Lexeme :=
  match parameter.value with
  | none => []
  | some value => (.assign, "=") :: value.lexemes

def lexemes (parameter : Parameter) : List Lexeme :=
  parameter.modifiers.map (·.lexeme) ++ parameter.typeLexemes ++ parameter.marks ++
    word parameter.name.text :: parameter.valueLexemes

/-- What is declared. A reference and a variadic are not told from other parameters. -/
def param (parameter : Parameter) : Symbol.Param where
  name := parameter.name.text
  type := parameter.type.map (·.text)
  value := parameter.value.bind (·.text)

end Parameter

structure ReturnType where
  nullable : Bool := false
  type : Expr dialect

namespace ReturnType

def lexemes (returns : ReturnType) : List Lexeme :=
  nullMark returns.nullable ++ returns.type.lexemes

def text (returns : ReturnType) : String := spelling returns.lexemes

end ReturnType

structure DeclaredName where
  text : String
  accepted : isDeclaredName (ofLexeme (word text)) = true

structure Declaration where
  modifiers : List (grammar.Keyword .modifier) := []
  reference : Bool := false
  name : DeclaredName
  parameters : List Parameter
  returns : Option ReturnType := none

namespace Declaration

def header (declaration : Declaration) : List Lexeme :=
  declaration.modifiers.map (·.lexeme) ++ word "function" ::
    (if declaration.reference then [(.ampersand, "&")] else []) ++ [word declaration.name.text]

def returnLexemes (declaration : Declaration) : List Lexeme :=
  match declaration.returns with
  | none => []
  | some returns => (.colon, ":") :: returns.lexemes

def lexemes (declaration : Declaration) : List Lexeme :=
  declaration.header ++ (.openParen, "(") ::
    separated (declaration.parameters.map (·.lexemes)) ++ (.closeParen, ")") ::
    declaration.returnLexemes

/-- A function returns something unless it is declared `void`, or is a constructor with no return
type. -/
def symbol (declaration : Declaration) : Symbol where
  name := declaration.name.text
  kind := .function
  params := declaration.parameters.map (·.param)
  returns := {
    present := declaration.returns.elim (declaration.name.text != "__construct")
      fun returns => returns.text != "void"
    type := declaration.returns.map (·.text) }
  varType := none

end Declaration

def IsJoin (sign : Lexeme) : Prop := sign = (.pipe, "|") ∨ sign = (.ampersand, "&")

/-- A type that takes the next word, be it open or cut short at a join. -/
def TakesWord (type : String) : Prop := isOpen type = true ∨ Text.endsIn type "&" = true

theorem takes_word_after_join {sign : Lexeme} (joins : IsJoin sign) (type : String) :
    TakesWord (type ++ sign.2) := by
  rcases joins with rfl | rfl
  · exact .inl (open_append_sign type (c := '|') (by decide) (by decide))
  · exact .inr (Text.ends_in_append type "&")

theorem spelling_word (text : String) (lexemes : List Lexeme) :
    spelling (word text :: lexemes) = text ++ spelling lexemes := rfl

theorem spelling_join {sign : Lexeme} (joins : IsJoin sign) (lexemes : List Lexeme) :
    spelling (sign :: lexemes) = sign.2 ++ spelling lexemes := by
  rcases joins with rfl | rfl <;> rfl

def nullText (nullable : Bool) : Option String := if nullable then some "?" else none

theorem null_text_eq_spelling (nullable : Bool) :
    (nullText nullable).getD "" = spelling (nullMark nullable) := by
  cases nullable <;> rfl

theorem return_type_text (returns : ReturnType) :
    returns.text = (nullText returns.nullable).getD "" ++ returns.type.text := by
  rw [ReturnType.text, ReturnType.lexemes, spelling_append, null_text_eq_spelling]
  rfl

theorem null_text_open (nullable : Bool) : isOpen ((nullText nullable).getD "") = true := by
  cases nullable <;> decide

theorem joined_ends_firm {sign : Lexeme} (joins : IsJoin sign) (first : dialect.Word)
    (rest : List dialect.Word) : EndsFirm (spelling (joined sign first rest)) := by
  induction rest generalizing first with
  | nil => simpa [joined, spelling, word] using ends_firm_of_reads_as_word first.reads
  | cons next rest induction =>
      rw [joined, spelling, spelling_join joins]
      apply ends_firm_append
      apply ends_firm_append
      exact induction next

theorem parameter_type_ends_firm (type : ParameterType) : EndsFirm type.text := by
  cases type with
  | union nullable first rest =>
      rw [ParameterType.text, ParameterType.lexemes, spelling_append]
      exact ends_firm_append _ (joined_ends_firm (.inl rfl) first rest)
  | intersection first rest => exact joined_ends_firm (.inr rfl) first rest

theorem drop_last_run_append (text : String) {c d : Char} (last : Text.lastChar? text = some d)
    (other : d ≠ c) (count : Nat) :
    Text.dropLastRun c (text ++ String.ofList (List.replicate count c)) = text := by
  -- Read backwards, the text is the run and then a character that stops it.
  obtain ⟨before, spelled⟩ : ∃ before, text.toList = before ++ [d] :=
    List.getLast?_eq_some_iff.1 last
  have run : ∀ entry ∈ List.replicate count c, (entry == c) = true := by
    intro entry member
    rw [List.eq_of_mem_replicate member]
    exact beq_self_eq_true c
  have stops : (d == c) = false := by simpa using other
  rw [Text.dropLastRun, String.toList_append, String.toList_ofList, List.reverse_append,
    List.reverse_replicate, List.dropWhile_append_of_pos run, spelled, List.reverse_append,
    List.reverse_singleton, List.singleton_append, List.dropWhile_cons, stops, if_neg (by decide),
    List.reverse_cons, List.reverse_reverse, ← spelled, String.ofList_toList]

/-- Ampersands at the end of a type mark a reference. -/
theorem type_of_pending_marked {type : String} (ends : EndsFirm type) (count : Nat) :
    typeOfPending (some (type ++ String.ofList (List.replicate count '&'))) = some type := by
  obtain ⟨c, last, firm⟩ := ends
  have other : c ≠ '&' := by
    intro same
    rw [same] at firm
    exact absurd firm (by decide)
  have nonempty : type ≠ "" := by
    intro empty
    rw [empty] at last
    simp [Text.lastChar?] at last
  simp [typeOfPending, drop_last_run_append type last other, nonempty]

def listReading (symbol : Symbol) (pending : Option String) (value : Bool)
    (previous : Option Kind) : Reading where
  symbol
  expects := { parameter := true, pendingType := pending, value, previous }

section

variable {symbol : Symbol} (kind : symbol.kind = .function)
include kind

theorem step_list_reading {pending : Option String} {value : Bool} {previous : Option Kind}
    (lexeme : Lexeme) :
    Language.php.stepUnlessDone (listReading symbol pending value previous) (ofLexeme lexeme) =
      Language.past (parameters (listReading symbol pending value previous) (ofLexeme lexeme))
        lexeme.1 :=
  Language.step_in_list .php _ _ kind rfl rfl

theorem step_no_value {pending : Option String} {previous : Option Kind} (lexeme : Lexeme) :
    Language.php.stepUnlessDone (listReading symbol pending false previous) (ofLexeme lexeme) =
      Language.past (listToken (listReading symbol pending false previous) (ofLexeme lexeme))
        lexeme.1 :=
  step_list_reading kind lexeme

theorem read_list_modifiers (modifiers : List (grammar.Keyword .modifier))
    (previous : Option Kind) :
    Language.php.read (listReading symbol none false previous) (modifiers.map (·.lexeme)) =
      listReading symbol none false (lastKind previous (modifiers.map (·.lexeme))) := by
  apply Language.read_skipping
  intro modifier previous
  have unnamed : grammar.isName (ofLexeme (word modifier.text)) = false :=
    not_is_name_of_has modifier.has (by decide)
  rw [step_no_value kind, Keyword.lexeme]
  simp [listToken, unnamed, typeToken, modifier.admits, Language.past, listReading]

theorem step_type_word (first : dialect.Word) {pending : Option String} (previous : Option Kind)
    (takes : TakesWord (pending.getD "")) :
    Language.php.stepUnlessDone (listReading symbol pending false previous)
        (ofLexeme (word first.text)) =
      listReading symbol (some (pending.getD "" ++ first.text)) false (some .identifier) := by
  obtain ⟨bare, notKeyword⟩ := word_is_bare first
  have unnamed : grammar.isName (ofLexeme (word first.text)) = false := by
    have spelled : grammar.isIdentifier first.text = false := bare
    simp [isName, spelled]
  have noModifier : grammar.admits (ofLexeme (word first.text)) .modifier = false := by
    simp only [isKeyword, Bool.or_eq_false_iff] at notKeyword
    exact notKeyword.1.1.2
  rw [step_no_value kind]
  cases pending with
  | none =>
      simp [listToken, unnamed, typeToken, noModifier, listReading, extendPending?,
        extend_none_word, Language.past]
  | some type =>
      -- A type cut short at an ampersand is closed, but takes the word all the same.
      by_cases cut : Text.endsIn type "&" = true
      · simp [listToken, unnamed, typeToken, noModifier, listReading, cut, Kind.isWord,
          Language.past]
      · have ready : isOpen type = true := takes.resolve_right cut
        simp [listToken, unnamed, typeToken, noModifier, listReading, cut, extendPending?, extend?,
          addition?, ready, Language.past]

theorem step_join {sign : Lexeme} (joins : IsJoin sign) {type : String} (ends : EndsFirm type)
    (previous : Option Kind) :
    Language.php.stepUnlessDone (listReading symbol (some type) false previous) (ofLexeme sign) =
      listReading symbol (some (type ++ sign.2)) false (some sign.1) := by
  have closed := not_open_of_ends_firm ends
  rw [step_no_value kind]
  rcases joins with rfl | rfl
  · simp [listToken, typeToken, admits, Kind.isWord, listReading, extendPending?, extend?,
      addition?, closed, Language.past]
  · simp [listToken, listReading, Language.past]

theorem read_joined {sign : Lexeme} (joins : IsJoin sign) (first : dialect.Word)
    (rest : List dialect.Word) (pending : Option String) (takes : TakesWord (pending.getD ""))
    (previous : Option Kind) :
    Language.php.read (listReading symbol pending false previous) (joined sign first rest) =
      listReading symbol (some (pending.getD "" ++ spelling (joined sign first rest))) false
        (some .identifier) := by
  induction rest generalizing first pending previous with
  | nil =>
      rw [joined, Language.read_cons, step_type_word kind first previous takes]
      simp [spelling, word]
  | cons next rest induction =>
      have ends := ends_firm_append (pending.getD "") (ends_firm_of_reads_as_word first.reads)
      have further := induction next (some (pending.getD "" ++ first.text ++ sign.2))
        (takes_word_after_join joins _) (some sign.1)
      rw [joined, Language.read_cons, step_type_word kind first previous takes,
        Language.read_cons, step_join kind joins ends, further]
      simp only [spelling_word, spelling_join joins, Option.getD_some, String.append_assoc]

theorem read_null_mark (nullable : Bool) (previous : Option Kind) :
    ∃ previous',
      Language.php.read (listReading symbol none false previous) (nullMark nullable) =
        listReading symbol (nullText nullable) false previous' := by
  cases nullable with
  | false => exact ⟨previous, rfl⟩
  | true => exact ⟨some .question, step_no_value kind (.question, "?")⟩

theorem read_parameter_type (type : ParameterType) (previous : Option Kind) :
    ∃ previous',
      Language.php.read (listReading symbol none false previous) type.lexemes =
        listReading symbol (some type.text) false previous' := by
  refine ⟨some .identifier, ?_⟩
  cases type with
  | union nullable first rest =>
      obtain ⟨marked, mark⟩ := read_null_mark kind nullable previous
      rw [ParameterType.text, ParameterType.lexemes, Language.read_append, mark,
        read_joined kind (.inl rfl) first rest _ (.inl (null_text_open nullable)),
        null_text_eq_spelling, ← spelling_append]
  | intersection first rest =>
      rw [ParameterType.text, ParameterType.lexemes,
        read_joined kind (.inr rfl) first rest none (.inl rfl), Option.getD_none,
        String.empty_append]

theorem read_type_lexemes (parameter : Parameter) (previous : Option Kind) :
    ∃ previous',
      Language.php.read (listReading symbol none false previous) parameter.typeLexemes =
        listReading symbol (parameter.type.map (·.text)) false previous' := by
  unfold Parameter.typeLexemes
  cases parameter.type with
  | none => exact ⟨previous, rfl⟩
  | some type => exact read_parameter_type kind type previous

theorem read_reference (reference : Bool) (pending : Option String) (previous : Option Kind) :
    ∃ count previous',
      Language.php.read (listReading symbol pending false previous)
          (if reference then [(.ampersand, "&")] else []) =
        listReading symbol (pending.map (· ++ String.ofList (List.replicate count '&'))) false
          previous' := by
  cases reference with
  | false => exact ⟨0, previous, by cases pending <;> simp⟩
  | true => exact ⟨1, some .ampersand, step_no_value kind (.ampersand, "&")⟩

theorem read_variadic (variadic : Bool) (pending : Option String) (previous : Option Kind) :
    ∃ previous',
      Language.php.read (listReading symbol pending false previous)
          (if variadic then [(.ellipsis, "...")] else []) =
        listReading symbol pending false previous' := by
  cases variadic with
  | false => exact ⟨previous, rfl⟩
  | true => exact ⟨some .ellipsis, step_no_value kind (.ellipsis, "...")⟩

/-- The marks ahead of a name may lengthen the text that waits, but not the type it stands for. -/
theorem read_marks (parameter : Parameter) (previous : Option Kind) :
    ∃ pending previous',
      Language.php.read (listReading symbol (parameter.type.map (·.text)) false previous)
          parameter.marks = listReading symbol pending false previous' ∧
        typeOfPending pending = parameter.type.map (·.text) := by
  obtain ⟨count, referred, reference⟩ :=
    read_reference kind parameter.reference (parameter.type.map (·.text)) previous
  obtain ⟨last, variadic⟩ := read_variadic kind parameter.variadic
    ((parameter.type.map (·.text)).map (· ++ String.ofList (List.replicate count '&'))) referred
  refine ⟨_, last, by rw [Parameter.marks, Language.read_append, reference, variadic], ?_⟩
  cases parameter.type with
  | none => rfl
  | some type => exact type_of_pending_marked (parameter_type_ends_firm type) count

omit kind in
/-- No word of the language has the sigil. -/
theorem is_name_of_sigiled {text : String} (sigiled : Spelling.sigiled text = true) :
    grammar.isName (ofLexeme (word text)) = true := by
  have bare : ∀ property ∈ Property.all, ∀ listed ∈ grammar.words property,
      ¬ Spelling.sigiled listed = true := by decide +kernel
  have unlisted : ∀ {property : Property}, property ≠ .identifier →
      grammar.has text property = false := not_has_of_marked bare sigiled
  change (true && Spelling.sigiled text && !(grammar.has text .classWord ||
    grammar.has text .functionWord || grammar.has text .modifier || grammar.has text .variableWord ||
    grammar.has text .reserved) && !grammar.has text .builtinType) = true
  simp [sigiled, unlisted]

theorem step_variable (name : Variable) (pending : Option String) (previous : Option Kind) :
    Language.php.stepUnlessDone (listReading symbol pending false previous)
        (ofLexeme (word name.text)) =
      listReading (symbol.pushParam { name := name.text, type := typeOfPending pending }) none
        false (some .identifier) := by
  rw [step_no_value kind]
  simp [listToken, is_name_of_sigiled name.sigiled, listReading, Language.past]

theorem step_ends_entry {value : Bool} {previous : Option Kind} {lexeme : Lexeme}
    (noValue : value = true → nestingAfter? 0 lexeme.1 = none) :
    Language.php.stepUnlessDone (listReading symbol none value previous) (ofLexeme lexeme) =
      Language.past (listToken (listReading symbol none value previous) (ofLexeme lexeme))
        lexeme.1 := by
  cases value with
  | false => exact step_no_value kind lexeme
  | true =>
      rw [step_list_reading kind]
      simp [parameters, listReading, Expectations.inList, expected?, collect?, noValue rfl]

theorem step_assign (previous : Option Kind) :
    Language.php.stepUnlessDone (listReading symbol none false previous)
        (ofLexeme (.assign, "=")) = listReading symbol none true (some .assign) :=
  step_no_value kind (.assign, "=")

theorem read_value_lexemes (parameter : Parameter) (previous : Option Kind) :
    ∃ value previous',
      Language.php.read
          (listReading
            (symbol.pushParam { name := parameter.name.text, type := parameter.type.map (·.text) })
            none false previous) parameter.valueLexemes =
        listReading (symbol.pushParam parameter.param) none value previous' := by
  unfold Parameter.valueLexemes Parameter.param
  cases parameter.value with
  | none => exact ⟨false, previous, rfl⟩
  | some value =>
      have pushed : (symbol.pushParam
          { name := parameter.name.text, type := parameter.type.map (·.text) }).kind =
          .function := kind
      have collects : Language.CollectsValue
          (listReading symbol none true (some .assign)).expects :=
        ⟨rfl, rfl, rfl, rfl⟩
      refine ⟨true, lastKind (some .assign) value.lexemes, ?_⟩
      rw [Language.read_cons, step_assign pushed]
      exact Language.read_default .php kind collects rfl value

end

def AwaitsEntry (symbol : Symbol) (reading : Reading) : Prop :=
  symbol.kind = .function ∧ ∃ previous, reading = listReading symbol none false previous

def EndsEntry (symbol : Symbol) (reading : Reading) : Prop :=
  symbol.kind = .function ∧ ∃ value previous, reading = listReading symbol none value previous

section

variable {symbol : Symbol} {reading : Reading}

theorem AwaitsEntry.ends (awaits : AwaitsEntry symbol reading) : EndsEntry symbol reading := by
  obtain ⟨kind, previous, rfl⟩ := awaits
  exact ⟨kind, false, previous, rfl⟩

theorem AwaitsEntry.parameter (awaits : AwaitsEntry symbol reading) (parameter : Parameter) :
    EndsEntry (symbol.withParams [parameter.param])
      (Language.php.read reading parameter.lexemes) := by
  obtain ⟨kind, previous, rfl⟩ := awaits
  obtain ⟨typed, type⟩ := read_type_lexemes kind parameter
    (lastKind previous (parameter.modifiers.map (·.lexeme)))
  obtain ⟨pending, marked, marks, same⟩ := read_marks kind parameter typed
  refine ⟨kind, ?_⟩
  rw [Parameter.lexemes, Language.read_append, Language.read_append, Language.read_append,
    read_list_modifiers kind, type, marks, Language.read_cons, step_variable kind, same]
  exact read_value_lexemes kind parameter _

theorem EndsEntry.comma (ends : EndsEntry symbol reading) :
    AwaitsEntry symbol (Language.php.stepUnlessDone reading (ofLexeme (.comma, ","))) := by
  obtain ⟨kind, value, previous, rfl⟩ := ends
  refine ⟨kind, some .comma, ?_⟩
  rw [step_ends_entry kind (fun _ => rfl)]
  rfl

/-- The whole list declares one parameter for each entry, in order. -/
theorem AwaitsEntry.list (awaits : AwaitsEntry symbol reading) (entries : List Parameter) :
    EndsEntry (symbol.withParams (entries.map (·.param)))
      (Language.php.read reading (separated (entries.map (·.lexemes)))) := by
  rw [List.map_eq_flatMap]
  exact Language.read_separated Parameter.lexemes (fun entry => [entry.param]) AwaitsEntry
    EndsEntry (fun entry awaits => awaits.parameter entry) EndsEntry.comma AwaitsEntry.ends
    entries awaits

def closedReading (symbol : Symbol) (returnType : Bool) (previous : Option Kind) : Reading where
  symbol
  expects := { listClosed := true, returnType, previous }

theorem EndsEntry.close (ends : EndsEntry symbol reading) :
    Language.php.stepUnlessDone reading (ofLexeme (.closeParen, ")")) =
      closedReading symbol false (some .closeParen) := by
  obtain ⟨kind, value, previous, rfl⟩ := ends
  rw [step_ends_entry kind (fun _ => rfl)]
  rfl

theorem step_colon (kind : symbol.kind = .function) :
    Language.php.stepUnlessDone (closedReading symbol false (some .closeParen))
        (ofLexeme (.colon, ":")) = closedReading symbol true (some .colon) := by
  have rule : Language.php.functionRule (closedReading symbol false (some .closeParen))
      (ofLexeme (.colon, ":")) = closedReading symbol true (some .closeParen) := by
    simp [Language.functionRule, function, closedReading, kind, afterList, Expectations.follows]
  have stepped := Language.step_past_list .php _ (ofLexeme (.colon, ":")) kind
    (by rw [rule]; exact kind) (by rw [rule]; rfl)
  rw [rule] at stepped
  exact stepped

theorem read_return_mark (kind : symbol.kind = .function) (untyped : symbol.returns.type = none)
    (nullable : Bool) :
    ∃ previous,
      Language.php.read (closedReading symbol true (some .colon)) (nullMark nullable) =
        closedReading (symbol.withReturn (nullText nullable)) true previous := by
  cases nullable with
  | false => exact ⟨some .colon, rfl⟩
  | true =>
      have past : Language.PastList (closedReading symbol true (some .colon)).expects :=
        ⟨rfl, rfl, rfl⟩
      have extended : extend? none 0 (ofLexeme (.question, "?")) = some ("?", 0) := by decide
      have stepped := @Language.step_return_type .php (by decide) symbol
        (closedReading symbol true (some .colon)).expects kind past rfl untyped none 0 0
        (.question, "?") "?" (some .colon) extended
      exact ⟨some .question, stepped⟩

theorem read_return (kind : symbol.kind = .function) (untyped : symbol.returns.type = none)
    (returns : ReturnType) :
    ∃ previous,
      Language.php.read (closedReading symbol false (some .closeParen))
          ((.colon, ":") :: returns.lexemes) =
        closedReading (symbol.withReturn (some returns.text)) true previous := by
  obtain ⟨marked, mark⟩ := read_return_mark kind untyped returns.nullable
  have past : Language.PastList (closedReading symbol true marked).expects := ⟨rfl, rfl, rfl⟩
  have returned := @Language.read_return_type .php (by decide) symbol
    (closedReading symbol true marked).expects kind past rfl untyped (nullText returns.nullable)
    (null_text_open returns.nullable) dialect rfl returns.type
  rw [Language.read_cons, step_colon kind, ReturnType.lexemes, Language.read_append, mark,
    return_type_text]
  exact returned

end

def unsetReading (previous : Option Kind) : Reading where
  expects := { previous }

theorem read_modifiers (modifiers : List (grammar.Keyword .modifier)) (previous : Option Kind) :
    Language.php.read (unsetReading previous) (modifiers.map (·.lexeme)) =
      unsetReading (lastKind previous (modifiers.map (·.lexeme))) := by
  apply Language.read_skipping
  intro modifier previous
  have notClass : Language.php.grammar.admits (ofLexeme (word modifier.text)) .classWord = false :=
    Language.not_admits_other .php modifier.has (by decide) (by decide) (by decide)
  have notFunction : grammar.admits (ofLexeme (word modifier.text)) .functionWord = false :=
    Language.not_admits_other .php modifier.has (by decide) (by decide) (by decide)
  simp [Language.stepUnlessDone, Language.step, Language.classRule, Keyword.lexeme, notClass,
    Language.functionRule, function, notFunction, unsetReading, Language.parameterRule, parameters,
    Expectations.inList, Language.variableRule, variableRule, undeclared, modifier.admits]

def namelessReading (previous : Option Kind) : Reading where
  symbol := { kind := .function, returns := { present := true } }
  expects := { name := true, previous }

theorem step_function_word (previous : Option Kind) :
    Language.php.stepUnlessDone (unsetReading previous) (ofLexeme (word "function")) =
      namelessReading (some .identifier) := by
  have notClass : Language.php.grammar.admits (ofLexeme (word "function")) .classWord = false := by
    decide
  have isFunction : grammar.admits (ofLexeme (word "function")) .functionWord = true := by decide
  simp [Language.stepUnlessDone, Language.step, Language.classRule, unsetReading, notClass,
    Language.functionRule, function, isFunction, Symbol.toFunction, Language.parameterRule,
    parameters, Expectations.inList, Language.variableRule, variableRule, namelessReading]

theorem read_result_reference (reference : Bool) (previous : Option Kind) :
    ∃ previous',
      Language.php.read (namelessReading previous)
          (if reference then [(.ampersand, "&")] else []) = namelessReading previous' := by
  cases reference with
  | false => exact ⟨previous, rfl⟩
  | true => exact ⟨some .ampersand, rfl⟩

/-- A function of which only the name is known. A constructor returns nothing. -/
def introduced (name : String) : Symbol where
  name
  kind := .function
  returns := { present := name != "__construct" }

theorem step_function_name (name : DeclaredName) (previous : Option Kind) :
    Language.php.stepUnlessDone (namelessReading previous) (ofLexeme (word name.text)) =
      ⟨introduced name.text, { previous := some .identifier }⟩ := by
  have rule : Language.php.functionRule (namelessReading previous) (ofLexeme (word name.text)) =
      ⟨introduced name.text, { previous }⟩ := by
    simp [Language.functionRule, function, namelessReading, name.accepted, introduced]
  have stepped := Language.step_past_list .php (namelessReading previous)
    (ofLexeme (word name.text)) rfl (by rw [rule]; rfl) (by rw [rule]; rfl)
  rw [rule] at stepped
  exact stepped

theorem read_header (declaration : Declaration) :
    Language.php.read {} declaration.header =
      ⟨introduced declaration.name.text, { previous := some .identifier }⟩ := by
  obtain ⟨referred, reference⟩ :=
    read_result_reference declaration.reference (some .identifier)
  change Language.php.read (unsetReading none) _ = _
  simp only [Declaration.header, Language.read_append, Language.read_cons, Language.read_nil,
    read_modifiers, step_function_word, reference]
  exact step_function_name declaration.name referred

def Declaration.listedSymbol (declaration : Declaration) : Symbol :=
  (introduced declaration.name.text).withParams (declaration.parameters.map (·.param))

theorem read_to_list_end (declaration : Declaration) :
    Language.php.read {} (declaration.header ++ (.openParen, "(") ::
        separated (declaration.parameters.map (·.lexemes)) ++ [(.closeParen, ")")]) =
      closedReading declaration.listedSymbol false (some .closeParen) := by
  have opened : Language.php.stepUnlessDone
      ⟨introduced declaration.name.text, { previous := some .identifier }⟩
      (ofLexeme (.openParen, "(")) =
        listReading (introduced declaration.name.text) none false (some .openParen) := rfl
  have awaits : AwaitsEntry (introduced declaration.name.text)
      (listReading (introduced declaration.name.text) none false (some .openParen)) :=
    ⟨rfl, _, rfl⟩
  simp only [Language.read_append, Language.read_cons, Language.read_nil, read_header, opened]
  exact (awaits.list declaration.parameters).close

theorem read_return_lexemes (declaration : Declaration) :
    ∃ returnType previous,
      Language.php.read (closedReading declaration.listedSymbol false (some .closeParen))
          declaration.returnLexemes =
        closedReading declaration.symbol returnType previous := by
  unfold Declaration.returnLexemes Declaration.symbol
  cases declaration.returns with
  | none => exact ⟨false, some .closeParen, rfl⟩
  | some returns =>
      obtain ⟨previous, returned⟩ := @read_return declaration.listedSymbol rfl rfl returns
      exact ⟨true, previous, returned⟩

/-- A function is read back exactly: its name, one parameter for each entry with its sigil, its type
and its default value, and its return type. -/
theorem recognize_sigil_function (declaration : Declaration) (tokens rest : List Token)
    (spelled : tokens.map lexeme = declaration.lexemes)
    (ends : ∀ token ∈ rest.head?, token.kind = .openBrace ∨ token.kind = .semicolon) :
    Language.php.recognize (tokens ++ rest) = declaration.symbol := by
  obtain ⟨returnType, previous, returned⟩ := read_return_lexemes declaration
  have regrouped : declaration.lexemes = (declaration.header ++ (.openParen, "(") ::
      separated (declaration.parameters.map (·.lexemes)) ++ [(.closeParen, ")")]) ++
        declaration.returnLexemes := by
    simp [Declaration.lexemes]
  have reached : Language.php.read {} (tokens.map lexeme) =
      closedReading declaration.symbol returnType previous := by
    rw [spelled, regrouped, Language.read_append, read_to_list_end, returned]
  exact Language.recognize_function .php (by decide) rfl ⟨rfl, rfl, rfl⟩ reached ends

def sampleDeclaration : Declaration where
  modifiers := [⟨"final", by decide⟩, ⟨"public", by decide⟩]
  reference := true
  name := ⟨"f", by decide⟩
  parameters := [
    { modifiers := [⟨"private", by decide⟩, ⟨"readonly", by decide⟩]
      type := some (.union true ⟨"Foo", by decide, by decide⟩ [⟨"string", by decide, by decide⟩])
      reference := true
      variadic := true
      name := ⟨"$x", by decide⟩
      value := some {
        lexemes := [(.openBracket, "["), (.number, "1"), (.comma, ","), (.number, "2"),
          (.closeBracket, "]")]
        balanced := ⟨by decide, by decide⟩
        commas := by decide } },
    { type := some (.intersection ⟨"\\N\\P", by decide, by decide⟩ [⟨"Q", by decide, by decide⟩])
      reference := true
      name := ⟨"$y", by decide⟩ },
    { name := ⟨"$z", by decide⟩ }]
  returns := some {
    nullable := true
    type := .mk (.array (.word ⟨"R", by decide, by decide⟩)) {} }

theorem recognize_sample_method :
    (layOut 0 sampleDeclaration.lexemes).map lexeme = sampleDeclaration.lexemes ∧
      Language.php.recognize
          (layOut 0 sampleDeclaration.lexemes ++ [ofLexeme (.openBrace, "\x7b")]) =
        { name := "f"
          kind := .function
          params := [{ name := "$x", type := some "?Foo|string", value := some "[1,2]" },
            { name := "$y", type := some "\\N\\P&Q" }, { name := "$z" }]
          returns := { present := true, type := some "?R[]" } } :=
  ⟨map_lexeme_lay_out 0 _, recognize_sigil_function sampleDeclaration _ _
    (map_lexeme_lay_out 0 _) (by simp)⟩

end DocComment.Sigil
