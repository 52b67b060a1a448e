import DocComment.Proofs.TypeFirstFunction
import Mathlib.Control.Monad.Basic

/-!
Wildcards among the arguments of generic parameter types. A lone question mark is skipped. In front
of a bound the word of the wildcard is taken for an argument, so the bound is one word too many: a
built-in type takes the place of all that was written of the type, and any other word ends it and is
declared as a parameter, with the brackets still open. The main statement says when every parameter
is declared as it is written, and where the list breaks otherwise.
-/

namespace DocComment.TypeFirst

open Token Grammar TypeText

inductive Bound where
  | upper | lower
  deriving DecidableEq, Repr

def Bound.word : Bound → (dialect .java).Word
  | .upper => ⟨"extends", by decide, by decide⟩
  | .lower => ⟨"super", by decide, by decide⟩

mutual

inductive WildcardType where
  | plain (word : (dialect .java).Word) (dimensions : Nat)
  | generic (word : (dialect .java).Word) (arguments : WildcardArguments) (dimensions : Nat)

inductive WildcardArguments where
  | last (argument : WildcardArgument)
  | more (argument : WildcardArgument) (rest : WildcardArguments)

inductive WildcardArgument where
  | type (type : WildcardType)
  | unbounded
  | bounded (bound : Bound) (type : WildcardType)

end

def WildcardType.word : WildcardType → (dialect .java).Word
  | .plain word _ => word
  | .generic word _ _ => word

def dimensionLexemes : Nat → List Lexeme
  | 0 => []
  | dimensions + 1 => (.openBracket, "[") :: (.closeBracket, "]") :: dimensionLexemes dimensions

mutual

def WildcardType.tail : WildcardType → List Lexeme
  | .plain _ dimensions => dimensionLexemes dimensions
  | .generic _ arguments dimensions =>
      (.lessThan, "<") :: (arguments.lexemes ++ (.greaterThan, ">") :: dimensionLexemes dimensions)

def WildcardArguments.lexemes : WildcardArguments → List Lexeme
  | .last argument => argument.lexemes
  | .more argument rest => argument.lexemes ++ (.comma, ",") :: rest.lexemes

def WildcardArgument.lexemes : WildcardArgument → List Lexeme
  | .type type => Token.word type.word.text :: type.tail
  | .unbounded => [(.question, "?")]
  | .bounded bound type =>
      (.question, "?") :: Token.word bound.word.text :: Token.word type.word.text :: type.tail

end

def isBuiltinType (text : String) : Bool := Language.java.grammar.has text .builtinType

mutual

/-- The text that the tail makes of what is written, unless the list breaks. A bound starts it
anew. -/
def WildcardType.textAfter (written : String) : WildcardType → String
  | .plain _ dimensions => written ++ spelling (dimensionLexemes dimensions)
  | .generic _ arguments dimensions =>
      arguments.textAfter (written ++ "<") ++ ">" ++ spelling (dimensionLexemes dimensions)

def WildcardArguments.textAfter (written : String) : WildcardArguments → String
  | .last argument => argument.textAfter written
  | .more argument rest => rest.textAfter (argument.textAfter written ++ ", ")

def WildcardArgument.textAfter (written : String) : WildcardArgument → String
  | .type type => type.textAfter (written ++ type.word.text)
  | .unbounded => written
  | .bounded _ type => type.textAfter type.word.text

end

mutual

/-- The parameter that is declared by mistake: it is named by the first bound whose word is no
built-in type. -/
def WildcardType.strayAfter? (written : String) : WildcardType → Option Symbol.Param
  | .plain _ _ => none
  | .generic _ arguments _ => arguments.strayAfter? (written ++ "<")

def WildcardArguments.strayAfter? (written : String) : WildcardArguments → Option Symbol.Param
  | .last argument => argument.strayAfter? written
  | .more argument rest =>
      (argument.strayAfter? written).or (rest.strayAfter? (argument.textAfter written ++ ", "))

def WildcardArgument.strayAfter? (written : String) : WildcardArgument → Option Symbol.Param
  | .type type => type.strayAfter? (written ++ type.word.text)
  | .unbounded => none
  | .bounded bound type =>
      if isBuiltinType type.word.text then type.strayAfter? type.word.text
      else some { name := type.word.text, type := some (written ++ bound.word.text) }

end

structure WildcardParameter where
  type : WildcardType
  name : Language.java.grammar.Name

namespace WildcardParameter

def lexemes (parameter : WildcardParameter) : List Lexeme :=
  Token.word parameter.type.word.text :: (parameter.type.tail ++ [parameter.name.lexeme])

def param (parameter : WildcardParameter) : Symbol.Param where
  name := parameter.name.text
  type := some (parameter.type.textAfter parameter.type.word.text)

def stray? (parameter : WildcardParameter) : Option Symbol.Param :=
  parameter.type.strayAfter? parameter.type.word.text

/-- The parameters of the entries up to the first that declares another one by mistake. -/
def listed : List WildcardParameter → List Symbol.Param
  | [] => []
  | parameter :: parameters =>
      match parameter.stray? with
      | none => parameter.param :: listed parameters
      | some stray => [stray]

end WildcardParameter

def staysInList (lexeme : Lexeme) : Bool := lexeme.1 != .closeParen && lexeme.1 != .assign

/-- The list is open, and behind the parameters of the symbol there may be more. -/
def Grows (symbol : Symbol) (reading : Reading) : Prop :=
  symbol.kind = .function ∧ ∃ more pending depth previous,
    reading = listReading (symbol.withParams more) pending depth false 0 previous

theorem list_reading_grows {symbol : Symbol} (kind : symbol.kind = .function)
    (pending : Option String) (depth : Nat) (previous : Option Kind) :
    Grows symbol (listReading symbol pending depth false 0 previous) :=
  ⟨kind, [], pending, depth, previous, by rw [Symbol.with_params_nil]⟩

theorem parameter_word_grows (grammar : Grammar) (symbol : Symbol) (pending : Option String)
    (depth : Nat) (previous : Option Kind) (token : Token) :
    ∃ more pending' depth',
      parameterWord grammar (listReading symbol pending depth false 0 previous) token =
        listReading (symbol.withParams more) pending' depth' false 0 previous := by
  unfold parameterWord
  split
  · exact ⟨[], pending, depth, by rw [Symbol.with_params_nil]⟩
  · cases pending with
    | none =>
        dsimp only [listReading]
        split
        · exact ⟨[], some token.text, depth, by rw [Symbol.with_params_nil]⟩
        · exact ⟨[], none, depth, by rw [Symbol.with_params_nil]⟩
    | some type =>
        dsimp only [listReading]
        split
        · next extended same =>
            simp only [extendPending?, Option.map_eq_some_iff] at same
            obtain ⟨⟨type', depth'⟩, _, rfl⟩ := same
            exact ⟨[], some type', depth', by rw [Symbol.with_params_nil]⟩
        · split
          · exact ⟨[], some token.text, depth, by rw [Symbol.with_params_nil]⟩
          · split
            · exact ⟨[{ name := token.text, type := some type }], none, depth, rfl⟩
            · exact ⟨[], some type, depth, by rw [Symbol.with_params_nil]⟩

theorem list_token_grows (symbol : Symbol) (pending : Option String) (depth : Nat)
    (previous : Option Kind) {lexeme : Lexeme} (stays : staysInList lexeme = true) :
    ∃ more pending' depth',
      listToken Language.java.grammar Language.java.typeFirstRules
          (listReading symbol pending depth false 0 previous) (ofLexeme lexeme) =
        listReading (symbol.withParams more) pending' depth' false 0 previous := by
  obtain ⟨lexemeKind, text⟩ := lexeme
  have word := parameter_word_grows Language.java.grammar symbol pending depth previous
    (ofLexeme (lexemeKind, text))
  cases lexemeKind with
  | closeParen | assign => simp [staysInList] at stays
  | openParen => exact ⟨[], pending, depth, by rw [Symbol.with_params_nil]; rfl⟩
  | comma =>
      by_cases outside : depth = 0
      · refine ⟨settledParams pending, none, 0, ?_⟩
        rw [← settled_eq_with_params]
        subst outside
        cases pending <;> rfl
      · simpa [listToken, listReading, outside] using word
  | _ => exact word

theorem Grows.read {symbol : Symbol} {reading : Reading} (grows : Grows symbol reading)
    {lexemes : List Lexeme} (stay : lexemes.all staysInList = true) :
    Grows symbol (Language.java.read reading lexemes) := by
  induction lexemes generalizing reading with
  | nil => exact grows
  | cons lexeme lexemes induction =>
      obtain ⟨kind, more, pending, depth, previous, rfl⟩ := grows
      rw [List.all_cons, Bool.and_eq_true] at stay
      obtain ⟨further, pending', depth', token⟩ :=
        list_token_grows (symbol.withParams more) pending depth previous stay.1
      have grown : (symbol.withParams more).kind = .function := kind
      rw [Language.read_cons, step_no_value (.inr rfl) grown, token, ← Symbol.with_params_append]
      exact induction ⟨kind, more ++ further, pending', depth', some lexeme.1, rfl⟩ stay.2

theorem Grows.close {symbol : Symbol} {reading : Reading} (grows : Grows symbol reading) :
    ∃ more, Language.java.stepUnlessDone reading (ofLexeme (.closeParen, ")")) =
      closedReading (symbol.withParams more) (some .closeParen) := by
  obtain ⟨kind, more, pending, depth, previous, rfl⟩ := grows
  refine ⟨more ++ settledParams pending, ?_⟩
  have grown : (symbol.withParams more).kind = .function := kind
  rw [step_no_value (.inr rfl) grown, Symbol.with_params_append, ← settled_eq_with_params]
  cases pending <;> rfl

theorem spelling_dimension (dimensions : Nat) :
    spelling (dimensionLexemes (dimensions + 1)) =
      "[]" ++ spelling (dimensionLexemes dimensions) := by
  simp [dimensionLexemes, spelling, ← String.append_assoc]

theorem dimensions_stay (dimensions : Nat) :
    (dimensionLexemes dimensions).all staysInList = true := by
  induction dimensions with
  | zero => rfl
  | succ dimensions induction => simpa [dimensionLexemes, staysInList] using induction

mutual

theorem tail_stays (type : WildcardType) : type.tail.all staysInList = true := by
  match type with
  | .plain _ dimensions => exact dimensions_stay dimensions
  | .generic _ arguments dimensions =>
      simp [WildcardType.tail, staysInList, arguments_stay arguments, dimensions_stay dimensions]

theorem arguments_stay (arguments : WildcardArguments) :
    arguments.lexemes.all staysInList = true := by
  match arguments with
  | .last argument => exact argument_stays argument
  | .more argument rest =>
      rw [WildcardArguments.lexemes, List.all_append, argument_stays argument, List.all_cons,
        arguments_stay rest]
      rfl

theorem argument_stays (argument : WildcardArgument) :
    argument.lexemes.all staysInList = true := by
  match argument with
  | .type type =>
      rw [WildcardArgument.lexemes, List.all_cons, tail_stays type]
      rfl
  | .unbounded => rfl
  | .bounded bound type =>
      rw [WildcardArgument.lexemes, List.all_cons, List.all_cons, List.all_cons, tail_stays type]
      rfl

end

theorem dimensions_last (holds : Char → Bool) (bracket : holds ']' = true) (dimensions : Nat)
    {written : String} (ends : ∃ c, Text.lastChar? written = some c ∧ holds c = true) :
    ∃ c, Text.lastChar? (written ++ spelling (dimensionLexemes dimensions)) = some c ∧
      holds c = true := by
  induction dimensions generalizing written with
  | zero => simpa [dimensionLexemes, spelling] using ends
  | succ dimensions induction =>
      rw [spelling_dimension, ← String.append_assoc]
      refine induction ⟨']', ?_, bracket⟩
      rw [Text.last_char_append]
      rfl

theorem text_ends_firm (type : WildcardType) {written : String} (ends : EndsFirm written) :
    EndsFirm (type.textAfter written) := by
  cases type with
  | plain _ dimensions => exact dimensions_last isFirm (by decide) dimensions ends
  | generic _ arguments dimensions =>
      refine dimensions_last isFirm (by decide) dimensions ⟨'>', ?_, by decide⟩
      rw [Text.last_char_append]
      rfl

mutual

/-- The type of a stray parameter ends in the word of a wildcard. -/
theorem stray_after_type (type : WildcardType) {written : String} {stray : Symbol.Param}
    (strays : type.strayAfter? written = some stray) :
    ∃ start, ∃ bound : Bound, stray.type = some (start ++ bound.word.text) := by
  match type with
  | .plain _ _ => simp [WildcardType.strayAfter?] at strays
  | .generic _ arguments _ => exact stray_after_arguments arguments strays

theorem stray_after_arguments (arguments : WildcardArguments) {written : String}
    {stray : Symbol.Param} (strays : arguments.strayAfter? written = some stray) :
    ∃ start, ∃ bound : Bound, stray.type = some (start ++ bound.word.text) := by
  match arguments with
  | .last argument => exact stray_after_argument argument strays
  | .more argument rest =>
      rw [WildcardArguments.strayAfter?, Option.or_eq_some_iff] at strays
      rcases strays with strays | ⟨_, strays⟩
      · exact stray_after_argument argument strays
      · exact stray_after_arguments rest strays

theorem stray_after_argument (argument : WildcardArgument) {written : String}
    {stray : Symbol.Param} (strays : argument.strayAfter? written = some stray) :
    ∃ start, ∃ bound : Bound, stray.type = some (start ++ bound.word.text) := by
  match argument with
  | .type type => exact stray_after_type type strays
  | .unbounded => simp [WildcardArgument.strayAfter?] at strays
  | .bounded bound type =>
      rw [WildcardArgument.strayAfter?] at strays
      split at strays
      · exact stray_after_type type strays
      · obtain rfl := Option.some.inj strays
        exact ⟨written, bound, rfl⟩

end

theorem generic_ends_in_sign (word : (dialect .java).Word) (arguments : WildcardArguments)
    (dimensions : Nat) (written : String) :
    ∃ c, Text.lastChar? ((WildcardType.generic word arguments dimensions).textAfter written) =
      some c ∧ (!isWordChar c) = true := by
  refine dimensions_last (fun c => !isWordChar c) (by decide) dimensions ⟨'>', ?_, by decide⟩
  rw [Text.last_char_append]
  rfl

/-- A stray parameter is never the one that its entry should declare: the type of the one ends in a
word and the type of the other in a bracket. -/
theorem stray_ne_param {parameter : WildcardParameter} {stray : Symbol.Param}
    (strays : parameter.stray? = some stray) : stray ≠ parameter.param := by
  obtain ⟨type, name⟩ := parameter
  intro same
  obtain ⟨start, bound, ends⟩ := stray_after_type type strays
  cases type with
  | plain _ _ => simp [WildcardParameter.stray?, WildcardType.strayAfter?] at strays
  | generic word arguments dimensions =>
      obtain ⟨c, last, sign⟩ := generic_ends_in_sign word arguments dimensions word.text
      obtain ⟨d, wordLast, wordChar⟩ := reads_as_word_last bound.word.reads
      have types : (WildcardType.generic word arguments dimensions).textAfter word.text =
          start ++ bound.word.text := by
        have recorded := congrArg Symbol.Param.type same
        rw [ends] at recorded
        exact (Option.some.inj recorded).symm
      rw [types, Text.last_char_append, wordLast] at last
      obtain rfl : d = c := by simpa using last
      simp [wordChar] at sign

/-- Part of a type has been read: it is written out and nothing else happened, or the list broke. -/
def TypeRead (symbol : Symbol) (depth : Nat) (text : String) (stray? : Option Symbol.Param)
    (reading : Reading) : Prop :=
  match stray? with
  | none => ∃ previous, reading = listReading symbol (some text) depth false 0 previous
  | some stray => Grows (symbol.withParams [stray]) reading

/-- More of a type counts only if the list has not been broken yet. -/
theorem TypeRead.append {symbol : Symbol} {depth depth' : Nat} {text text' : String}
    {stray? stray?' : Option Symbol.Param} {reading : Reading}
    (read : TypeRead symbol depth text stray? reading) {lexemes : List Lexeme}
    (stay : lexemes.all staysInList = true)
    (rest : ∀ previous, TypeRead symbol depth' text' stray?' (Language.java.read
      (listReading symbol (some text) depth false 0 previous) lexemes)) :
    TypeRead symbol depth' text' (stray?.or stray?') (Language.java.read reading lexemes) := by
  cases stray? with
  | none =>
      obtain ⟨previous, rfl⟩ := read
      exact rest previous
  | some stray => exact Grows.read read stay

section

variable {symbol : Symbol} (kind : symbol.kind = .function)
include kind

theorem read_dimensions (dimensions : Nat) {written : String} (ends : EndsFirm written)
    (depth : Nat) (previous : Option Kind) :
    TypeRead symbol depth (written ++ spelling (dimensionLexemes dimensions)) none
      (Language.java.read (listReading symbol (some written) depth false 0 previous)
        (dimensionLexemes dimensions)) := by
  induction dimensions generalizing written previous with
  | zero => exact ⟨previous, by simp [dimensionLexemes, spelling]⟩
  | succ dimensions induction =>
      have closed := not_open_of_ends_firm ends
      -- The opening bracket adds both, the closing one nothing.
      have takenOpen : (dialect .java).take? written depth (.openBracket, "[") =
          some (written ++ "[]", depth) := by
        simp [Dialect.take?, extend?, addition?, closed]
      have takenClose : (dialect .java).take? (written ++ "[]") depth (.closeBracket, "]") =
          some (written ++ "[]", depth) := by
        simp [Dialect.take?, extend?, addition?, Text.ends_in_append]
      have brackets : EndsFirm "[]" := ⟨']', by decide, by decide⟩
      obtain ⟨last, rest⟩ := induction (ends_firm_append written brackets) (some .closeBracket)
      refine ⟨last, ?_⟩
      rw [spelling_dimension, ← String.append_assoc, ← rest, dimensionLexemes, Language.read_cons,
        Language.read_cons, step_pending_type (.inr rfl) kind previous takenOpen,
        step_pending_type (.inr rfl) kind _ takenClose]

/-- A question mark is skipped inside of a type. -/
theorem step_question {written : String} (nonempty : written ≠ "") (depth : Nat)
    (previous : Option Kind) :
    Language.java.stepUnlessDone (listReading symbol (some written) depth false 0 previous)
        (ofLexeme (.question, "?")) =
      listReading symbol (some written) depth false 0 (some .question) := by
  rw [step_no_value (.inr rfl) kind]
  simp [listToken, parameterWord, admits, Kind.isWord, listReading, extendPending?, extend?,
    addition?, nonempty, Language.past]

mutual

theorem read_tail (type : WildcardType) {written : String} (ends : EndsFirm written)
    (depth : Nat) (previous : Option Kind) :
    TypeRead symbol depth (type.textAfter written) (type.strayAfter? written)
      (Language.java.read (listReading symbol (some written) depth false 0 previous)
        type.tail) := by
  match type with
  | .plain _ dimensions => exact read_dimensions kind dimensions ends depth previous
  | .generic _ arguments dimensions =>
      have takenOpen : (dialect .java).take? written depth (.lessThan, "<") =
          some (written ++ "<", depth + 1) := by
        simp [Dialect.take?, extend?, addition?, not_open_of_ends_firm ends]
      have opened : isOpen (written ++ "<") = true :=
        open_append_sign written (c := '<') (by decide) (by decide)
      have inside := read_arguments arguments opened (by simp) depth (some .lessThan)
      rw [WildcardType.tail, Language.read_cons,
        step_pending_type (.inr rfl) kind previous takenOpen, Language.read_append,
        WildcardType.strayAfter?, ← Option.or_none (o := arguments.strayAfter? _)]
      refine inside.append (by simp [staysInList, dimensions_stay]) fun previous => ?_
      have takenClose : (dialect .java).take? (arguments.textAfter (written ++ "<")) (depth + 1)
          (.greaterThan, ">") = some (arguments.textAfter (written ++ "<") ++ ">", depth) := by
        simp [Dialect.take?, extend?, addition?]
      rw [Language.read_cons, step_pending_type (.inr rfl) kind previous takenClose]
      exact read_dimensions kind dimensions (ends_firm_append _ ⟨'>', by decide, by decide⟩) depth _

/-- Arguments are read one bracket deeper than the type they belong to. -/
theorem read_arguments (arguments : WildcardArguments) {written : String}
    (ready : isOpen written = true) (nonempty : written ≠ "") (depth : Nat)
    (previous : Option Kind) :
    TypeRead symbol (depth + 1) (arguments.textAfter written) (arguments.strayAfter? written)
      (Language.java.read (listReading symbol (some written) (depth + 1) false 0 previous)
        arguments.lexemes) := by
  match arguments with
  | .last argument => exact read_argument argument ready nonempty depth previous
  | .more argument rest =>
      have first := read_argument argument ready nonempty depth previous
      rw [WildcardArguments.lexemes, Language.read_append]
      refine first.append (by rw [List.all_cons, arguments_stay rest]; rfl) fun previous => ?_
      have takenComma : (dialect .java).take? (argument.textAfter written) (depth + 1)
          (.comma, ",") = some (argument.textAfter written ++ ", ", depth + 1) := by
        simp [Dialect.take?, extend?, addition?]
      have opened : isOpen (argument.textAfter written ++ ", ") = true :=
        open_append_sign _ (c := ' ') (by decide) (by decide)
      rw [Language.read_cons, step_pending_type (.inr rfl) kind previous takenComma]
      exact read_arguments rest opened (by simp) depth (some .comma)

theorem read_argument (argument : WildcardArgument) {written : String}
    (ready : isOpen written = true) (nonempty : written ≠ "") (depth : Nat)
    (previous : Option Kind) :
    TypeRead symbol (depth + 1) (argument.textAfter written) (argument.strayAfter? written)
      (Language.java.read (listReading symbol (some written) (depth + 1) false 0 previous)
        argument.lexemes) := by
  match argument with
  | .type type =>
      have ends := ends_firm_append written (ends_firm_of_reads_as_word type.word.reads)
      rw [WildcardArgument.lexemes, Language.read_cons,
        step_pending_type (.inr rfl) kind previous (take_word type.word (depth + 1) ready)]
      exact read_tail type ends (depth + 1) _
  | .unbounded => exact ⟨_, step_question kind nonempty (depth + 1) previous⟩
  | .bounded bound type =>
      have ends := ends_firm_append written (ends_firm_of_reads_as_word bound.word.reads)
      -- The wildcard's own word has been taken for an argument, so the type is closed here.
      rw [WildcardArgument.lexemes, Language.read_cons, step_question kind nonempty,
        Language.read_cons,
        step_pending_type (.inr rfl) kind _ (take_word bound.word (depth + 1) ready),
        Language.read_cons, step_word_of_closed (.inr rfl) kind (not_open_of_ends_firm ends)
          type.word.admitted, WildcardArgument.strayAfter?, isBuiltinType]
      by_cases builtin : Language.java.grammar.has type.word.text .builtinType = true
      · rw [if_pos builtin, if_pos builtin]
        exact read_tail type (ends_firm_of_reads_as_word type.word.reads) (depth + 1) _
      · rw [if_neg builtin, if_neg builtin]
        have pushed : (symbol.pushParam
            { name := type.word.text, type := some (written ++ bound.word.text) }).kind =
              .function := kind
        exact (list_reading_grows pushed none (depth + 1) _).read (tail_stays type)

end

/-- An entry that declares its own parameter leaves the list ready for the next one. -/
theorem read_wildcard_parameter (parameter : WildcardParameter) (regular : parameter.stray? = none)
    (previous : Option Kind) :
    Language.java.read (listReading symbol none 0 false 0 previous) parameter.lexemes =
      listReading (symbol.withParams [parameter.param]) none 0 false 0 (some .identifier) := by
  have ends := ends_firm_of_reads_as_word parameter.type.word.reads
  have read := read_tail kind parameter.type ends 0 (some .identifier)
  rw [← WildcardParameter.stray?, regular] at read
  obtain ⟨last, read⟩ := read
  rw [WildcardParameter.lexemes, Language.read_cons, step_starts_type (.inr rfl) kind,
    Language.read_append, read]
  exact step_name_of_closed (.inr rfl) kind
    (not_open_of_ends_firm (text_ends_firm parameter.type ends)) parameter.name last

theorem read_stray_parameter {parameter : WildcardParameter} {stray : Symbol.Param}
    (strays : parameter.stray? = some stray) (previous : Option Kind) :
    Grows (symbol.withParams [stray])
      (Language.java.read (listReading symbol none 0 false 0 previous) parameter.lexemes) := by
  have ends := ends_firm_of_reads_as_word parameter.type.word.reads
  have read := read_tail kind parameter.type ends 0 (some .identifier)
  rw [← WildcardParameter.stray?, strays] at read
  rw [WildcardParameter.lexemes, Language.read_cons, step_starts_type (.inr rfl) kind,
    Language.read_append]
  exact Grows.read read rfl

end

theorem wildcard_parameter_stays (parameter : WildcardParameter) :
    parameter.lexemes.all staysInList = true := by
  rw [WildcardParameter.lexemes, List.all_cons, List.all_append, tail_stays]
  rfl

theorem further_parameters_stay (parameters : List WildcardParameter) :
    ((parameters.map (·.lexemes)).flatMap ((.comma, ",") :: ·)).all staysInList = true := by
  induction parameters with
  | nil => rfl
  | cons parameter parameters induction =>
      rw [List.map_cons, List.flatMap_cons, List.cons_append, List.all_cons, List.all_append,
        wildcard_parameter_stays, induction]
      rfl

theorem read_first_regular {parameter : WildcardParameter} (regular : parameter.stray? = none)
    (parameters : List WildcardParameter) {symbol : Symbol} {reading : Reading}
    (awaits : AwaitsEntry symbol reading) :
    ∃ ready, AwaitsEntry (symbol.withParams [parameter.param]) ready ∧
      Language.java.read reading (separated ((parameter :: parameters).map (·.lexemes))) =
        Language.java.read ready (separated (parameters.map (·.lexemes))) := by
  obtain ⟨kind, previous, rfl⟩ := awaits
  have read := read_wildcard_parameter kind parameter regular previous
  have awaits : AwaitsEntry (symbol.withParams [parameter.param])
      (listReading (symbol.withParams [parameter.param]) none 0 false 0 (some .identifier)) :=
    ⟨kind, _, rfl⟩
  cases parameters with
  | nil =>
      refine ⟨_, awaits, ?_⟩
      rw [List.map_singleton, separated, List.flatMap_nil, List.append_nil, read]
      rfl
  | cons next parameters =>
      refine ⟨_, awaits.ends.comma (.inr rfl), ?_⟩
      rw [List.map_cons, separated, Language.read_append, read, List.map_cons, List.flatMap_cons,
        List.cons_append, Language.read_cons]
      rfl

/-- The list declares its parameters up to the first stray one, and ends there if there is none. -/
theorem read_wildcard_list (parameters : List WildcardParameter) {symbol : Symbol}
    {reading : Reading} (awaits : AwaitsEntry symbol reading) :
    Grows (symbol.withParams (WildcardParameter.listed parameters))
        (Language.java.read reading (separated (parameters.map (·.lexemes)))) ∧
      ((∀ parameter ∈ parameters, parameter.stray? = none) →
        AwaitsEntry (symbol.withParams (WildcardParameter.listed parameters))
          (Language.java.read reading (separated (parameters.map (·.lexemes))))) := by
  induction parameters generalizing symbol reading with
  | nil =>
      rw [WildcardParameter.listed, Symbol.with_params_nil]
      obtain ⟨kind, previous, rfl⟩ := awaits
      exact ⟨list_reading_grows kind none 0 previous, fun _ => ⟨kind, previous, rfl⟩⟩
  | cons parameter parameters induction =>
      cases strays : parameter.stray? with
      | none =>
          obtain ⟨ready, awaitsNext, read⟩ := read_first_regular strays parameters awaits
          have listed : symbol.withParams (WildcardParameter.listed (parameter :: parameters)) =
              (symbol.withParams [parameter.param]).withParams
                (WildcardParameter.listed parameters) := by
            rw [WildcardParameter.listed, strays, ← Symbol.with_params_append]
            rfl
          rw [listed, read]
          obtain ⟨grows, regular⟩ := induction awaitsNext
          exact ⟨grows, fun all => regular fun other member => all other (by simp [member])⟩
      | some stray =>
          obtain ⟨kind, previous, rfl⟩ := awaits
          have listed : WildcardParameter.listed (parameter :: parameters) = [stray] := by
            rw [WildcardParameter.listed, strays]
          rw [listed, List.map_cons, separated, Language.read_append]
          refine ⟨(read_stray_parameter kind strays previous).read
            (further_parameters_stay parameters), fun all => ?_⟩
          have regular := all parameter (by simp)
          rw [strays] at regular
          contradiction

theorem listed_of_regular {parameters : List WildcardParameter}
    (regular : ∀ parameter ∈ parameters, parameter.stray? = none) :
    WildcardParameter.listed parameters = parameters.map (·.param) := by
  induction parameters with
  | nil => rfl
  | cons parameter parameters induction =>
      rw [List.forall_mem_cons] at regular
      rw [WildcardParameter.listed, regular.1, List.map_cons, induction regular.2]

/-- If no stray parameter looks like the one that its entry should declare, a list that looks as it is
written has no stray ones. -/
theorem regular_of_listed {α : Type} (view : Symbol.Param → α)
    {parameters : List WildcardParameter} {more : List Symbol.Param}
    (apart : ∀ parameter ∈ parameters, ∀ stray, parameter.stray? = some stray →
      view stray ≠ view parameter.param)
    (same : (WildcardParameter.listed parameters ++ more).map view =
      parameters.map fun parameter => view parameter.param) :
    ∀ parameter ∈ parameters, parameter.stray? = none := by
  induction parameters with
  | nil => simp
  | cons parameter parameters induction =>
      rw [List.forall_mem_cons] at apart
      rw [WildcardParameter.listed, List.map_cons] at same
      split at same
      · next regular =>
          rw [List.cons_append, List.map_cons, List.cons.injEq] at same
          exact List.forall_mem_cons.2 ⟨regular, induction apart.2 same.2⟩
      · next stray strays =>
          rw [List.cons_append, List.map_cons, List.cons.injEq] at same
          exact absurd same.1 (apart.1 stray strays)

/-- The list declares its parameters up to the first that is declared by mistake, whatever follows.
All are declared as they are written if and only if there is no such one. The same goes for their
names and their number, unless a bound has the name of the parameter whose type it is in. -/
theorem recognize_wildcard_parameters_iff (heading : Heading .java)
    (parameters : List WildcardParameter) (tokens rest : List Token)
    (spelled : tokens.map lexeme = heading.lexemes ++ (.openParen, "(") ::
      separated (parameters.map (·.lexemes)) ++ [(.closeParen, ")")])
    (ends : ∀ token ∈ rest.head?, token.kind = .openBrace ∨ token.kind = .semicolon) :
    WildcardParameter.listed parameters <+: (Language.java.recognize (tokens ++ rest)).params ∧
      ((Language.java.recognize (tokens ++ rest)).params = parameters.map (·.param) ↔
        ∀ parameter ∈ parameters, parameter.stray? = none) ∧
      ((∀ parameter ∈ parameters, ∀ stray, parameter.stray? = some stray →
          stray.name ≠ parameter.name.text) →
        ((Language.java.recognize (tokens ++ rest)).params.map (·.name) =
            parameters.map (·.name.text) ↔
          ∀ parameter ∈ parameters, parameter.stray? = none)) := by
  have awaits : AwaitsEntry heading.symbol heading.reading := ⟨rfl, _, rfl⟩
  obtain ⟨grows, regular⟩ := read_wildcard_list parameters awaits
  obtain ⟨more, closes⟩ := grows.close
  have kind : ((heading.symbol.withParams (WildcardParameter.listed parameters)).withParams
      more).kind = .function := grows.1
  have recognized := heading.recognize_list (.inr rfl) kind closes tokens rest spelled ends
  have params : (Language.java.recognize (tokens ++ rest)).params =
      WildcardParameter.listed parameters ++ more := by
    rw [recognized]
    rfl
  have whole (all : ∀ parameter ∈ parameters, parameter.stray? = none) :
      (Language.java.recognize (tokens ++ rest)).params = parameters.map (·.param) := by
    have recognized := heading.recognize_list (.inr rfl) grows.1
      ((regular all).ends.close (.inr rfl)) tokens rest spelled ends
    rw [recognized, ← listed_of_regular all]
    rfl
  refine ⟨⟨more, params.symm⟩, ⟨fun same => ?_, whole⟩, fun apart => ⟨fun same => ?_, fun all => ?_⟩⟩
  · rw [params] at same
    exact regular_of_listed id (fun _ _ _ => stray_ne_param) ((List.map_id _).trans same)
  · rw [params] at same
    exact regular_of_listed (·.name) apart same
  · rw [whole all, List.map_map]
    rfl

def sampleMethod : Heading .java where
  returns := .mk (.word ⟨"void", void_reads_as_word, by decide⟩) .bare
  starts := .inl (by decide)
  name := ⟨"f", by decide⟩

/-- `Table<?, ? super byte[]>[] a, List<E, ? extends Set<?>> b, boolean c` -/
def sampleWildcards : List WildcardParameter :=
  [{ type := .generic ⟨"Table", by decide, by decide⟩ (.more .unbounded
      (.last (.bounded .lower (.plain ⟨"byte", by decide, by decide⟩ 1)))) 1
     name := ⟨"a", by decide⟩ },
    { type := .generic ⟨"List", by decide, by decide⟩
        (.more (.type (.plain ⟨"E", by decide, by decide⟩ 0))
          (.last (.bounded .upper
            (.generic ⟨"Set", by decide, by decide⟩ (.last .unbounded) 0)))) 0
      name := ⟨"b", by decide⟩ },
    { type := .plain ⟨"boolean", by decide, by decide⟩ 0, name := ⟨"c", by decide⟩ }]

def sampleWildcardList : List Lexeme :=
  sampleMethod.lexemes ++ (.openParen, "(") :: separated (sampleWildcards.map (·.lexemes)) ++
    [(.closeParen, ")")]

theorem recognize_sample_wildcards :
    (layOut 0 sampleWildcardList).map lexeme = sampleWildcardList ∧
      [{ name := "a", type := some "byte[]>[]" },
          { name := "Set", type := some "List<E, extends" }] <+:
        (Language.java.recognize
          (layOut 0 sampleWildcardList ++ [ofLexeme (.openBrace, "\x7b")])).params ∧
      ((Language.java.recognize
            (layOut 0 sampleWildcardList ++ [ofLexeme (.openBrace, "\x7b")])).params =
          sampleWildcards.map (·.param) ↔
        ∀ parameter ∈ sampleWildcards, parameter.stray? = none) ∧
      ((∀ parameter ∈ sampleWildcards, ∀ stray, parameter.stray? = some stray →
          stray.name ≠ parameter.name.text) →
        ((Language.java.recognize
              (layOut 0 sampleWildcardList ++ [ofLexeme (.openBrace, "\x7b")])).params.map (·.name) =
            sampleWildcards.map (·.name.text) ↔
          ∀ parameter ∈ sampleWildcards, parameter.stray? = none)) :=
  ⟨map_lexeme_lay_out 0 _, recognize_wildcard_parameters_iff sampleMethod sampleWildcards _ _
    (map_lexeme_lay_out 0 _) (by simp)⟩

/-- A bound with the name of its parameter is declared in its place, and the names come out right. -/
example : Language.java.parse "void f(List<? extends Foo> Foo, int b) \x7b" =
    .ok { name := "f", kind := .function,
          params := [{ name := "Foo", type := some "List<extends" },
            { name := "b", type := some "Foo, int" }] } := by
  decide +kernel

/-- A bound that is no built-in type: it is declared in place of the parameter, which is lost. -/
theorem recognize_bounded_wildcard :
    Language.java.parse "void f(List<? extends Foo> a, int b) \x7b" =
      .ok { name := "f", kind := .function,
            params := [{ name := "Foo", type := some "List<extends" },
              { name := "b", type := some "a, int" }] } := by
  decide +kernel

end DocComment.TypeFirst
