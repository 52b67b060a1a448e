import DocComment.Proofs.TypeFirstFunction
import Mathlib.Control.Monad.Basic

/-!
Array declarators behind the names of parameters. The brackets make the type of the parameter an
array, and their numbers are ignored, but a word in them waits for a name like the type of one more
parameter. The main statement gives the parameters that are declared with what the sizes leave
behind, and says when they leave nothing.
-/

namespace DocComment.TypeFirst

open Token Grammar TypeText DefaultValue

/-- What may stand between the brackets of a declarator. -/
inductive SizeLexeme where
  | number (text : String)
  | word (text : String) (reads : ReadsAsWord text)

def SizeLexeme.lexeme : SizeLexeme → Lexeme
  | .number text => (.number, text)
  | .word text _ => Token.word text

/-- The word that the reader takes for a type. Numbers are none, and modifiers and words for classes
are skipped. -/
def SizeLexeme.typeWord? : SizeLexeme → Option String
  | .number _ => none
  | .word text _ => if (dialect .c).admits text then some text else none

def sizeWords (size : List SizeLexeme) : List String := size.filterMap (·.typeWord?)

def declaratorLexemes (size : List SizeLexeme) : List Lexeme :=
  (.openBracket, "[") :: size.map (·.lexeme) ++ [(.closeBracket, "]")]

/-- `type name[size]…[size]` -/
structure ArrayParameter where
  type : (dialect .c).Word
  name : Language.c.grammar.Name
  sizes : List (List SizeLexeme) := []

namespace ArrayParameter

def lexemes (parameter : ArrayParameter) : List Lexeme :=
  word parameter.type.text :: parameter.name.lexeme :: parameter.sizes.flatMap declaratorLexemes

def paramOf (parameter : ArrayParameter) (isArray : Bool) : Symbol.Param where
  name := parameter.name.text
  type := some (if isArray then parameter.type.text ++ "[]" else parameter.type.text)

def param (parameter : ArrayParameter) : Symbol.Param :=
  parameter.paramOf (!parameter.sizes.isEmpty)

end ArrayParameter

def arrayOf (param : Symbol.Param) : Symbol.Param :=
  { param with type := some (toArray (param.type.getD "")) }

/-- What sizes leave behind: parameters, and a word that waits for a name. -/
structure Leftover where
  params : List Symbol.Param := []
  waiting : Option String := none

namespace Leftover

def isBuiltin (text : String) : Bool := Language.c.grammar.has text .builtinType

/-- One more word: it waits, takes the place of the word that waits, or has that as its type. -/
def word (left : Leftover) (text : String) : Leftover :=
  match left.waiting with
  | none => { left with waiting := some text }
  | some type =>
      if isBuiltin text then { left with waiting := some text }
      else { params := left.params ++ [{ name := text, type := some type }] }

/-- One more opening bracket: the word that waits, or else the last parameter, becomes an array. -/
def bracket (left : Leftover) : Leftover :=
  match left.waiting with
  | some type => { left with waiting := some (type ++ "[]") }
  | none => { params := left.params.dropLast ++ left.params.getLast?.toList.map arrayOf }

def size (left : Leftover) (size : List SizeLexeme) : Leftover :=
  (sizeWords size).foldl word left.bracket

/-- A word that still waits at the end is a parameter without a name, unless it is `void`. -/
def declares (left : Leftover) : List Symbol.Param := left.params ++ settledParams left.waiting

end Leftover

def ArrayParameter.leftover (parameter : ArrayParameter) : List Symbol.Param :=
  (parameter.sizes.foldl Leftover.size {}).declares

theorem to_array_word {text : String} (reads : ReadsAsWord text) : toArray text = text ++ "[]" := by
  have noBracket : Text.endsIn text "[]" = false := by
    rw [Bool.eq_false_iff]
    intro ends
    obtain ⟨c, last, wordChar⟩ := reads_as_word_last reads
    simp only [Text.endsIn, List.isSuffixOf_iff_suffix] at ends
    obtain ⟨start, same⟩ := ends
    have bracket : c = ']' := by simpa [Text.lastChar?, ← same] using last.symm
    rw [bracket] at wordChar
    exact absurd wordChar (by decide)
  simp [toArray, noBracket]

theorem array_of_param (parameter : ArrayParameter) (isArray : Bool) :
    arrayOf (parameter.paramOf isArray) = parameter.paramOf true := by
  cases isArray with
  | false => simp [arrayOf, ArrayParameter.paramOf, to_array_word parameter.type.reads]
  | true => simp [arrayOf, ArrayParameter.paramOf, toArray, Text.ends_in_append]

def Leftover.Firm (left : Leftover) : Prop := ∀ type ∈ left.waiting, EndsFirm type

theorem Leftover.firm_word {left : Leftover} {text : String} (reads : ReadsAsWord text) :
    (left.word text).Firm := by
  have ends := ends_firm_of_reads_as_word reads
  unfold Firm word
  split
  · simpa using ends
  · split
    · simpa using ends
    · simp

theorem Leftover.firm_bracket (left : Leftover) : left.bracket.Firm := by
  have ends : EndsFirm "[]" := ⟨']', by decide, by decide⟩
  unfold Firm bracket
  split
  · simpa using ends_firm_append _ ends
  · simp

def sizedReading (symbol : Symbol) (own : Symbol.Param) (left : Leftover)
    (previous : Option Kind) : Reading :=
  listReading (symbol.withParams (own :: left.params)) left.waiting 0 false 0 previous

section

variable {symbol : Symbol} (kind : symbol.kind = .function)
include kind

theorem step_size_number (text : String) (own : Symbol.Param) (left : Leftover)
    (previous : Option Kind) :
    Language.c.stepUnlessDone (sizedReading symbol own left previous)
        (ofLexeme (.number, text)) = sizedReading symbol own left (some .number) := by
  have kindSized : (symbol.withParams (own :: left.params)).kind = .function := kind
  rw [sizedReading, step_no_value (.inl rfl) kindSized]
  cases waits : left.waiting <;>
    simp [listToken, parameterWord, admits, Kind.isWord, listReading, extendPending?, extend?,
      addition?, Language.past, sizedReading, waits]

theorem step_size_close (own : Symbol.Param) (left : Leftover) (previous : Option Kind) :
    Language.c.stepUnlessDone (sizedReading symbol own left previous)
        (ofLexeme (.closeBracket, "]")) = sizedReading symbol own left (some .closeBracket) := by
  have kindSized : (symbol.withParams (own :: left.params)).kind = .function := kind
  rw [sizedReading, step_no_value (.inl rfl) kindSized]
  cases waits : left.waiting with
  | none => simp [listToken, parameterWord, admits, Kind.isWord, listReading, Language.past,
      sizedReading, waits]
  | some type =>
      -- A closing bracket adds nothing to the type, whether or not it is taken.
      by_cases ends : Text.endsIn type "[]" = true <;>
        simp [listToken, parameterWord, admits, Kind.isWord, listReading, extendPending?, extend?,
          addition?, ends, Language.past, sizedReading, waits]

theorem step_size_word {text : String} (reads : ReadsAsWord text) (own : Symbol.Param)
    {left : Leftover} (firm : left.Firm) (previous : Option Kind) :
    Language.c.stepUnlessDone (sizedReading symbol own left previous) (ofLexeme (word text)) =
      sizedReading symbol own
        (if (dialect .c).admits text then left.word text else left) (some .identifier) := by
  have kindSized : (symbol.withParams (own :: left.params)).kind = .function := kind
  by_cases admitted : (dialect .c).admits text = true
  · rw [if_pos admitted, sizedReading]
    unfold Leftover.word
    cases waits : left.waiting with
    | none => exact step_starts_type (.inl rfl) kindSized ⟨text, reads, admitted⟩ previous
    | some type =>
        have closed := not_open_of_ends_firm (firm type waits)
        rw [step_word_of_closed (.inl rfl) kindSized closed admitted]
        by_cases builtin : Language.c.grammar.has text .builtinType = true
        · simp [Leftover.isBuiltin, builtin, sizedReading]
        · simp [Leftover.isBuiltin, builtin, sizedReading, Symbol.pushParam, Symbol.withParams]
  · have skipped : Language.c.grammar.has text .modifier = true ∨
        Language.c.grammar.has text .classWord = true := by
      simpa [dialect, Decidable.imp_iff_not_or] using admitted
    rw [if_neg admitted]
    exact step_skipped (.inl rfl) kindSized ⟨text, skipped⟩ left.waiting 0 previous

/-- An opening bracket makes an array of what was declared last. That is the parameter itself as
long as nothing has been left behind it. -/
theorem step_size_open (parameter : ArrayParameter) {isArray : Bool} {left : Leftover}
    (firm : left.Firm) (sized : isArray = true ∨ left = {}) (previous : Option Kind) :
    Language.c.stepUnlessDone (sizedReading symbol (parameter.paramOf isArray) left previous)
        (ofLexeme (.openBracket, "[")) =
      sizedReading symbol (parameter.paramOf true) left.bracket (some .openBracket) := by
  have kindSized : ∀ own, (symbol.withParams (own :: left.params)).kind = .function := fun _ => kind
  obtain ⟨params, waiting⟩ := left
  cases waiting with
  | some type =>
      obtain rfl : isArray = true := by simpa using sized
      have closed := not_open_of_ends_firm (firm type rfl)
      have taken : (dialect .c).take? type 0 (.openBracket, "[") = some (type ++ "[]", 0) := by
        simp [Dialect.take?, extend?, addition?, closed]
      exact step_pending_type (.inl rfl) (kindSized _) previous taken
  | none =>
      have arrayed : Language.c.stepUnlessDone
          (sizedReading symbol (parameter.paramOf isArray) ⟨params, none⟩ previous)
          (ofLexeme (.openBracket, "[")) =
            listReading ((symbol.withParams (parameter.paramOf isArray :: params)).modifyLastParam
              arrayOf) none 0 false 0 (some .openBracket) := by
        rw [sizedReading, step_no_value (.inl rfl) (kindSized _)]
        rfl
      rw [arrayed]
      rcases List.eq_nil_or_concat params with rfl | ⟨earlier, last, rfl⟩
      · simp [sizedReading, Leftover.bracket, Symbol.withParams, Symbol.modifyLastParam,
          array_of_param]
      · obtain rfl : isArray = true := by simpa using sized
        simp [sizedReading, Leftover.bracket, Symbol.withParams, Symbol.modifyLastParam,
          List.getLast?_cons, List.dropLast_cons_of_ne_nil]

theorem read_size_lexemes (size : List SizeLexeme) (own : Symbol.Param) {left : Leftover}
    (firm : left.Firm) (previous : Option Kind) :
    ∃ previous',
      Language.c.read (sizedReading symbol own left previous) (size.map (·.lexeme)) =
        sizedReading symbol own ((sizeWords size).foldl Leftover.word left) previous' ∧
      ((sizeWords size).foldl Leftover.word left).Firm := by
  induction size generalizing left previous with
  | nil => exact ⟨previous, rfl, firm⟩
  | cons lexeme size induction =>
      rw [List.map_cons, Language.read_cons]
      cases lexeme with
      | number text =>
          rw [SizeLexeme.lexeme, step_size_number kind]
          exact induction firm (some .number)
      | word text reads =>
          rw [SizeLexeme.lexeme, step_size_word kind reads own firm]
          by_cases admitted : (dialect .c).admits text = true
          · have words : sizeWords (.word text reads :: size) = text :: sizeWords size := by
              simp [sizeWords, SizeLexeme.typeWord?, admitted]
            rw [if_pos admitted, words]
            exact induction (Leftover.firm_word reads) (some .identifier)
          · have words : sizeWords (.word text reads :: size) = sizeWords size := by
              simp [sizeWords, SizeLexeme.typeWord?, admitted]
            rw [if_neg admitted, words]
            exact induction firm (some .identifier)

theorem read_sizes (parameter : ArrayParameter) (sizes : List (List SizeLexeme)) {isArray : Bool}
    {left : Leftover} (firm : left.Firm) (sized : isArray = true ∨ left = {})
    (previous : Option Kind) :
    ∃ previous',
      Language.c.read (sizedReading symbol (parameter.paramOf isArray) left previous)
          (sizes.flatMap declaratorLexemes) =
        sizedReading symbol (parameter.paramOf (isArray || !sizes.isEmpty))
          (sizes.foldl Leftover.size left) previous' := by
  induction sizes generalizing isArray left previous with
  | nil => exact ⟨previous, by simp⟩
  | cons size sizes induction =>
      obtain ⟨inner, read, firmAfter⟩ := read_size_lexemes kind size (parameter.paramOf true)
        left.firm_bracket (some .openBracket)
      obtain ⟨last, rest⟩ := induction firmAfter (.inl rfl) (some .closeBracket)
      refine ⟨last, ?_⟩
      rw [List.flatMap_cons, declaratorLexemes, List.cons_append, List.cons_append,
        Language.read_cons, step_size_open kind parameter firm sized, List.append_assoc,
        Language.read_append, read, List.cons_append, List.nil_append, Language.read_cons,
        step_size_close kind]
      simpa [Leftover.size] using rest

end

theorem settled_with_params (symbol : Symbol) (own : Symbol.Param) (left : Leftover) :
    settled (symbol.withParams (own :: left.params)) left.waiting =
      symbol.withParams (own :: left.declares) := by
  rw [settled_eq_with_params, ← Symbol.with_params_append]
  rfl

/-- An entry declares its parameter and whatever its sizes leave. -/
theorem AwaitsEntry.array_parameter (parameter : ArrayParameter) {symbol : Symbol}
    {reading : Reading} (awaits : AwaitsEntry symbol reading) :
    EndsEntry (symbol.withParams (parameter.param :: parameter.leftover))
      (Language.c.read reading parameter.lexemes) := by
  obtain ⟨kind, previous, rfl⟩ := awaits
  have closed := not_open_of_ends_firm (ends_firm_of_reads_as_word parameter.type.reads)
  have named : Language.c.stepUnlessDone
      (listReading symbol (some parameter.type.text) 0 false 0 (some .identifier))
      (ofLexeme parameter.name.lexeme) =
        sizedReading symbol (parameter.paramOf false) {} (some .identifier) :=
    step_name_of_closed (.inl rfl) kind closed parameter.name _
  obtain ⟨last, read⟩ := @read_sizes symbol kind parameter parameter.sizes false {}
    (by simp [Leftover.Firm]) (.inr rfl) (some .identifier)
  refine ⟨kind, _, _, false, last, settled_with_params symbol parameter.param
    (parameter.sizes.foldl Leftover.size {}), ?_⟩
  rw [ArrayParameter.lexemes, Language.read_cons, step_starts_type (.inl rfl) kind,
    Language.read_cons, named, read]
  rfl

/-- Of the words that the reader takes for types there is none, or all but the first are built-in
types and the last one, in the last brackets, is `void`. -/
def sizesVanish (sizes : List (List SizeLexeme)) : Bool :=
  let words := sizes.flatMap sizeWords
  words.isEmpty ||
    (words.tail.all Leftover.isBuiltin &&
      (sizes.getLast?.bind fun size => (sizeWords size).getLast?) == some "void")

/-- What is left behind these words, of which `last` is the last one since the last opening bracket:
nothing, a word that waits, or a parameter once a word that is no type came second. -/
inductive Leaves : List String → Option String → Leftover → Prop where
  | nothing : Leaves [] none {}
  | waiting {words : List String} {last : Option String} (nonempty : words ≠ [])
      (builtin : words.tail.all Leftover.isBuiltin = true) (type : String)
      (void : type = "void" ↔ last = some "void") : Leaves words last { waiting := some type }
  | declared {words : List String} {last : Option String} {left : Leftover}
      (other : words.tail.all Leftover.isBuiltin = false) (nonempty : left.params ≠ []) :
      Leaves words last left

namespace Leaves

variable {words : List String} {last : Option String} {left : Leftover}

theorem word (leaves : Leaves words last left) (text : String) :
    Leaves (words ++ [text]) (some text) (left.word text) := by
  cases leaves with
  | nothing => exact .waiting (by simp) rfl text (by simp)
  | waiting nonempty builtin type void =>
      have tail : (words ++ [text]).tail = words.tail ++ [text] :=
        List.tail_append_of_ne_nil nonempty
      by_cases same : Leftover.isBuiltin text = true
      · have left : Leftover.word { waiting := some type } text = { waiting := some text } := by
          simp [Leftover.word, same]
        rw [left]
        exact .waiting (by simp) (by simp [tail, builtin, same]) text (by simp)
      · exact .declared (by simp [tail, builtin, same]) (by simp [Leftover.word, same])
  | declared other nonempty =>
      have filled : words ≠ [] := by
        rintro rfl
        simp at other
      refine .declared ?_ ?_
      · rw [List.tail_append_of_ne_nil filled, List.all_append, other, Bool.false_and]
      · unfold Leftover.word
        split
        · exact nonempty
        · split
          · exact nonempty
          · simp

theorem bracket (leaves : Leaves words last left) : Leaves words none left.bracket := by
  cases leaves with
  | nothing => exact .nothing
  | waiting nonempty builtin type void =>
      have longer : type ++ "[]" ≠ "void" := by
        intro same
        have ends := Text.ends_in_append type "[]"
        rw [same] at ends
        exact absurd ends (by decide)
      exact .waiting nonempty builtin (type ++ "[]") (by simp [longer])
  | declared other nonempty =>
      refine .declared other ?_
      unfold Leftover.bracket
      split
      · exact nonempty
      · simpa [List.getLast?_eq_none_iff] using fun _ => nonempty

theorem words_after (leaves : Leaves words last left) (more : List String) :
    Leaves (words ++ more) (more.getLast?.or last) (more.foldl Leftover.word left) := by
  induction more generalizing words last left with
  | nil => simpa using leaves
  | cons text more induction =>
      have rest := induction (leaves.word text)
      have same : more.getLast?.or (some text) = (text :: more).getLast?.or last := by
        rw [List.getLast?_cons]
        cases more.getLast? <;> rfl
      rw [List.append_assoc, List.singleton_append, same] at rest
      exact rest

theorem sizes_after (leaves : Leaves words last left) (sizes : List (List SizeLexeme)) :
    Leaves (words ++ sizes.flatMap sizeWords)
      (sizes.getLast?.elim last fun size => (sizeWords size).getLast?)
      (sizes.foldl Leftover.size left) := by
  induction sizes generalizing words last left with
  | nil => simpa using leaves
  | cons size sizes induction =>
      have rest := induction (leaves.bracket.words_after (sizeWords size))
      rw [Option.or_none, List.append_assoc] at rest
      have same : (size :: sizes).getLast?.elim last (fun size => (sizeWords size).getLast?) =
          sizes.getLast?.elim (sizeWords size).getLast? (fun size => (sizeWords size).getLast?) := by
        rw [List.getLast?_cons]
        cases sizes.getLast? <;> rfl
      rw [List.flatMap_cons, same]
      exact rest

end Leaves

theorem leftover_eq_nil_iff (parameter : ArrayParameter) :
    parameter.leftover = [] ↔ sizesVanish parameter.sizes = true := by
  have leaves := Leaves.nothing.sizes_after parameter.sizes
  have last : parameter.sizes.getLast?.elim none (fun size => (sizeWords size).getLast?) =
      parameter.sizes.getLast?.bind fun size => (sizeWords size).getLast? := by
    cases parameter.sizes.getLast? <;> rfl
  rw [List.nil_append, last] at leaves
  unfold ArrayParameter.leftover sizesVanish
  generalize parameter.sizes.foldl Leftover.size {} = left at leaves
  generalize parameter.sizes.flatMap sizeWords = words at leaves
  generalize (parameter.sizes.getLast?.bind fun size => (sizeWords size).getLast?) = final
    at leaves
  cases leaves with
  | nothing => simp [Leftover.declares, settledParams]
  | waiting nonempty builtin type void =>
      by_cases same : type = "void"
      · simp [Leftover.declares, settledParams, builtin, same, void.1 same]
      · have other := mt void.2 same
        simp [Leftover.declares, settledParams, nonempty, builtin, same, other]
  | declared other nonempty =>
      have filled : words ≠ [] := by
        rintro rfl
        simp at other
      simp [Leftover.declares, nonempty, other, filled]

theorem length_le_flat_map (parameters : List ArrayParameter) :
    parameters.length ≤
      (parameters.flatMap fun parameter => parameter.param :: parameter.leftover).length := by
  induction parameters with
  | nil => exact Nat.le_refl 0
  | cons parameter parameters induction =>
      simp only [List.flatMap_cons, List.length_append, List.length_cons]
      omega

theorem only_own_iff (parameters : List ArrayParameter) :
    (parameters.flatMap fun parameter => parameter.param :: parameter.leftover) =
        parameters.map (·.param) ↔ ∀ parameter ∈ parameters, parameter.leftover = [] := by
  induction parameters with
  | nil => simp
  | cons parameter parameters induction =>
      rw [List.flatMap_cons, List.map_cons, List.forall_mem_cons, List.cons_append,
        List.cons.injEq, ← induction]
      constructor
      · rintro ⟨_, same⟩
        -- The rest already holds one parameter for each entry, so nothing stands before it.
        have lengths := congrArg List.length same
        have filled := length_le_flat_map parameters
        rw [List.length_append, List.length_map] at lengths
        have empty : parameter.leftover = [] := List.eq_nil_of_length_eq_zero (by omega)
        exact ⟨empty, by simpa [empty] using same⟩
      · rintro ⟨empty, same⟩
        exact ⟨rfl, by rw [empty, same, List.nil_append]⟩

/-- Every parameter is declared with its name, and as an array if it has a declarator. They are the
only parameters if and only if no size leaves anything behind. -/
theorem recognize_array_parameters_iff (heading : Heading .c) (parameters : List ArrayParameter)
    (tokens rest : List Token)
    (spelled : tokens.map lexeme = heading.lexemes ++ (.openParen, "(") ::
      separated (parameters.map (·.lexemes)) ++ [(.closeParen, ")")])
    (ends : ∀ token ∈ rest.head?, token.kind = .openBrace ∨ token.kind = .semicolon) :
    (Language.c.recognize (tokens ++ rest)).params =
        (parameters.flatMap fun parameter => parameter.param :: parameter.leftover) ∧
      ((Language.c.recognize (tokens ++ rest)).params = parameters.map (·.param) ↔
        ∀ parameter ∈ parameters, sizesVanish parameter.sizes = true) := by
  have awaits : AwaitsEntry heading.symbol heading.reading := ⟨rfl, _, rfl⟩
  have listed := Language.read_separated ArrayParameter.lexemes
    (fun parameter => parameter.param :: parameter.leftover) AwaitsEntry EndsEntry
    (fun parameter awaits => AwaitsEntry.array_parameter parameter awaits)
    (EndsEntry.comma (.inl rfl)) AwaitsEntry.ends parameters awaits
  have recognized := heading.recognize_list (.inl rfl) listed.1 (listed.close (.inl rfl))
    tokens rest spelled ends
  have params : (Language.c.recognize (tokens ++ rest)).params =
      parameters.flatMap fun parameter => parameter.param :: parameter.leftover := by
    rw [recognized]
    rfl
  refine ⟨params, ?_⟩
  rw [params, only_own_iff]
  simp only [leftover_eq_nil_iff]

def sampleHeading : Heading .c where
  returns := .mk (.word ⟨"bool", by decide, by decide⟩) .bare
  starts := .inl (by decide)
  name := ⟨"g", by decide⟩

/-- `char a[16][], short b[const N], Item c[S m], float d[double void], long e` -/
def sampleArrays : List ArrayParameter :=
  [{ type := ⟨"char", by decide, by decide⟩, name := ⟨"a", by decide⟩,
     sizes := [[.number "16"], []] },
    { type := ⟨"short", by decide, by decide⟩, name := ⟨"b", by decide⟩,
      sizes := [[.word "const" (by decide), .word "N" (by decide)]] },
    { type := ⟨"Item", by decide, by decide⟩, name := ⟨"c", by decide⟩,
      sizes := [[.word "S" (by decide), .word "m" (by decide)]] },
    { type := ⟨"float", by decide, by decide⟩, name := ⟨"d", by decide⟩,
      sizes := [[.word "double" (by decide), .word "void" void_reads_as_word]] },
    { type := ⟨"long", by decide, by decide⟩, name := ⟨"e", by decide⟩ }]

def sampleArrayList : List Lexeme :=
  sampleHeading.lexemes ++ (.openParen, "(") :: separated (sampleArrays.map (·.lexemes)) ++
    [(.closeParen, ")")]

theorem recognize_sample_arrays :
    (layOut 0 sampleArrayList).map lexeme = sampleArrayList ∧
      (Language.c.recognize
          (layOut 0 sampleArrayList ++ [ofLexeme (.openBrace, "\x7b")])).params =
        [{ name := "a", type := some "char[]" }, { name := "b", type := some "short[]" },
          { type := some "N" }, { name := "c", type := some "Item[]" },
          { name := "m", type := some "S" }, { name := "d", type := some "float[]" },
          { name := "e", type := some "long" }] ∧
      ((Language.c.recognize
            (layOut 0 sampleArrayList ++ [ofLexeme (.openBrace, "\x7b")])).params =
          sampleArrays.map (·.param) ↔
        ∀ parameter ∈ sampleArrays, sizesVanish parameter.sizes = true) :=
  ⟨map_lexeme_lay_out 0 _, recognize_array_parameters_iff sampleHeading sampleArrays _ _
    (map_lexeme_lay_out 0 _) (by simp)⟩

/-- A word as the size: it is declared as one more parameter. -/
theorem recognize_word_as_size :
    Language.c.parse "void f(int a[N], int b) \x7b" =
        .ok { name := "f", kind := .function,
              params := [{ name := "a", type := some "int[]" }, { type := some "N" },
                { name := "b", type := some "int" }] } ∧
      sizesVanish [[.word "N" (by decide)]] = false :=
  ⟨by decide +kernel, by decide⟩

end DocComment.TypeFirst
