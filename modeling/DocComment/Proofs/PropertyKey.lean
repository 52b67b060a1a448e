import DocComment.Proofs.Destructuring
import Mathlib.Control.Monad.Basic

/-!
Object patterns whose keys are any words, texts or numbers. A key that could be a name is taken for
a parameter until the name behind it replaces it. Any other key is no parameter, and the name behind
it replaces the parameter ahead. The main statement gives the parameters of every such pattern, and
says that they are the bound names if and only if every key could be a name.
-/

namespace DocComment.NameFirst

open Token Grammar DefaultValue

/-- A property of an object pattern, `name` or `key: name`. Any word, text or number can be a
key. -/
inductive ObjectProperty where
  | shorthand (name : grammar.Name)
  | renamed (key : Lexeme) (keyed : key.1 = .identifier ∨ key.1 = .string ∨ key.1 = .number)
      (name : grammar.Name)

namespace ObjectProperty

def lexemes : ObjectProperty → List Lexeme
  | .shorthand name => [name.lexeme]
  | .renamed key _ name => [key, (.colon, ":"), name.lexeme]

def boundName : ObjectProperty → String
  | .shorthand name => name.text
  | .renamed _ _ name => name.text

/-- The property has no key, or one that could be a name. -/
def isRegular : ObjectProperty → Bool
  | .shorthand _ => true
  | .renamed key _ _ => grammar.isName (ofLexeme key)

end ObjectProperty

def renameLast (names : List String) (name : String) : List String :=
  if names = [] then [] else names.dropLast ++ [name]

/-- The parameters once a property has been read behind these. A key that cannot be a name is not
among them when its name comes, which goes to the parameter ahead. -/
def namesAfter (names : List String) (property : ObjectProperty) : List String :=
  if property.isRegular then names ++ [property.boundName]
  else renameLast names property.boundName

theorem length_names_after (names : List String) (property : ObjectProperty) :
    (namesAfter names property).length =
      names.length + if property.isRegular then 1 else 0 := by
  unfold namesAfter renameLast
  by_cases regular : property.isRegular = true
  · simp [regular]
  · by_cases empty : names = []
    · simp [regular, empty]
    · have positive : 0 < names.length := List.length_pos_iff.2 empty
      simp only [if_neg regular, if_neg empty, List.length_append, List.length_dropLast,
        List.length_singleton]
      omega

theorem length_names_after_all (properties : List ObjectProperty) (names : List String) :
    (properties.foldl namesAfter names).length =
      names.length + properties.countP (·.isRegular) := by
  induction properties generalizing names with
  | nil => rfl
  | cons property properties induction =>
      rw [List.foldl_cons, induction, length_names_after, List.countP_cons]
      omega

theorem names_after_all_regular {properties : List ObjectProperty}
    (regular : ∀ property ∈ properties, property.isRegular = true) (names : List String) :
    properties.foldl namesAfter names = names ++ properties.map (·.boundName) := by
  induction properties generalizing names with
  | nil => simp
  | cons property properties induction =>
      have first : namesAfter names property = names ++ [property.boundName] :=
        if_pos (regular property (by simp))
      rw [List.foldl_cons, first,
        induction fun property member => regular property (List.mem_cons_of_mem _ member)]
      simp

/-- One parameter for each bound name, behind the earlier ones, is what regular properties give and
no others do: an irregular one adds no parameter. -/
theorem names_after_all_iff (properties : List ObjectProperty) (names : List String) :
    properties.foldl namesAfter names = names ++ properties.map (·.boundName) ↔
      ∀ property ∈ properties, property.isRegular = true := by
  refine ⟨fun same => ?_, fun regular => names_after_all_regular regular names⟩
  have lengths := congrArg List.length same
  rw [length_names_after_all, List.length_append, List.length_map] at lengths
  exact List.countP_eq_length.1 (Nat.add_left_cancel lengths)

theorem untyped_injective {first second : List String} :
    untyped first = untyped second ↔ first = second := by
  refine ⟨fun same => ?_, congrArg untyped⟩
  have names : (untyped first).map (·.name) = (untyped second).map (·.name) := by rw [same]
  simpa [untyped, Function.comp_def] using names

def listed (symbol : Symbol) (names : List String) : Symbol :=
  { symbol with params := untyped names }

theorem listed_kind {symbol : Symbol} (kind : symbol.kind = .function) (names : List String) :
    (listed symbol names).kind = .function := kind

theorem push_listed (symbol : Symbol) (names : List String) (name : String) :
    (listed symbol names).pushParam { name } = listed symbol (names ++ [name]) := by
  simp [listed, Symbol.pushParam, untyped]

theorem rename_listed (symbol : Symbol) (names : List String) (name : String) :
    ((listed symbol names).modifyLastParam fun param => { param with name }) =
      listed symbol (renameLast names name) := by
  rcases List.eq_nil_or_concat names with rfl | ⟨earlier, last, rfl⟩
  · rfl
  · simp [listed, Symbol.modifyLastParam, untyped, renameLast]

section

variable {held : Option String} {symbol : Symbol} (kind : symbol.kind = .function)
include kind

theorem step_key (key : Lexeme) (keyed : key.1 = .identifier ∨ key.1 = .string ∨ key.1 = .number)
    (names : List String) {previous : Option Kind} (noColon : previous ≠ some .colon) :
    Language.javascript.stepUnlessDone (patternReading held (listed symbol names) 1 false previous)
        (ofLexeme key) =
      patternReading held
        (listed symbol (if grammar.isName (ofLexeme key) then names ++ [key.2] else names)) 1 false
        (some key.1) := by
  obtain ⟨keyKind, text⟩ := key
  by_cases accepted : grammar.isName (ofLexeme (keyKind, text)) = true
  · -- What can be a name is a word, and is taken for one.
    obtain rfl : keyKind = .identifier := by
      cases keyKind <;> simp_all [isName, Kind.isWord]
    rw [if_pos accepted, ← push_listed]
    exact step_bound_name (listed_kind kind names) ⟨text, accepted⟩ noColon
  · rw [if_neg accepted, step_pattern (listed_kind kind names) (by simp)]
    rcases keyed with rfl | rfl | rfl
    · simp [pattern, accepted, patternReading, Language.past]
    · rfl
    · rfl

theorem read_property (property : ObjectProperty) (names : List String) {previous : Option Kind}
    (noColon : previous ≠ some .colon) :
    Language.javascript.read (patternReading held (listed symbol names) 1 false previous)
        property.lexemes =
      patternReading held (listed symbol (namesAfter names property)) 1 false
        (some .identifier) := by
  cases property with
  | shorthand name =>
      have read : Language.javascript.read
          (patternReading held (listed symbol names) 1 false previous) [name.lexeme] = _ :=
        step_bound_name (listed_kind kind names) name noColon
      rwa [push_listed] at read
  | renamed key keyed name =>
      simp only [ObjectProperty.lexemes, Language.read_cons, Language.read_nil]
      rw [step_key kind key keyed names noColon, step_pattern_sign (listed_kind kind _) (.inl rfl),
        step_renaming (listed_kind kind _), rename_listed]
      by_cases accepted : grammar.isName (ofLexeme key) = true
      · simp [namesAfter, ObjectProperty.isRegular, ObjectProperty.boundName, accepted, renameLast]
      · simp [namesAfter, ObjectProperty.isRegular, ObjectProperty.boundName, accepted]

theorem read_further_properties (properties : List ObjectProperty) (names : List String)
    (previous : Option Kind) :
    ∃ previous',
      Language.javascript.read (patternReading held (listed symbol names) 1 false previous)
          ((properties.map (·.lexemes)).flatMap ((.comma, ",") :: ·)) =
        patternReading held (listed symbol (properties.foldl namesAfter names)) 1 false
          previous' := by
  induction properties generalizing names previous with
  | nil => exact ⟨previous, rfl⟩
  | cons property properties induction =>
      obtain ⟨last, read⟩ := induction (namesAfter names property) (some .identifier)
      refine ⟨last, ?_⟩
      rw [List.map_cons, List.flatMap_cons, List.cons_append, Language.read_cons,
        step_pattern_comma (listed_kind kind names), Language.read_append,
        read_property kind property names (by decide), read]
      rfl

theorem read_properties (properties : List ObjectProperty) (names : List String)
    {previous : Option Kind} (noColon : previous ≠ some .colon) :
    ∃ previous',
      Language.javascript.read (patternReading held (listed symbol names) 1 false previous)
          (separated (properties.map (·.lexemes))) =
        patternReading held (listed symbol (properties.foldl namesAfter names)) 1 false
          previous' := by
  cases properties with
  | nil => exact ⟨previous, rfl⟩
  | cons property properties =>
      obtain ⟨last, read⟩ := read_further_properties kind properties (namesAfter names property)
        (some .identifier)
      refine ⟨last, ?_⟩
      rw [List.map_cons, separated, Language.read_append,
        read_property kind property names noColon, read]
      rfl

end

def objectLexemes (properties : List ObjectProperty) : List Lexeme :=
  (.openBrace, "\x7b") :: separated (properties.map (·.lexemes)) ++ [(.closeBrace, "\x7d")]

def objectListLexemes (header : Header) (names : List grammar.Name)
    (properties : List ObjectProperty) : List Lexeme :=
  header.lexemes ++ (.openParen, "(") ::
    separated (names.map (fun name => [name.lexeme]) ++ [objectLexemes properties]) ++
    [(.closeParen, ")")]

section

variable {held : Option String} {symbol : Symbol}

/-- Names in front of another entry are parameters, and the list waits for that entry. -/
theorem read_names_before (names : List grammar.Name) {reading : Reading}
    (awaits : AwaitsEntry held symbol reading) (entry : List Lexeme) :
    ∃ ready, AwaitsEntry held (symbol.withParams (untyped (names.map (·.text)))) ready ∧
      Language.javascript.read reading
          (separated (names.map (fun name => [name.lexeme]) ++ [entry])) =
        Language.javascript.read ready entry := by
  cases names with
  | nil =>
      refine ⟨reading, ?_, by simp [separated]⟩
      rw [List.map_nil, untyped, List.map_nil, Symbol.with_params_nil]
      exact awaits
  | cons first names =>
      have ends := awaits.list ((first :: names).map fun name => { name })
      have params : ((first :: names).map fun name => ({ name } : Parameter)).map (·.param) =
          untyped ((first :: names).map (·.text)) := by
        simp [untyped, Parameter.param]
      have spelled : separated ((first :: names).map (fun name => [name.lexeme]) ++ [entry]) =
          separated (((first :: names).map fun name => ({ name } : Parameter)).map (·.lexemes)) ++
            (.comma, ",") :: entry := by
        simp [separated, Parameter.lexemes, Parameter.typeLexemes, Parameter.valueLexemes,
          Function.comp_def]
      rw [params] at ends
      refine ⟨_, ends.comma, ?_⟩
      rw [spelled, Language.read_append, Language.read_cons]

theorem read_object (properties : List ObjectProperty) (names : List String) {reading : Reading}
    (awaits : AwaitsEntry held (listed symbol names) reading) :
    EndsEntry held (listed symbol (properties.foldl namesAfter names))
      (Language.javascript.read reading (objectLexemes properties)) := by
  obtain ⟨kind, previous, rfl⟩ := awaits
  have kindSymbol : symbol.kind = .function := kind
  have opened : Language.javascript.stepUnlessDone
      (listReading held (listed symbol names) false false 0 0 previous)
      (ofLexeme (.openBrace, "\x7b")) =
        patternReading held (listed symbol names) 1 false (some .openBrace) := by
    rw [step_between kind]
    rfl
  obtain ⟨last, read⟩ := @read_properties held symbol kindSymbol properties names
    (some .openBrace) (by decide)
  have closed := @step_closing held (listed symbol (properties.foldl namesAfter names)) kindSymbol
    .brace 0 false last
  refine ⟨kind, false, false, some .closeBrace, ?_⟩
  rw [objectLexemes, List.cons_append, Language.read_cons, opened, Language.read_append, read]
  exact closed

end

/-- The names ahead of an object pattern and those it binds are the parameters, each once and in
order, if and only if every key of the pattern could itself be a name. Otherwise the name behind
such a key replaces the parameter ahead of it, or is lost where there is none. -/
theorem recognize_object_pattern_iff (header : Header) (names : List grammar.Name)
    (properties : List ObjectProperty) (tokens rest : List Token)
    (spelled : tokens.map lexeme = objectListLexemes header names properties)
    (opens : ∀ token ∈ rest.head?, token.kind = .openBrace) :
    (Language.javascript.recognize (tokens ++ rest)).params =
        untyped (properties.foldl namesAfter (names.map (·.text))) ∧
      ((Language.javascript.recognize (tokens ++ rest)).params =
          untyped (names.map (·.text) ++ properties.map (·.boundName)) ↔
        ∀ property ∈ properties, property.isRegular = true) := by
  obtain ⟨wantsName, held, previous, named⟩ := read_header header
  have awaits : AwaitsEntry held (introduced header.name)
      (listReading held (introduced header.name) false false 0 0 (some .openParen)) :=
    ⟨rfl, _, rfl⟩
  obtain ⟨ready, awaitsObject, ahead⟩ := read_names_before names awaits (objectLexemes properties)
  have awaitsListed : AwaitsEntry held (listed (introduced header.name) (names.map (·.text)))
      ready := awaitsObject
  have ends := read_object properties (names.map (·.text)) awaitsListed
  have reached : Language.javascript.read {} (tokens.map lexeme) = closedReading held
      (listed (introduced header.name) (properties.foldl namesAfter (names.map (·.text)))) false
      (some .closeParen) := by
    rw [spelled, objectListLexemes]
    change Language.javascript.read (candidateReading "" none none) _ = _
    simp only [Language.read_append, Language.read_cons, named, step_open, ahead]
    exact ends.close
  have recognized := Language.recognize_function .javascript (by decide) rfl ⟨rfl, rfl, rfl⟩ reached
    (fun token first => .inl (opens token first))
  have params : (Language.javascript.recognize (tokens ++ rest)).params =
      untyped (properties.foldl namesAfter (names.map (·.text))) := by
    rw [recognized]
    rfl
  refine ⟨params, ?_⟩
  rw [params, untyped_injective]
  exact names_after_all_iff properties (names.map (·.text))

def sampleProperties : List ObjectProperty :=
  [.shorthand ⟨"i", by decide⟩, .renamed (word "k") (by decide) ⟨"j", by decide⟩,
    .renamed (word "default") (by decide) ⟨"m", by decide⟩,
    .renamed (.string, "\x27x\x27") (by decide) ⟨"n", by decide⟩, .shorthand ⟨"o", by decide⟩]

def sampleObjectList : List Lexeme :=
  objectListLexemes (.declared [] ⟨"h", by decide⟩) [⟨"u", by decide⟩, ⟨"v", by decide⟩]
    sampleProperties

theorem recognize_sample_object :
    (layOut 0 sampleObjectList).map lexeme = sampleObjectList ∧
      (Language.javascript.recognize
          (layOut 0 sampleObjectList ++ [ofLexeme (.openBrace, "\x7b")])).params =
        untyped ["u", "v", "i", "n", "o"] ∧
      ((Language.javascript.recognize
            (layOut 0 sampleObjectList ++ [ofLexeme (.openBrace, "\x7b")])).params =
          untyped ["u", "v", "i", "j", "m", "n", "o"] ↔
        ∀ property ∈ sampleProperties, property.isRegular = true) :=
  ⟨map_lexeme_lay_out 0 _,
    recognize_object_pattern_iff _ _ sampleProperties _ _ (map_lexeme_lay_out 0 _) (by simp)⟩

/-- A word for a class as a key: the parameter ahead of the pattern is lost. -/
theorem recognize_class_word_key :
    Language.javascript.parse "function f(a, \x7b class: b \x7d) \x7b" =
        .ok { name := "f", kind := .function, params := untyped ["b"],
              returns := { present := true } } ∧
      untyped ["b"] ≠ untyped (["a"] ++ ["b"]) := by
  refine ⟨by decide +kernel, ?_⟩
  rw [Ne, untyped_injective]
  decide

end DocComment.NameFirst
