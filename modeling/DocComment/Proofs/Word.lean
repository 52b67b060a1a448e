import DocComment.Proofs.Lexemes

/-!
Words by the part they play: what the scanner reads as one word, the names and modifiers of a
language, and which words of a language cannot play two parts at once.
-/

namespace DocComment

namespace Token

theorem fixed_kind {cs : List Char} {kind : Kind} {count : Nat}
    (found : fixed? cs = some (kind, count)) : kind ≠ .identifier := by
  simp only [fixed?, Option.map_eq_some_iff] at found
  obtain ⟨entry, member, same⟩ := found
  have known : ∀ entry ∈ fixedSpellings, entry.2 ≠ .identifier := by decide
  have other := known entry (List.mem_of_find?_eq_some member)
  simp_all

theorem comment_kind {cs : List Char} {kind : Kind} {count : Nat}
    (found : comment? cs = some (kind, count)) : kind ≠ .identifier := by
  unfold comment? at found
  split at found
  · simp only [Option.some.injEq, Prod.mk.injEq] at found
    exact found.1 ▸ by decide
  · simp only [Option.map_eq_some_iff, Prod.mk.injEq] at found
    obtain ⟨_, _, same, _⟩ := found
    exact same ▸ by decide
  · simp at found

/-- Only a word starts like a word. -/
theorem lexeme_identifier {c : Char} {cs : List Char} {count : Nat}
    (found : lexeme? (c :: cs) = some (.identifier, count)) :
    isWordStart c = true ∧ count = wordTail cs + 1 := by
  simp only [lexeme?] at found
  split at found
  · simp at found
  split at found
  · next start => exact ⟨start, by simpa using found.symm⟩
  split at found
  · simp at found
  split at found
  · simp at found
  split at found
  · simp at found
  · rcases Option.or_eq_some_iff.1 found with left | ⟨_, right⟩
    · exact absurd rfl (comment_kind left)
    · exact absurd rfl (fixed_kind right)

theorem is_word_char_of_start {c : Char} (start : isWordStart c = true) : isWordChar c = true := by
  simp only [isWordStart, isWordChar, Char.isAlphanum, Bool.or_eq_true] at start ⊢
  grind

/-- What continues a word to its end ends in a word character. -/
theorem word_tail_last {cs : List Char} (whole : wordTail cs = cs.length) {c : Char}
    (last : cs.getLast? = some c) : isWordChar c = true := by
  fun_induction wordTail cs with
  | case1 => simp at last
  | case2 d cs good induction =>
      cases cs with
      | nil => simp_all
      | cons e cs => simp_all [List.getLast?_cons_cons]
  | case3 => simp at whole
  | case4 d cs other good induction =>
      cases cs with
      | nil => simp_all
      | cons e cs => simp_all [List.getLast?_cons_cons]
  | case5 => simp at whole

/-- The scanner reads the whole text as one word. -/
def ReadsAsWord (text : String) : Prop :=
  lexeme? text.toList = some (.identifier, text.toList.length)

instance (text : String) : Decidable (ReadsAsWord text) :=
  inferInstanceAs (Decidable (_ = _))

theorem void_reads_as_word : ReadsAsWord "void" := by decide

theorem reads_as_word_last {text : String} (reads : ReadsAsWord text) :
    ∃ c, Text.lastChar? text = some c ∧ isWordChar c = true := by
  unfold ReadsAsWord at reads
  unfold Text.lastChar?
  cases spelled : text.toList with
  | nil => simp [spelled, lexeme?] at reads
  | cons c cs =>
      rw [spelled] at reads
      obtain ⟨start, count⟩ := lexeme_identifier reads
      have whole : wordTail cs = cs.length := by
        rw [List.length_cons] at count
        omega
      cases cs with
      | nil => exact ⟨c, rfl, is_word_char_of_start start⟩
      | cons d cs =>
          have nonempty : d :: cs ≠ [] := by simp
          have last := List.getLast?_eq_some_getLast nonempty
          refine ⟨_, ?_, word_tail_last whole last⟩
          rw [List.getLast?_cons_cons, last]

end Token

namespace Grammar

open Token

structure Name (grammar : Grammar) where
  text : String
  accepted : grammar.isName (ofLexeme (word text)) = true

/-- A word with a property other than naming something. -/
structure Keyword (grammar : Grammar) (property : Property) where
  text : String
  has : grammar.has text property = true

def Name.lexeme {grammar : Grammar} (name : grammar.Name) : Lexeme := word name.text

def Keyword.lexeme {grammar : Grammar} {property : Property} (keyword : grammar.Keyword property) :
    Lexeme :=
  word keyword.text

theorem Keyword.admits {grammar : Grammar} {property : Property}
    (keyword : grammar.Keyword property) :
    grammar.admits (ofLexeme (word keyword.text)) property = true :=
  keyword.has

/-- A name has no property but its spelling. -/
theorem not_admits_of_is_name {grammar : Grammar} {token : Token}
    (accepted : grammar.isName token = true) {property : Property}
    (other : property ≠ .identifier) : grammar.admits token property = false := by
  simp only [isName, isKeyword, Bool.and_eq_true, Bool.not_eq_true', Bool.or_eq_false_iff]
    at accepted
  obtain ⟨⟨_, keywords⟩, types⟩ := accepted
  cases property <;> simp_all [admits, has]

theorem not_admits_of_not_keyword {grammar : Grammar} {text : String}
    (notKeyword : grammar.isKeyword text = false) {property : Property}
    (other : property ≠ .identifier) (untyped : property ≠ .builtinType) :
    grammar.admits (ofLexeme (word text)) property = false := by
  simp only [isKeyword, Bool.or_eq_false_iff] at notKeyword
  cases property <;> simp_all [admits, has]

theorem is_identifier_of_is_name {grammar : Grammar} {token : Token}
    (accepted : grammar.isName token = true) : grammar.isIdentifier token.text = true := by
  simp only [isName, Bool.and_eq_true] at accepted
  exact accepted.1.1.2

theorem Name.nonempty {grammar : Grammar} (spelled : grammar.isIdentifier "" = false)
    (name : grammar.Name) : name.text ≠ "" := by
  intro empty
  have identifier := is_identifier_of_is_name name.accepted
  rw [of_lexeme_text, word_text, empty, spelled] at identifier
  contradiction

theorem not_is_name_of_has {grammar : Grammar} {token : Token} {property : Property}
    (has : grammar.has token.text property = true) (other : property ≠ .identifier) :
    grammar.isName token = false := by
  cases property <;> simp_all [Grammar.has, isName, isKeyword]

end Grammar

namespace Grammar

def words (grammar : Grammar) : Property → List String
  | .classWord => grammar.classWords
  | .functionWord => grammar.functionWords
  | .identifier => []
  | .modifier => grammar.modifiers
  | .variableWord => grammar.variableWords
  | .builtinType => grammar.types
  | .reserved => grammar.reserved

theorem has_eq_contains (grammar : Grammar) (text : String) {property : Property}
    (listed : property ≠ .identifier) :
    grammar.has text property = (grammar.words property).contains text := by
  cases property with
  | identifier => exact absurd rfl listed
  | _ => rfl

/-- If no listed word is marked, a marked text has no property but its spelling. -/
theorem not_has_of_marked {grammar : Grammar} {marked : String → Prop}
    (bare : ∀ property ∈ Property.all, ∀ listed ∈ grammar.words property, ¬ marked listed)
    {text : String} (mark : marked text) {property : Property} (other : property ≠ .identifier) :
    grammar.has text property = false := by
  rw [has_eq_contains grammar text other, Bool.eq_false_iff, Ne, List.contains_iff_mem]
  intro listed
  exact bare property (by cases property <;> decide) text listed mark

end Grammar

namespace Language

private theorem listed_words_disjoint (language : Language) :
    ∀ first ∈ Grammar.Property.all, ∀ second ∈ Grammar.Property.all, second ≠ first →
      ∀ text ∈ language.grammar.words first, text ∉ language.grammar.words second := by
  cases language <;> decide +kernel

/-- No word of a language is listed for two properties. -/
theorem has_unique (language : Language) {text : String} {first second : Grammar.Property}
    (has : language.grammar.has text first = true) (listed : first ≠ .identifier)
    (different : second ≠ first) (other : second ≠ .identifier) :
    language.grammar.has text second = false := by
  rw [Grammar.has_eq_contains _ _ listed, List.contains_iff_mem] at has
  rw [Grammar.has_eq_contains _ _ other, Bool.eq_false_iff, Ne, List.contains_iff_mem]
  exact listed_words_disjoint language first (by cases first <;> decide) second
    (by cases second <;> decide) different text has

theorem not_admits_other (language : Language) {text : String} {first second : Grammar.Property}
    (has : language.grammar.has text first = true) (listed : first ≠ .identifier)
    (different : second ≠ first) (other : second ≠ .identifier) :
    language.grammar.admits (Token.ofLexeme (Token.word text)) second = false :=
  has_unique language has listed different other

end Language

end DocComment
