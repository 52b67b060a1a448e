import DocComment.Proofs.BalancedValue
import DocComment.Proofs.Spacing
import Mathlib.Data.List.Chain

/-!
Words next to each other in a default value. A space is written between two of them by what the one
ends in and the other starts with, and the backslash, which is part of words for the scanner, does
not count there. The main statement is that a value of words and numbers scans back to them exactly
when no word of it meets a backslash.
-/

namespace DocComment

namespace Token

theorem ends_in_number_char (front : List Char) {c : Char} {cs : List Char}
    (starts : isNumberChar c = true) (all : ∀ d ∈ cs, isNumberChar d = true) :
    ∃ d ∈ (front ++ c :: cs).getLast?, isNumberChar d = true := by
  have nonempty : c :: cs ≠ [] := by simp
  refine ⟨(c :: cs).getLast nonempty, ?_, ?_⟩
  · rw [Option.mem_def, List.getLast?_append_of_ne_nil _ nonempty,
      List.getLast?_eq_some_getLast nonempty]
  · rcases List.mem_cons.1 (List.getLast_mem nonempty) with same | inside
    · rw [same, starts]
    · exact all _ inside

/-- A number ends in a letter, a digit or an underscore, and perhaps one percent sign behind it. -/
theorem number_split {text : List Char} (described : Kind.number.pattern.Matches text) :
    ∃ front sign, text = front ++ sign ∧ '%' ∉ front ∧
      (∃ c ∈ front.getLast?, isNumberChar c = true) ∧ (sign = [] ∨ sign = ['%']) := by
  obtain ⟨start, _, rfl, first, whole, _, rfl, digits, decimal, sign, rfl, fractional, final⟩ :=
    described
  refine ⟨start ++ (whole ++ decimal), sign, by simp, ?_, ?_, Or.symm final⟩
  · have unsigned : (Pattern.sequence .digit (.sequence .digitsRest .fractionRest)).avoids ['%'] =
        true := by decide
    exact Pattern.not_mem_of_avoids (by simp) unsigned
      (Pattern.matches_append first (Pattern.matches_append digits fractional))
  · have all := number_chars_of_matches digits
    have digit : ∀ {c : Char}, c.isDigit = true → isNumberChar c = true := by
      intro c isDigit
      simp [isNumberChar, Char.isAlphanum, isDigit]
    obtain ⟨c, isDigit, rfl⟩ := first
    rcases fractional with ⟨_, _, rfl, rfl, _, others, rfl, ⟨d, isDigit', rfl⟩, more⟩ | rfl
    · have ends := ends_in_number_char (c :: whole ++ ['.']) (digit (by simpa using isDigit'))
        (number_chars_of_matches more)
      simpa using ends
    · have ends := ends_in_number_char [] (digit (by simpa using isDigit)) all
      simpa using ends

theorem number_of_digit {kind : Kind} {c : Char} {cs : List Char} (digit : c.isDigit = true)
    (described : kind.pattern.Matches (c :: cs)) : kind = .number := by
  obtain ⟨other, count, found, enough, same⟩ := lexeme_longest described []
  rw [List.append_nil] at found
  obtain ⟨text, rest, split, rfl, _⟩ := lexeme_described found
  have starts : Pattern.digit.Matches [c] := ⟨c, by simpa using digit, rfl⟩
  have number : lexeme? (c :: cs) = some (.number, numberTail cs + 1) := opens_number starts rfl
  obtain ⟨rfl, _⟩ := Prod.mk.inj (Option.some.inj (number.symm.trans found))
  have bounded := congrArg List.length split
  rw [List.length_append] at bounded
  exact (same (by omega)).symm

theorem Stands.digit {text : List Char} (stands : Stands .number text) :
    ∃ c cs, text = c :: cs ∧ c.isDigit = true := by
  obtain ⟨_, back, rfl, ⟨c, digit, rfl⟩, _⟩ := stands.described
  exact ⟨c, back, rfl, by simpa using digit⟩

theorem percent_not_mem {text : List Char} {c : Char} {more : List Char}
    (described : Kind.number.pattern.Matches (text ++ c :: more)) : '%' ∉ text := by
  obtain ⟨front, sign, split, unsigned, _, ends⟩ := number_split described
  have short : sign.length ≤ 1 := by
    rcases ends with rfl | rfl <;> decide
  have lengths := congrArg List.length split
  simp only [List.length_append, List.length_cons] at lengths
  have inside : text <+: front :=
    List.prefix_of_prefix_length_le (List.prefix_append _ _) ⟨sign, split.symm⟩ (by omega)
  exact fun member => unsigned (inside.subset member)

/-- Nothing that a number could go on with follows it: it has its percent sign, or a backslash
stands behind it. -/
theorem Stands.number_before {text : List Char} (stands : Stands .number text) {c : Char}
    (ends : text.getLast? = some '%' ∨ c = '\\') (rest : List Char) :
    lexeme? (text ++ c :: rest) = some (.number, text.length) := by
  refine stands.before ?_ rest
  intro other more fits
  obtain rfl : other = .number := by
    obtain ⟨d, ds, rfl, digit⟩ := stands.digit
    exact number_of_digit digit fits
  rcases ends with signed | rfl
  · exact percent_not_mem fits (List.mem_of_getLast? signed)
  · have foreign : Kind.number.pattern.avoids ['\\'] = true := by decide
    exact Pattern.not_mem_of_avoids (List.mem_singleton_self _) foreign fits (by simp)

/-- The kinds and texts of tokens, white space left out. -/
def unspaced (tokens : List Token) : List Lexeme :=
  (tokens.filter fun token => token.kind != .whitespace).map lexeme

/-- A token at the front comes first. -/
theorem unspaced_scan_token (start : Nat) {kind : Kind} {text rest : List Char}
    (found : lexeme? (text ++ rest) = some (kind, text.length)) (visible : kind ≠ .whitespace) :
    ∃ stop, (scanFrom start (text ++ rest)).map unspaced =
      ((scanFrom stop rest).map unspaced).map ((kind, String.ofList text) :: ·) := by
  have cut := cut_of_lexeme found
  rw [← @String.toList_ofList text] at cut
  have first := scan_from_cut start cut
  rw [String.toList_ofList] at first
  refine ⟨start + (String.ofList text).utf8ByteSize, ?_⟩
  rw [first]
  cases scanFrom (start + (String.ofList text).utf8ByteSize) rest with
  | error error => rfl
  | ok tokens => simp [Except.map, unspaced, startingAt, lexeme, visible]

theorem unspaced_scan_space (start : Nat) {rest : List Char}
    (stops : ∀ c ∈ rest.head?, isSpace c = false) :
    ∃ stop, (scanFrom start (' ' :: rest)).map unspaced = (scanFrom stop rest).map unspaced := by
  have stopped : run isSpace rest = 0 := by
    cases rest with
    | nil => rfl
    | cons d rest => simp [run, stops d rfl]
  have found : lexeme? (" ".toList ++ rest) = some (.whitespace, " ".toList.length) := by
    simp [lexeme?, isSpace, stopped]
  refine ⟨start + " ".utf8ByteSize, ?_⟩
  have first := scan_from_cut start (cut_of_lexeme found)
  change scanFrom start (' ' :: rest) = _ at first
  rw [first]
  cases scanFrom (start + " ".utf8ByteSize) rest <;> rfl

theorem map_cons_eq_ok {first other : Lexeme} {result : Except ScanError (List Lexeme)}
    {rest : List Lexeme} :
    result.map (first :: ·) = .ok (other :: rest) ↔ first = other ∧ result = .ok rest := by
  cases result <;> simp [Except.map]

end Token

namespace DefaultValue

open Token

/-- A name or a number as it comes out of scanning some line. -/
structure Word where
  kind : Kind
  text : String
  wordlike : kind = .identifier ∨ kind = .number
  scanned : ∃ line tokens, scan line = .ok tokens ∧ (kind, text) ∈ tokens.map Token.lexeme

namespace Word

def lexeme (word : Word) : Lexeme := (word.kind, word.text)

/-- Written close together, the two would be read as one word or cut elsewhere: the first goes on
with any word character, and a backslash is one. -/
def RunTogether (first second : Word) : Prop :=
  first.kind = .identifier ∧
    (Text.lastChar? first.text = some '\\' ∨ Text.firstChar? second.text = some '\\')

theorem visible (word : Word) : word.kind ≠ .whitespace := by
  rcases word.wordlike with same | same <;> rw [same] <;> decide

theorem stands (word : Word) : Stands word.kind word.text.toList := by
  obtain ⟨line, tokens, scanned, member⟩ := word.scanned
  obtain ⟨token, listed, same⟩ := List.mem_map.1 member
  obtain ⟨kind, text⟩ := Prod.mk.inj same
  have meaning : token.kind.isTrivia = false := by
    rw [kind]
    rcases word.wordlike with same | same <;> rw [same] <;> rfl
  have stands := (munches_of_scan scanned).stands (List.mem_filter.2 ⟨listed, by simp [meaning]⟩)
  rwa [kind, text] at stands

theorem nonempty (word : Word) : word.text.toList ≠ [] := by
  obtain ⟨c, cs, spelled, _⟩ := word.stands.cons
  simp [spelled]

/-- A word or number starts with a character that words go on with. -/
theorem first_char (word : Word) :
    ∃ c cs, word.text.toList = c :: cs ∧ Token.isWordChar c = true ∧ isSpace c = false := by
  obtain ⟨c, cs, spelled, notSpace⟩ := word.stands.cons
  refine ⟨c, cs, spelled, ?_, notSpace⟩
  have alone := word.stands.alone
  rcases word.wordlike with same | same
  · rw [same, spelled] at alone
    exact is_word_char_of_start (lexeme_identifier alone).1
  · have stands := word.stands
    rw [same] at stands
    obtain ⟨d, ds, other, digit⟩ := stands.digit
    obtain ⟨rfl, _⟩ := List.cons.inj (spelled.symm.trans other)
    simp [Token.isWordChar, Char.isAlphanum, digit]

end Word

theorem is_word_char_iff {c : Char} :
    Token.isWordChar c = true ↔ isWordChar c = true ∨ c = '\\' := by
  simp [Token.isWordChar, isWordChar]

/-- What is written between two texts. -/
def gap (written text : String) : String :=
  if (Text.lastChar? written).any isWordChar && (Text.firstChar? text).any isWordChar then " "
  else ""

theorem append_none (text : String) : append none text = text := by
  simp [append, Text.lastChar?]

theorem append_some (written text : String) :
    append (some written) text = written ++ gap written text ++ text := by
  simp only [append, gap, Option.getD_some]
  split <;> simp

def behind : Word → List Word → String
  | _, [] => ""
  | word, next :: rest => gap word.text next.text ++ next.text ++ behind next rest

theorem gap_append (front : String) (word : Word) (text : String) :
    gap (front ++ word.text) text = gap word.text text := by
  have last : Text.lastChar? (front ++ word.text) = Text.lastChar? word.text := by
    rw [Text.lastChar?, Text.lastChar?, String.toList_append,
      List.getLast?_append_of_ne_nil _ word.nonempty]
  rw [gap, gap, last]

theorem collected_behind (front : String) (word : Word) (rest : List Word) :
    collected (some (front ++ word.text)) (rest.map Word.lexeme) =
      some (front ++ word.text ++ behind word rest) := by
  induction rest generalizing front word with
  | nil => simp [collected, behind]
  | cons next rest induction =>
      have later := induction (front ++ word.text ++ gap word.text next.text) next
      have step : collected (some (front ++ word.text)) ((next :: rest).map Word.lexeme) =
          collected (some (append (some (front ++ word.text)) next.text))
            (rest.map Word.lexeme) := rfl
      rw [step, append_some, gap_append, later, behind]
      simp only [String.append_assoc]

theorem collected_words (word : Word) (rest : List Word) :
    collected none ((word :: rest).map Word.lexeme) = some (word.text ++ behind word rest) := by
  have step : collected none ((word :: rest).map Word.lexeme) =
      collected (some (append none word.text)) (rest.map Word.lexeme) := rfl
  have later := collected_behind "" word rest
  rw [String.empty_append] at later
  rw [step, append_none, later]

/-- In front of a word, a space is left out for what is written or for a backslash. -/
theorem gap_cases (written : String) (next : Word) :
    (gap written next.text = " " ∧ (Text.lastChar? written).any isWordChar = true ∧
        Text.firstChar? next.text ≠ some '\\') ∨
      gap written next.text = "" ∧ ((Text.lastChar? written).any isWordChar = false ∨
        Text.firstChar? next.text = some '\\') := by
  obtain ⟨c, cs, spelled, good, _⟩ := next.first_char
  have starts : Text.firstChar? next.text = some c := by
    rw [Text.firstChar?, spelled, List.head?_cons]
  rw [gap, starts, Option.any_some]
  cases (Text.lastChar? written).any isWordChar with
  | false => exact .inr ⟨rfl, .inl rfl⟩
  | true =>
      rcases is_word_char_iff.1 good with plain | rfl
      · refine .inl ⟨by rw [plain]; rfl, rfl, ?_⟩
        rintro ⟨⟩
        exact absurd plain (by decide)
      · exact .inr ⟨rfl, .inr rfl⟩

/-- Between a name and another word only a backslash suppresses the space. -/
theorem run_together_iff (word next : Word) :
    word.RunTogether next ↔ word.kind = .identifier ∧ gap word.text next.text = "" := by
  refine and_congr_right fun name => ?_
  rcases gap_cases word.text next with ⟨space, last, first⟩ | ⟨close, apart⟩
  · rw [space]
    refine ⟨?_, fun same => absurd same (by decide)⟩
    rintro (ends | starts)
    · rw [ends] at last
      exact absurd last (by decide)
    · exact absurd starts first
  · refine ⟨fun _ => close, fun _ => ?_⟩
    have reads : ReadsAsWord word.text := by
      have alone := word.stands.alone
      rwa [name] at alone
    obtain ⟨c, ends, good⟩ := reads_as_word_last reads
    rw [ends, Option.any_some] at apart
    rcases apart with foreign | starts
    · rcases is_word_char_iff.1 good with plain | rfl
      · rw [foreign] at plain
        contradiction
      · exact .inl ends
    · exact .inr starts

/-- Without a space, a number is still cut off as it is. -/
theorem number_cut (word next : Word) (number : word.kind = .number)
    (close : gap word.text next.text = "") (rest : List Char) :
    lexeme? (word.text.toList ++ (next.text.toList ++ rest)) =
      some (word.kind, word.text.toList.length) := by
  have stands := word.stands
  rw [number] at stands ⊢
  obtain ⟨c, cs, spelled, _, _⟩ := next.first_char
  rw [spelled, List.cons_append]
  refine stands.number_before ?_ (cs ++ rest)
  obtain ⟨front, sign, split, _, ⟨last, ends, plain⟩, none | percent⟩ :=
    number_split stands.described
  · -- The number ends in a letter or digit, so it is the next word that suppressed the space.
    have written : (Text.lastChar? word.text).any isWordChar = true := by
      rw [none, List.append_nil] at split
      rw [Text.lastChar?, split, ends, Option.any_some]
      simp only [isNumberChar, isWordChar, Bool.or_eq_true] at plain ⊢
      exact .inl plain
    rcases gap_cases word.text next with ⟨space, _⟩ | ⟨_, foreign | starts⟩
    · rw [space] at close
      contradiction
    · rw [foreign] at written
      contradiction
    · rw [Text.firstChar?, spelled] at starts
      exact .inr (Option.some.inj starts)
  · rw [split, percent]
    exact .inl List.getLast?_concat

/-- Without a space, a name takes some of what follows. -/
theorem name_prolonged (word next : Word) (name : word.kind = .identifier) (rest : List Char) :
    ∃ count, lexeme? (word.text.toList ++ (next.text.toList ++ rest)) =
      some (.identifier, count) ∧ word.text.toList.length < count := by
  have stands := word.stands
  rw [name] at stands
  obtain ⟨c, cs, spelled, good, _⟩ := next.first_char
  refine ⟨_, stands.word_append _, ?_⟩
  rw [spelled, List.cons_append, word_tail_cons good]
  omega

/-- A word that does not run together with the next one is read off. -/
theorem scan_apart (start : Nat) {word next : Word} (apart : ¬ word.RunTogether next)
    (rest : List Word) :
    ∃ stop, (scanFrom start (word.text ++ behind word (next :: rest)).toList).map unspaced =
      ((scanFrom stop (next.text ++ behind next rest).toList).map unspaced).map
        (word.lexeme :: ·) := by
  obtain ⟨c, cs, spelled, _, notSpace⟩ := next.first_char
  have stops : ∀ d ∈ (next.text ++ behind next rest).toList.head?, isSpace d = false := by
    simp [spelled, notSpace]
  rcases gap_cases word.text next with ⟨space, _⟩ | ⟨close, _⟩
  · have whole : (word.text ++ behind word (next :: rest)).toList =
        word.text.toList ++ ' ' :: (next.text ++ behind next rest).toList := by
      simp [behind, space]
    have found := word.stands.before_space (c := ' ') (by decide)
      (next.text ++ behind next rest).toList
    obtain ⟨middle, first⟩ := unspaced_scan_token start found word.visible
    obtain ⟨stop, second⟩ := unspaced_scan_space middle stops
    refine ⟨stop, ?_⟩
    rw [whole, first, second, String.ofList_toList]
    rfl
  · have number : word.kind = .number := by
      rcases word.wordlike with name | number
      · exact absurd ((run_together_iff word next).2 ⟨name, close⟩) apart
      · exact number
    have whole : (word.text ++ behind word (next :: rest)).toList =
        word.text.toList ++ (next.text.toList ++ (behind next rest).toList) := by
      simp [behind, close]
    obtain ⟨stop, first⟩ := unspaced_scan_token start
      (number_cut word next number close (behind next rest).toList) word.visible
    refine ⟨stop, ?_⟩
    rw [whole, first, String.ofList_toList, String.toList_append]
    rfl

/-- A word that runs together with the next one is not what is read first. -/
theorem scan_run_together (start : Nat) {word next : Word} (together : word.RunTogether next)
    (rest : List Word) (lexemes : List Lexeme) :
    (scanFrom start (word.text ++ behind word (next :: rest)).toList).map unspaced ≠
      .ok (word.lexeme :: lexemes) := by
  obtain ⟨name, close⟩ := (run_together_iff word next).1 together
  have whole : (word.text ++ behind word (next :: rest)).toList =
      word.text.toList ++ (next.text.toList ++ (behind next rest).toList) := by
    simp [behind, close]
  obtain ⟨count, found, longer⟩ := name_prolonged word next name (behind next rest).toList
  obtain ⟨text, left, split, rfl, _⟩ := lexeme_described found
  rw [split] at found
  obtain ⟨stop, first⟩ := unspaced_scan_token start found (by decide)
  rw [whole, split, first, Ne, map_cons_eq_ok]
  rintro ⟨same, _⟩
  have texts : text = word.text.toList := by
    rw [← (Prod.mk.inj same).2, String.toList_ofList]
  rw [texts] at longer
  omega

theorem scan_words_iff (word : Word) (rest : List Word) (start : Nat) :
    (scanFrom start (word.text ++ behind word rest).toList).map unspaced =
        .ok ((word :: rest).map Word.lexeme) ↔
      (word :: rest).IsChain fun first second => ¬ first.RunTogether second := by
  induction rest generalizing word start with
  | nil =>
      have found : lexeme? (word.text.toList ++ []) =
          some (word.kind, word.text.toList.length) := by
        rw [List.append_nil, word.stands.alone]
      obtain ⟨stop, first⟩ := unspaced_scan_token start found word.visible
      rw [List.append_nil, String.ofList_toList, scan_from_nil] at first
      rw [behind, String.append_empty, first]
      exact ⟨fun _ => .singleton word, fun _ => rfl⟩
  | cons next rest induction =>
      rw [List.isChain_cons_cons, List.map_cons]
      by_cases together : word.RunTogether next
      · have differs := scan_run_together start together rest ((next :: rest).map Word.lexeme)
        exact ⟨fun same => absurd same differs, fun chain => absurd together chain.1⟩
      · obtain ⟨stop, read⟩ := scan_apart start together rest
        rw [read, map_cons_eq_ok, induction next stop]
        exact ⟨fun both => ⟨together, both.2⟩, fun both => ⟨rfl, both.2⟩⟩

/-- The value collected from words and numbers scans back to them, white space aside, if and only if
no name runs together with what follows it: none ends in a backslash with another word behind it,
and none stands in front of a backslash. -/
theorem collected_words_scan_iff (words : List Word) :
    (scan ((collected none (words.map Word.lexeme)).getD "")).map unspaced =
        .ok (words.map Word.lexeme) ↔
      words.IsChain fun first second => ¬ first.RunTogether second := by
  cases words with
  | nil =>
      have empty : scan "" = .ok [] := scan_from_nil 0
      exact ⟨fun _ => .nil, fun _ => congrArg (Except.map unspaced) empty⟩
  | cons word rest =>
      rw [collected_words, Option.getD_some, scan]
      exact scan_words_iff word rest 0

example : collected none [word "a-b", (.number, "1.5%"), word "\\N", (.number, "2")] =
    some "a-b 1.5%\\N 2" := by decide

/-- A qualified name behind another word: the two become one. -/
theorem new_runs_into_qualified_name :
    ∃ first second : Word, first.lexeme = word "new" ∧ second.lexeme = word "\\Foo" ∧
      collected none ([first, second].map Word.lexeme) = some "new\\Foo" ∧
      (scan "new\\Foo").map unspaced = .ok [word "new\\Foo"] ∧
      [word "new\\Foo"] ≠ [first, second].map Word.lexeme := by
  have scanned : scan "new \\Foo" =
      .ok (layOut 0 [word "new", (.whitespace, " "), word "\\Foo"]) := by decide +kernel
  have joined : collected none [word "new", word "\\Foo"] = some "new\\Foo" := by decide
  have fewer : [word "new\\Foo"] ≠ [word "new", word "\\Foo"] := by decide
  exact ⟨⟨.identifier, "new", .inl rfl, _, _, scanned, by decide⟩,
    ⟨.identifier, "\\Foo", .inl rfl, _, _, scanned, by decide⟩, rfl, rfl, joined,
    by decide +kernel, fewer⟩

end DefaultValue

end DocComment
