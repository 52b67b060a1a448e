import DocComment.Proofs.LexicalPattern
import DocComment.Token.Scan

/-!
The scanner is maximal munch over the patterns of the kinds: at every boundary it cuts off the
longest front that any pattern describes, and it fails exactly where no pattern describes a front.
-/

namespace DocComment.Token

theorem in_ranges_space (c : Char) :
    Pattern.inRanges [(' ', ' '), ('\t', '\t'), ('\r', '\r'), ('\n', '\n'), ('\x0c', '\x0c')] c =
      isSpace c := by
  simp [isSpace, Bool.or_assoc]

theorem in_ranges_word_start (c : Char) :
    Pattern.inRanges [('A', 'Z'), ('a', 'z'), ('_', '_'), ('$', '$'), ('\\', '\\')] c =
      isWordStart c := by
  simp [isWordStart, Bool.or_assoc]

theorem in_ranges_hash_char (c : Char) :
    Pattern.inRanges [('A', 'Z'), ('a', 'z'), ('0', '9'), ('_', '_'), ('-', '-')] c =
      isHashChar c := by
  simp [isHashChar, Char.isAlphanum, Bool.or_assoc]

theorem starts_of_space {c : Char} (space : isSpace c = true) :
    isWordStart c = false ∧ c.isDigit = false := by
  simp only [isSpace, Bool.or_eq_true, beq_iff_eq] at space
  rcases space with (((rfl | rfl) | rfl) | rfl) | rfl <;> decide

theorem not_space_of_word_start {c : Char} (start : isWordStart c = true) : isSpace c = false := by
  by_contra space
  have other := (starts_of_space (by simpa using space)).1
  simp [start] at other

theorem not_space_of_digit {c : Char} (digit : c.isDigit = true) : isSpace c = false := by
  by_contra space
  have other := (starts_of_space (by simpa using space)).2
  simp [digit] at other

theorem not_word_start_of_digit {c : Char} (digit : c.isDigit = true) : isWordStart c = false := by
  have bounds : 48 ≤ c.val.toNat ∧ c.val.toNat ≤ 57 := by
    simpa [Char.isDigit, UInt32.le_iff_toNat_le] using digit
  rw [← in_ranges_word_start, Bool.eq_false_iff]
  intro start
  simp only [Pattern.inRanges, List.any_cons, List.any_nil, Bool.or_false, Bool.or_eq_true,
    Bool.and_eq_true, decide_eq_true_eq, Char.le_def, UInt32.le_iff_toNat_le, Char.reduceVal,
    UInt32.reduceToNat] at start
  omega

/-- Behind such an opening there is a lexeme of this kind, as far as the reader goes. -/
def Opens (opening : Pattern) (kind : Kind) (reader : List Char → Option Nat) : Prop :=
  ∀ {front}, opening.Matches front → ∀ {cs count}, reader cs = some count →
    lexeme? (front ++ cs) = some (kind, count + front.length)

theorem Opens.longest {opening tail : Pattern} {kind : Kind} {reader : List Char → Option Nat}
    (opens : Opens opening kind reader) (reads : Reads tail reader) {text : List Char}
    (described : (Pattern.sequence opening tail).Matches text) (rest : List Char) :
    ∃ other count, lexeme? (text ++ rest) = some (other, count) ∧ text.length ≤ count ∧
      (text.length = count → other = kind) := by
  obtain ⟨front, back, rfl, starts, goesOn⟩ := described
  obtain ⟨count, found, enough⟩ := reads.longest goesOn rest
  refine ⟨kind, count + front.length, ?_, ?_, fun _ => rfl⟩
  · rw [List.append_assoc]
    exact opens starts found
  · rw [List.length_append]
    omega

theorem Reads.described {opening tail : Pattern} {reader : List Char → Option Nat}
    (reads : Reads tail reader) {front cs : List Char} {count : Nat}
    (starts : opening.Matches front) (found : reader cs = some count) :
    ∃ text rest, front ++ cs = text ++ rest ∧ count + front.length = text.length ∧
      (Pattern.sequence opening tail).Matches text := by
  obtain ⟨back, rest, rfl, rfl, goesOn⟩ := reads.sound cs found
  refine ⟨front ++ back, rest, by simp, ?_, Pattern.matches_append starts goesOn⟩
  rw [List.length_append]
  omega

theorem opens_whitespace : Opens .space .whitespace fun cs => some (run isSpace cs) := by
  rintro _ ⟨c, space, rfl⟩ cs _ ⟨⟩
  rw [in_ranges_space] at space
  simp [lexeme?, space]

theorem opens_identifier : Opens .wordStart .identifier fun cs => some (wordTail cs) := by
  rintro _ ⟨c, start, rfl⟩ cs _ ⟨⟩
  rw [in_ranges_word_start] at start
  simp [lexeme?, start, not_space_of_word_start start]

theorem opens_number : Opens .digit .number fun cs => some (numberTail cs) := by
  rintro _ ⟨c, digit, rfl⟩ cs _ ⟨⟩
  have isDigit : c.isDigit = true := by simpa using digit
  simp [lexeme?, isDigit, not_space_of_digit isDigit, not_word_start_of_digit isDigit]

theorem opens_string {quote : Char} (isQuoted : isQuote quote = true) :
    Opens (.one (· == quote)) .string (closingQuote? quote) := by
  rintro _ ⟨c, same, rfl⟩ cs count closes
  obtain rfl : c = quote := by simpa using same
  simp only [isQuote, Bool.or_eq_true, beq_iff_eq] at isQuoted
  rcases isQuoted with (rfl | rfl) | rfl <;>
    simp [lexeme?, isSpace, isWordStart, isQuote, closes]

theorem opens_hash : Opens (.spelled "#") .hash fun cs => some (run isHashChar cs) := by
  rintro _ rfl cs _ ⟨⟩
  simp [lexeme?, isSpace, isWordStart, isQuote]

theorem opens_line_comment :
    Opens (.spelled "//") .lineComment fun cs => some (run (· != '\n') cs) := by
  rintro _ rfl cs _ ⟨⟩
  simp [lexeme?, isSpace, isWordStart, isQuote, comment?]

theorem opens_block_comment : Opens (.spelled "/*") .blockComment closingComment? := by
  rintro _ rfl cs count closes
  simp [lexeme?, isSpace, isWordStart, isQuote, comment?, closes]

theorem mem_signs_of_fixed {entry : String × Kind} (member : entry ∈ fixedSpellings) :
    entry.1 ∈ entry.2.signs := by
  have each : ∀ entry ∈ fixedSpellings, entry.1 ∈ entry.2.signs := by decide
  exact each entry member

theorem fixed_of_mem_signs {kind : Kind} {spelling : String} (member : spelling ∈ kind.signs) :
    (spelling, kind) ∈ fixedSpellings := by
  have each : ∀ kind ∈ Kind.all, ∀ spelling ∈ kind.signs, (spelling, kind) ∈ fixedSpellings := by
    decide
  exact each kind (Kind.mem_all kind) spelling member

theorem fixed_described {entry : String × Kind} (member : entry ∈ fixedSpellings) :
    entry.2.pattern.Matches entry.1.toList := by
  have listed := mem_signs_of_fixed member
  have described := Pattern.matches_any_of.2 ⟨entry.1, listed, rfl⟩
  cases same : entry.2 <;> rw [same] at listed described
  case whitespace | lineComment | blockComment | identifier | number | string | hash =>
    simp [Kind.signs] at listed
  all_goals exact described

/-- No class but that of the signs starts like a fixed spelling. -/
theorem lexeme_fixed {entry : String × Kind} (member : entry ∈ fixedSpellings) (rest : List Char) :
    lexeme? (entry.1.toList ++ rest) =
      (comment? (entry.1.toList ++ rest)).or (fixed? (entry.1.toList ++ rest)) := by
  have each : ∀ entry ∈ fixedSpellings, entry.1.toList.head?.any fun c =>
      !isSpace c && !isWordStart c && !c.isDigit && !isQuote c && c != '#' := by decide
  have first := each entry member
  cases spelled : entry.1.toList with
  | nil => simp [spelled] at first
  | cons c cs =>
      simp only [spelled, List.head?_cons, Option.any_some, Bool.and_eq_true, Bool.not_eq_true',
        bne_iff_ne, ne_eq] at first
      simp [lexeme?, first]

/-- Longer spellings come first and none comes twice. -/
theorem fixed_spellings_sorted : fixedSpellings.Pairwise fun first second =>
    second.1.length ≤ first.1.length ∧ first.1 ≠ second.1 := by
  decide

theorem fixed_longest {entry : String × Kind} (member : entry ∈ fixedSpellings) (rest : List Char) :
    ∃ other count, fixed? (entry.1.toList ++ rest) = some (other, count) ∧
      entry.1.length ≤ count ∧ (entry.1.length = count → other = entry.2) := by
  have isFront : entry.1.toList.isPrefixOf (entry.1.toList ++ rest) = true := by simp
  rw [fixed?]
  generalize found : List.find? _ fixedSpellings = result
  cases result with
  | none =>
      have absent := List.find?_eq_none.1 found entry member
      exact absurd isFront absent
  | some first =>
      refine ⟨first.2, first.1.length, rfl, ?_⟩
      obtain ⟨isFirst, before, after, split, earlier⟩ := List.find?_eq_some_iff_append.1 found
      have sorted := fixed_spellings_sorted
      rw [split] at member sorted
      rw [List.pairwise_append, List.pairwise_cons] at sorted
      rcases List.mem_append.1 member with passed | other
      · have missed := earlier entry passed
        simp [isFront] at missed
      rcases List.mem_cons.1 other with rfl | later
      · exact ⟨Nat.le_refl _, fun _ => rfl⟩
      · obtain ⟨shorter, different⟩ := sorted.2.1.1 entry later
        refine ⟨shorter, fun sameLength => absurd ?_ different⟩
        have both : first.1.toList <+: entry.1.toList ++ rest :=
          List.isPrefixOf_iff_prefix.1 isFirst
        have lengths : first.1.toList.length = entry.1.toList.length := by
          rw [String.length_toList, String.length_toList, sameLength]
        have inner := List.prefix_of_prefix_length_le both (List.prefix_append _ rest) lengths.le
        exact String.toList_inj.1 (inner.eq_of_length lengths)

theorem comment_start {cs : List Char} {kind : Kind} {count : Nat}
    (found : comment? cs = some (kind, count)) :
    (cs.take 2 = ['/', '/'] ∨ cs.take 2 = ['/', '*']) ∧ 2 ≤ count := by
  unfold comment? at found
  split at found
  · simp only [Option.some.injEq, Prod.mk.injEq] at found
    exact ⟨.inl rfl, by omega⟩
  · simp only [Option.map_eq_some_iff, Prod.mk.injEq] at found
    obtain ⟨_, _, _, rfl⟩ := found
    exact ⟨.inr rfl, by omega⟩
  · simp at found

theorem comment_longer {entry : String × Kind} {other : Kind} {rest : List Char} {count : Nat}
    (member : entry ∈ fixedSpellings)
    (found : comment? (entry.1.toList ++ rest) = some (other, count)) :
    entry.1.length < count := by
  obtain ⟨starts, enough⟩ := comment_start found
  by_cases long : 2 ≤ entry.1.toList.length
  · have each : ∀ entry ∈ fixedSpellings,
        entry.1.toList.take 2 ≠ ['/', '/'] ∧ entry.1.toList.take 2 ≠ ['/', '*'] := by decide
    rw [List.take_append_of_le_length long] at starts
    rcases starts with line | block
    · exact absurd line (each entry member).1
    · exact absurd block (each entry member).2
  · rw [String.length_toList] at long
    omega

theorem sign_longest {kind : Kind} {text : List Char}
    (described : (Pattern.anyOf kind.signs).Matches text) (rest : List Char) :
    ∃ other count, lexeme? (text ++ rest) = some (other, count) ∧ text.length ≤ count ∧
      (text.length = count → other = kind) := by
  obtain ⟨spelling, member, rfl⟩ := Pattern.matches_any_of.1 described
  have fixed := fixed_of_mem_signs member
  have found := lexeme_fixed fixed rest
  rw [String.length_toList]
  cases comment : comment? (spelling.toList ++ rest) with
  | none =>
      rw [found, comment, Option.none_or]
      exact fixed_longest fixed rest
  | some lexeme =>
      rw [found, comment, Option.some_or]
      have longer := comment_longer fixed comment
      exact ⟨lexeme.1, lexeme.2, rfl, longer.le, fun same => absurd same longer.ne⟩

theorem except_line_feed (c : Char) : (!(['\n'].contains c)) = (c != '\n') := by
  rw [bne, List.contains_cons, List.contains_nil, Bool.or_false]

theorem reads_double_quoted : Reads (.untilQuote '\x22' ['\n']) (closingQuote? '\x22') :=
  reads_closing_quote (by decide) (by simp)

theorem reads_single_quoted : Reads (.untilQuote '\x27' ['\n']) (closingQuote? '\x27') :=
  reads_closing_quote (by decide) (by simp)

theorem reads_tick_quoted : Reads (.untilQuote '\x60' []) (closingQuote? '\x60') :=
  reads_closing_quote (by decide) (by simp)

/-- Where a pattern describes a front, the scanner cuts off at least as much, and the same only as
the same kind. -/
theorem lexeme_longest {kind : Kind} {text : List Char} (described : kind.pattern.Matches text)
    (rest : List Char) :
    ∃ other count, lexeme? (text ++ rest) = some (other, count) ∧ text.length ≤ count ∧
      (text.length = count → other = kind) := by
  cases kind with
  | whitespace => exact opens_whitespace.longest (reads_run in_ranges_space) described rest
  | lineComment => exact opens_line_comment.longest (reads_run except_line_feed) described rest
  | blockComment => exact opens_block_comment.longest reads_closing_comment described rest
  | identifier => exact opens_identifier.longest reads_word_tail described rest
  | number => exact opens_number.longest reads_number_tail described rest
  | string =>
      rcases described with double | single | tick
      · exact Opens.longest (opens_string (by decide)) reads_double_quoted double rest
      · exact Opens.longest (opens_string (by decide)) reads_single_quoted single rest
      · exact Opens.longest (opens_string (by decide)) reads_tick_quoted tick rest
  | hash => exact opens_hash.longest (reads_run in_ranges_hash_char) described rest
  | _ => exact sign_longest described rest

theorem string_described {quote : Char} {cs : List Char} {count : Nat}
    (isQuoted : isQuote quote = true) (closes : closingQuote? quote cs = some count) :
    ∃ text rest, quote :: cs = text ++ rest ∧ count + 1 = text.length ∧
      Kind.string.pattern.Matches text := by
  have starts : (Pattern.one (· == quote)).Matches [quote] := ⟨quote, by simp, rfl⟩
  simp only [isQuote, Bool.or_eq_true, beq_iff_eq] at isQuoted
  rcases isQuoted with (rfl | rfl) | rfl
  · obtain ⟨text, rest, split, length, described⟩ := reads_double_quoted.described starts closes
    exact ⟨text, rest, split, length, .inl described⟩
  · obtain ⟨text, rest, split, length, described⟩ := reads_single_quoted.described starts closes
    exact ⟨text, rest, split, length, .inr (.inl described)⟩
  · obtain ⟨text, rest, split, length, described⟩ := reads_tick_quoted.described starts closes
    exact ⟨text, rest, split, length, .inr (.inr described)⟩

theorem comment_described {cs : List Char} {kind : Kind} {count : Nat}
    (found : comment? cs = some (kind, count)) :
    ∃ text rest, cs = text ++ rest ∧ count = text.length ∧ kind.pattern.Matches text := by
  unfold comment? at found
  split at found
  · next cs =>
      obtain ⟨rfl, rfl⟩ := Prod.mk.inj (Option.some.inj found)
      have starts : (Pattern.spelled "//").Matches ['/', '/'] := rfl
      exact (reads_run except_line_feed).described starts rfl
  · next cs =>
      obtain ⟨inner, closes, same⟩ := Option.map_eq_some_iff.1 found
      obtain ⟨rfl, rfl⟩ := Prod.mk.inj same
      have starts : (Pattern.spelled "/*").Matches ['/', '*'] := rfl
      exact reads_closing_comment.described starts closes
  · simp at found

/-- What the scanner cuts off is described by the pattern of its kind. -/
theorem lexeme_described {cs : List Char} {kind : Kind} {count : Nat}
    (found : lexeme? cs = some (kind, count)) :
    ∃ text rest, cs = text ++ rest ∧ count = text.length ∧ kind.pattern.Matches text := by
  cases cs with
  | nil => simp [lexeme?] at found
  | cons c cs =>
      simp only [lexeme?] at found
      split at found
      · next space =>
          obtain ⟨rfl, rfl⟩ := Prod.mk.inj (Option.some.inj found)
          have starts : Pattern.space.Matches [c] := ⟨c, by rw [in_ranges_space, space], rfl⟩
          exact (reads_run in_ranges_space).described starts rfl
      split at found
      · next start =>
          obtain ⟨rfl, rfl⟩ := Prod.mk.inj (Option.some.inj found)
          have starts : Pattern.wordStart.Matches [c] :=
            ⟨c, by rw [in_ranges_word_start, start], rfl⟩
          exact reads_word_tail.described starts rfl
      split at found
      · next isDigit =>
          obtain ⟨rfl, rfl⟩ := Prod.mk.inj (Option.some.inj found)
          have starts : Pattern.digit.Matches [c] := ⟨c, by simpa using isDigit, rfl⟩
          exact reads_number_tail.described starts rfl
      split at found
      · next isQuoted =>
          obtain ⟨inner, closes, same⟩ := Option.map_eq_some_iff.1 found
          obtain ⟨rfl, rfl⟩ := Prod.mk.inj same
          exact string_described isQuoted closes
      split at found
      · next hash =>
          obtain ⟨rfl, rfl⟩ := Prod.mk.inj (Option.some.inj found)
          have starts : (Pattern.spelled "#").Matches [c] := by rw [hash]; rfl
          exact (reads_run in_ranges_hash_char).described starts rfl
      rcases Option.or_eq_some_iff.1 found with comment | ⟨_, fixed⟩
      · exact comment_described comment
      · obtain ⟨entry, listed, same⟩ := Option.map_eq_some_iff.1 fixed
        obtain ⟨rfl, rfl⟩ := Prod.mk.inj same
        have isFront := List.find?_some listed
        obtain ⟨rest, split⟩ := List.isPrefixOf_iff_prefix.1 isFront
        refine ⟨entry.1.toList, rest, split.symm, String.length_toList.symm, ?_⟩
        exact fixed_described (List.mem_of_find?_eq_some listed)

/-- At the front of what is left, the text is the longest that any pattern describes, and the
pattern of this kind alone describes it. -/
structure Longest (kind : Kind) (text rest : List Char) : Prop where
  nonempty : text ≠ []
  described : kind.pattern.Matches text
  longest : ∀ (other : Kind) (longer : List Char), longer <+: text ++ rest →
    text.length < longer.length → ¬ other.pattern.Matches longer
  only : ∀ other : Kind, other.pattern.Matches text → other = kind

structure Stuck (rest : List Char) : Prop where
  nonempty : rest ≠ []
  undescribed : ∀ (kind : Kind) (front : List Char), front ≠ [] → front <+: rest →
    ¬ kind.pattern.Matches front

def sourceText : List Token → String
  | [] => ""
  | token :: tokens => token.text ++ sourceText tokens

@[simp] theorem starting_at_text (start : Nat) (kind : Kind) (text : String) :
    (startingAt start kind text).text = text := rfl

/-- The tokens cut longest matches off the input, from the given byte on, and leave the rest. -/
structure Munches (start : Nat) (input : List Char) (tokens : List Token) (rest : List Char) :
    Prop where
  whole : input = (sourceText tokens).toList ++ rest
  placed : ∀ before token after, tokens = before ++ token :: after →
    token.span.start = start + (sourceText before).utf8ByteSize ∧
      token.span.stop = token.span.start + token.text.utf8ByteSize
  longest : ∀ before token after, tokens = before ++ token :: after →
    Longest token.kind token.text.toList ((sourceText after).toList ++ rest)

theorem lexeme_of_longest {kind : Kind} {text rest : List Char} (cut : Longest kind text rest) :
    lexeme? (text ++ rest) = some (kind, text.length) := by
  obtain ⟨other, count, found, enough, same⟩ := lexeme_longest cut.described rest
  obtain ⟨front, back, split, rfl, described⟩ := lexeme_described found
  have noLonger : ¬ text.length < front.length := by
    intro longer
    exact cut.longest other front ⟨back, split.symm⟩ longer described
  have lengths : text.length = front.length := by omega
  rw [found, same lengths, lengths]

theorem longest_of_lexeme {cs : List Char} {kind : Kind} {count : Nat}
    (found : lexeme? cs = some (kind, count)) :
    ∃ text rest, cs = text ++ rest ∧ count = text.length ∧ Longest kind text rest := by
  obtain ⟨text, rest, rfl, rfl, described⟩ := lexeme_described found
  -- Any described front has a lexeme of its own, which is the one that was found.
  have known : ∀ {other : Kind} {front}, other.pattern.Matches front → front <+: text ++ rest →
      front.length ≤ text.length ∧ (front.length = text.length → kind = other) := by
    rintro other front fits ⟨back, split⟩
    obtain ⟨_, _, again, bounded, same⟩ := lexeme_longest fits back
    rw [split, found] at again
    obtain ⟨rfl, rfl⟩ := Prod.mk.inj (Option.some.inj again)
    exact ⟨bounded, same⟩
  refine ⟨text, rest, rfl, rfl, ?_, described, ?_, ?_⟩
  · rintro rfl
    exact absurd (lexeme_positive found) (by simp)
  · intro other longer isFront more fits
    have bounded := (known fits isFront).1
    omega
  · intro other fits
    exact ((known fits (List.prefix_append text rest)).2 rfl).symm

theorem stuck_iff_lexeme_none {cs : List Char} :
    Stuck cs ↔ cs ≠ [] ∧ lexeme? cs = none := by
  constructor
  · intro stuck
    refine ⟨stuck.nonempty, ?_⟩
    cases found : lexeme? cs with
    | none => rfl
    | some lexeme =>
        obtain ⟨text, rest, rfl, _, cut⟩ := longest_of_lexeme found
        exact absurd cut.described
          (stuck.undescribed _ text cut.nonempty (List.prefix_append text rest))
  · rintro ⟨nonempty, none⟩
    refine ⟨nonempty, ?_⟩
    rintro kind front _ ⟨back, rfl⟩ fits
    obtain ⟨_, _, found, _⟩ := lexeme_longest fits back
    rw [none] at found
    contradiction

/-- With less behind it a longest match is still the longest. -/
theorem Longest.shorten {kind : Kind} {text left rest : List Char}
    (cut : Longest kind text (left ++ rest)) : Longest kind text left := by
  refine ⟨cut.nonempty, cut.described, ?_, cut.only⟩
  intro other longer isFront more
  apply cut.longest other longer _ more
  rw [← List.append_assoc]
  exact isFront.trans (List.prefix_append _ rest)

theorem scan_from_nil (start : Nat) : scanFrom start [] = .ok [] := by
  rw [scanFrom]
  rfl

theorem scan_from_stuck (start : Nat) {rest : List Char} (stuck : Stuck rest) :
    scanFrom start rest = .error ⟨String.ofList (rest.take (unreadable rest)), start⟩ := by
  obtain ⟨nonempty, none⟩ := stuck_iff_lexeme_none.1 stuck
  rw [scanFrom]
  split
  · next found =>
      rw [none] at found
      contradiction
  · cases rest with
    | nil => exact absurd rfl nonempty
    | cons c cs => rfl

theorem scan_from_cut (start : Nat) {kind : Kind} {text : String} {rest : List Char}
    (cut : Longest kind text.toList rest) :
    scanFrom start (text.toList ++ rest) =
      (scanFrom (start + text.utf8ByteSize) rest).map (startingAt start kind text :: ·) := by
  have front := lexeme_of_longest cut
  rw [scanFrom]
  split
  · next found =>
      rw [front] at found
      obtain ⟨rfl, rfl⟩ := Prod.mk.inj (Option.some.inj found)
      rw [List.take_left, List.drop_left, String.ofList_toList]
      rfl
  · next found =>
      rw [front] at found
      contradiction

namespace Munches

variable {start : Nat} {input left rest : List Char} {token : Token} {tokens : List Token}

theorem nil (start : Nat) (rest : List Char) : Munches start rest [] rest :=
  ⟨rfl, by simp, by simp⟩

theorem cons {kind : Kind} {text : String} (cut : Longest kind text.toList left)
    (others : Munches (start + text.utf8ByteSize) left tokens rest) :
    Munches start (text.toList ++ left) (startingAt start kind text :: tokens) rest := by
  refine ⟨?_, ?_, ?_⟩
  · simp [sourceText, others.whole]
  · intro before other after same
    cases before with
    | nil =>
        obtain ⟨rfl, rfl⟩ := List.cons.inj same
        exact ⟨rfl, rfl⟩
    | cons first before =>
        obtain ⟨rfl, rfl⟩ := List.cons.inj same
        obtain ⟨starts, stops⟩ := others.placed before other after rfl
        refine ⟨?_, stops⟩
        rw [starts, sourceText, String.utf8ByteSize_append, starting_at_text]
        omega
  · intro before other after same
    cases before with
    | nil =>
        obtain ⟨rfl, rfl⟩ := List.cons.inj same
        rw [← others.whole]
        exact cut
    | cons first before =>
        obtain ⟨rfl, rfl⟩ := List.cons.inj same
        exact others.longest before other after rfl

theorem uncons (munches : Munches start input (token :: tokens) rest) :
    token = startingAt start token.kind token.text ∧
      ∃ left, input = token.text.toList ++ left ∧ Longest token.kind token.text.toList left ∧
        Munches (start + token.text.utf8ByteSize) left tokens rest := by
  obtain ⟨starts, stops⟩ := munches.placed [] token tokens rfl
  have cut := munches.longest [] token tokens rfl
  refine ⟨?_, (sourceText tokens).toList ++ rest, ?_, cut, rfl, ?_, ?_⟩
  · obtain ⟨kind, text, first, last⟩ := token
    simp only [sourceText, String.utf8ByteSize_empty, Nat.add_zero] at starts stops
    rw [stops, starts]
    rfl
  · rw [munches.whole]
    simp [sourceText]
  · intro before other after same
    have placed := munches.placed (token :: before) other after (by rw [same]; rfl)
    rw [sourceText, String.utf8ByteSize_append] at placed
    rw [Nat.add_assoc]
    exact placed
  · intro before other after same
    exact munches.longest (token :: before) other after (by rw [same]; rfl)

theorem scan_from (munches : Munches start input tokens rest) :
    scanFrom start input =
      (scanFrom (start + (sourceText tokens).utf8ByteSize) rest).map (tokens ++ ·) := by
  induction tokens generalizing start input with
  | nil =>
      obtain rfl : input = rest := munches.whole
      rw [sourceText, String.utf8ByteSize_empty, Nat.add_zero]
      cases scanFrom start input <;> rfl
  | cons token tokens induction =>
      obtain ⟨placed, left, rfl, cut, others⟩ := munches.uncons
      rw [scan_from_cut start cut, ← placed, induction others, sourceText,
        String.utf8ByteSize_append, Nat.add_assoc]
      generalize start + (token.text.utf8ByteSize + (sourceText tokens).utf8ByteSize) = stop
      cases scanFrom stop rest <;> rfl

/-- Read for itself, what has been cut off falls into the same tokens. -/
theorem alone (munches : Munches start input tokens rest) :
    Munches start (sourceText tokens).toList tokens [] := by
  refine ⟨by simp, munches.placed, ?_⟩
  intro before token after same
  rw [List.append_nil]
  exact (munches.longest before token after same).shorten

end Munches

theorem exists_munches (start : Nat) (input : List Char) :
    ∃ tokens rest, Munches start input tokens rest ∧ (rest = [] ∨ Stuck rest) := by
  fun_induction scanFrom start input with
  | case1 start input kind count found token induction =>
      obtain ⟨text, left, rfl, rfl, cut⟩ := longest_of_lexeme found
      rw [← @String.toList_ofList text] at cut
      obtain ⟨tokens, rest, others, ends⟩ := induction
      simp only [token, List.take_left, List.drop_left] at others
      have cuts := Munches.cons cut others
      rw [String.toList_ofList] at cuts
      exact ⟨_, rest, cuts, ends⟩
  | case2 start _ => exact ⟨[], [], Munches.nil start [], .inl rfl⟩
  | case3 start c cs none =>
      have stuck : Stuck (c :: cs) := stuck_iff_lexeme_none.2 ⟨by simp, none⟩
      exact ⟨[], c :: cs, Munches.nil start _, .inr stuck⟩

theorem unreadable_front {rest : List Char} (nonempty : rest ≠ []) :
    rest.take (unreadable rest) ≠ [] := by
  cases rest with
  | nil => exact absurd rfl nonempty
  | cons c cs =>
      simp only [unreadable]
      split <;> simp

/-- Scanning is maximal munch. The tokens of a text cut it into longest matches; where that ends at
something no pattern describes, the error says at which byte, with some of what stands there, and
the text before it scans by itself. -/
theorem scan_maximal_munch (line : String) :
    (∀ tokens, scan line = .ok tokens ↔ Munches 0 line.toList tokens []) ∧
      ((∃ error, scan line = .error error) ↔
        ∃ tokens rest, Munches 0 line.toList tokens rest ∧ Stuck rest) ∧
      ∀ tokens rest, Munches 0 line.toList tokens rest → Stuck rest →
        ∃ text, scan line = .error ⟨text, (sourceText tokens).utf8ByteSize⟩ ∧ text ≠ "" ∧
          text.toList <+: rest ∧ scan (sourceText tokens) = .ok tokens := by
  have reads : ∀ {text : String} {tokens}, Munches 0 text.toList tokens [] →
      scan text = .ok tokens := by
    intro text tokens munches
    rw [scan, munches.scan_from, scan_from_nil, Except.map, List.append_nil]
  have fails : ∀ {tokens rest}, Munches 0 line.toList tokens rest → Stuck rest →
      scan line = .error ⟨String.ofList (rest.take (unreadable rest)),
        (sourceText tokens).utf8ByteSize⟩ := by
    intro tokens rest munches stuck
    rw [scan, munches.scan_from, scan_from_stuck _ stuck, Nat.zero_add]
    rfl
  obtain ⟨found, left, munches, ends⟩ := exists_munches 0 line.toList
  refine ⟨?_, ?_, ?_⟩
  · intro tokens
    refine ⟨?_, reads⟩
    intro scanned
    rcases ends with rfl | stuck
    · rw [reads munches] at scanned
      obtain rfl := Except.ok.inj scanned
      exact munches
    · rw [fails munches stuck] at scanned
      contradiction
  · constructor
    · rintro ⟨error, failed⟩
      rcases ends with rfl | stuck
      · rw [reads munches] at failed
        contradiction
      · exact ⟨found, left, munches, stuck⟩
    · rintro ⟨tokens, rest, cuts, stuck⟩
      exact ⟨_, fails cuts stuck⟩
  · intro tokens rest cuts stuck
    refine ⟨_, fails cuts stuck, ?_, ?_, reads cuts.alone⟩
    · intro empty
      have front := congrArg String.toList empty
      rw [String.toList_ofList] at front
      exact unreadable_front stuck.nonempty front
    · rw [String.toList_ofList]
      exact List.take_prefix _ _

end DocComment.Token
