import Mathlib.Data.List.TakeWhile
import DocComment.Proofs.Word

/-!
The patterns that describe the kinds of tokens, and for each hand-written class reader the proof
that it takes the longest front its pattern describes. Where a pattern can end at one place only (a
comment, a quoted text), the reader finds that place; where it can end at many, the reader passes
all of them.
-/

namespace DocComment.Token

/-- A regular pattern over characters. -/
inductive Pattern where
  | one (accepts : Char → Bool)
  | spelled (text : String)
  | sequence (first second : Pattern)
  | choice (left right : Pattern)
  | many (inner : Pattern)

namespace Pattern

def Matches : Pattern → List Char → Prop
  | one accepts, text => ∃ c, accepts c = true ∧ text = [c]
  | spelled spelling, text => text = spelling.toList
  | sequence first second, text =>
      ∃ front back, text = front ++ back ∧ first.Matches front ∧ second.Matches back
  | choice left right, text => left.Matches text ∨ right.Matches text
  | many inner, text => ∃ parts : List (List Char), text = parts.flatten ∧
      ∀ part ∈ parts, inner.Matches part

def inRanges (ranges : List (Char × Char)) (c : Char) : Bool :=
  ranges.any fun (low, high) => low ≤ c && c ≤ high

def within (ranges : List (Char × Char)) : Pattern := one (inRanges ranges)

def except (chars : List Char) : Pattern := one fun c => !chars.contains c

def more (inner : Pattern) : Pattern := sequence inner (many inner)

def optional (inner : Pattern) : Pattern := choice inner (spelled "")

def anyOf : List String → Pattern
  | [] => one fun _ => false
  | text :: texts => choice (spelled text) (anyOf texts)

/-- Part of a quoted text: a character other than the given ones, or a backslash with anything but a
line feed. -/
def quotedPart (quote : Char) (others : List Char) : Pattern :=
  choice (except (quote :: '\\' :: others)) (sequence (spelled "\\") (except ['\n']))

def untilQuote (quote : Char) (others : List Char) : Pattern :=
  sequence (many (quotedPart quote others)) (one (· == quote))

def quoted (quote : Char) (others : List Char) : Pattern :=
  sequence (one (· == quote)) (untilQuote quote others)

def space : Pattern :=
  within [(' ', ' '), ('\t', '\t'), ('\r', '\r'), ('\n', '\n'), ('\x0c', '\x0c')]

def wordStart : Pattern := within [('A', 'Z'), ('a', 'z'), ('_', '_'), ('$', '$'), ('\\', '\\')]

def wordPart : Pattern :=
  within [('A', 'Z'), ('a', 'z'), ('0', '9'), ('_', '_'), ('$', '$'), ('\\', '\\')]

def wordRest : Pattern :=
  sequence (many wordPart) (many (sequence (spelled "-") (more wordPart)))

def digit : Pattern := within [('0', '9')]

def digitsRest : Pattern := many (within [('A', 'Z'), ('a', 'z'), ('0', '9'), ('_', '_')])

def fractionRest : Pattern := optional (sequence (spelled ".") (sequence digit digitsRest))

def percentRest : Pattern := optional (spelled "%")

def numberRest : Pattern := sequence digitsRest (sequence fractionRest percentRest)

/-- Part of a block comment: stars stand in it only in front of something other than a slash. -/
def commentPart : Pattern :=
  choice (except ['*']) (sequence (more (spelled "*")) (except ['*', '/']))

def commentRest : Pattern :=
  sequence (many commentPart) (sequence (more (spelled "*")) (spelled "/"))

end Pattern

def Kind.signs : Kind → List String
  | .openParen => ["("]
  | .closeParen => [")"]
  | .openBracket => ["["]
  | .closeBracket => ["]"]
  | .openBrace => ["\x7b"]
  | .closeBrace => ["\x7d"]
  | .lessThan => ["<"]
  | .greaterThan => [">"]
  | .colon => [":"]
  | .doubleColon => ["::"]
  | .semicolon => [";"]
  | .comma => [","]
  | .dot => ["."]
  | .ellipsis => ["..."]
  | .assign => ["="]
  | .fatArrow => ["=>"]
  | .thinArrow => ["->"]
  | .star => ["*"]
  | .ampersand => ["&"]
  | .question => ["?"]
  | .pipe => ["|"]
  | .operator => ["+", "-", "/", "%", "!", "^", "~", "==", "===", "!=", "!==", "<=", ">=", "&&",
      "||", "??", "++", "--", "+=", "-=", "*=", "/="]
  | _ => []

open Pattern in
def Kind.pattern : Kind → Pattern
  | .whitespace => more space
  | .lineComment => sequence (spelled "//") (many (except ['\n']))
  | .blockComment => sequence (spelled "/*") commentRest
  | .identifier => sequence wordStart wordRest
  | .number => sequence digit numberRest
  | .string => choice (quoted '\x22' ['\n']) (choice (quoted '\x27' ['\n']) (quoted '\x60' []))
  | .hash => sequence (spelled "#")
      (many (within [('A', 'Z'), ('a', 'z'), ('0', '9'), ('_', '_'), ('-', '-')]))
  | kind => anyOf kind.signs

namespace Pattern

@[simp] theorem in_ranges_nil (c : Char) : inRanges [] c = false := rfl

@[simp] theorem in_ranges_letters (ranges : List (Char × Char)) (c : Char) :
    inRanges (('A', 'Z') :: ('a', 'z') :: ranges) c = (c.isAlpha || inRanges ranges c) := by
  have upper : c.isUpper = ('A' ≤ c && c ≤ 'Z') := Bool.decide_and ('A' ≤ c) (c ≤ 'Z')
  have lower : c.isLower = ('a' ≤ c && c ≤ 'z') := rfl
  have letters : c.isAlpha = (c.isUpper || c.isLower) := rfl
  rw [letters, upper, lower, Bool.or_assoc]
  rfl

@[simp] theorem in_ranges_digits (ranges : List (Char × Char)) (c : Char) :
    inRanges (('0', '9') :: ranges) c = (c.isDigit || inRanges ranges c) := by
  simp [inRanges, Char.isDigit, Char.le_def]

@[simp] theorem in_ranges_single (ranges : List (Char × Char)) (c d : Char) :
    inRanges ((d, d) :: ranges) c = (c == d || inRanges ranges c) := by
  have same : (decide (d ≤ c) && decide (c ≤ d)) = (c == d) := by
    rw [Bool.eq_iff_iff]
    simp only [Bool.and_eq_true, decide_eq_true_eq, beq_iff_eq]
    constructor
    · rintro ⟨lower, upper⟩
      exact Char.le_antisymm upper lower
    · rintro rfl
      exact ⟨Char.le_refl c, Char.le_refl c⟩
  simp [inRanges, same]

theorem matches_append {first second : Pattern} {front back : List Char}
    (left : first.Matches front) (right : second.Matches back) :
    (sequence first second).Matches (front ++ back) :=
  ⟨front, back, rfl, left, right⟩

theorem matches_cons {accepts : Char → Bool} {second : Pattern} {c : Char} {back : List Char}
    (accepted : accepts c = true) (right : second.Matches back) :
    (sequence (one accepts) second).Matches (c :: back) :=
  ⟨[c], back, rfl, ⟨c, accepted, rfl⟩, right⟩

theorem matches_many_nil (inner : Pattern) : (many inner).Matches [] :=
  ⟨[], rfl, by simp⟩

theorem matches_many_append {inner : Pattern} {part text : List Char} (first : inner.Matches part)
    (rest : (many inner).Matches text) : (many inner).Matches (part ++ text) := by
  obtain ⟨parts, rfl, each⟩ := rest
  refine ⟨part :: parts, rfl, ?_⟩
  intro other member
  rcases List.mem_cons.1 member with rfl | later
  · exact first
  · exact each other later

/-- What holds of nothing and survives one more part in front holds of every repetition. -/
theorem many_induction {inner : Pattern} {motive : List Char → Prop} (nil : motive [])
    (append : ∀ part text, inner.Matches part → motive text → motive (part ++ text))
    {text : List Char} (repeated : (many inner).Matches text) : motive text := by
  obtain ⟨parts, rfl, each⟩ := repeated
  induction parts with
  | nil => exact nil
  | cons part parts induction =>
      rw [List.flatten_cons]
      apply append
      · exact each part (by simp)
      · apply induction
        intro other member
        exact each other (by simp [member])

theorem matches_many_one {accepts : Char → Bool} {text : List Char} :
    (many (one accepts)).Matches text ↔ ∀ c ∈ text, accepts c = true := by
  constructor
  · intro repeated
    refine many_induction (motive := fun text => ∀ c ∈ text, accepts c = true) ?_ ?_ repeated
    · simp
    · rintro _ text ⟨c, accepted, rfl⟩ induction
      simpa [accepted] using induction
  · intro accepted
    induction text with
    | nil => exact matches_many_nil _
    | cons c text induction =>
        have first : (one accepts).Matches [c] := ⟨c, accepted c (by simp), rfl⟩
        apply matches_many_append first
        apply induction
        intro d member
        exact accepted d (by simp [member])

theorem matches_any_of {texts : List String} {text : List Char} :
    (anyOf texts).Matches text ↔ ∃ spelling ∈ texts, text = spelling.toList := by
  induction texts with
  | nil => simp [anyOf, Matches]
  | cons spelling texts induction => simp [anyOf, Matches, induction]

end Pattern

/-- The reader takes the longest front that the pattern describes, and nothing where there is
none. -/
structure Reads (pattern : Pattern) (reader : List Char → Option Nat) : Prop where
  sound : ∀ cs {count}, reader cs = some count →
    ∃ text rest, cs = text ++ rest ∧ count = text.length ∧ pattern.Matches text
  longest : ∀ {text}, pattern.Matches text → ∀ rest,
    ∃ count, reader (text ++ rest) = some count ∧ text.length ≤ count

theorem run_append {condition : Char → Bool} {front : List Char}
    (all : ∀ c ∈ front, condition c = true) (back : List Char) :
    run condition (front ++ back) = front.length + run condition back := by
  simp [run, List.takeWhile_append_of_pos all]

theorem reads_run {accepts condition : Char → Bool} (same : ∀ c, accepts c = condition c) :
    Reads (.many (.one accepts)) fun cs => some (run condition cs) := by
  obtain rfl : accepts = condition := funext same
  constructor
  · intro cs count found
    obtain rfl := Option.some.inj found
    refine ⟨cs.takeWhile accepts, cs.dropWhile accepts, ?_, rfl, Pattern.matches_many_one.2 ?_⟩
    · exact List.takeWhile_append_dropWhile.symm
    · intro c member
      exact List.mem_takeWhile_imp member
  · intro text described rest
    refine ⟨_, rfl, ?_⟩
    rw [run_append (Pattern.matches_many_one.1 described)]
    omega

theorem in_ranges_word_char (c : Char) :
    Pattern.inRanges [('A', 'Z'), ('a', 'z'), ('0', '9'), ('_', '_'), ('$', '$'), ('\\', '\\')] c =
      isWordChar c := by
  simp [isWordChar, Char.isAlphanum, Bool.or_assoc]

theorem word_chars_of_matches {text : List Char}
    (described : (Pattern.many Pattern.wordPart).Matches text) :
    ∀ c ∈ text, isWordChar c = true := by
  intro c member
  rw [← in_ranges_word_char]
  exact Pattern.matches_many_one.1 described c member

theorem word_tail_cons {c : Char} (good : isWordChar c = true) (cs : List Char) :
    wordTail (c :: cs) = wordTail cs + 1 := by
  have noHyphen : c ≠ '-' := by
    rintro rfl
    exact absurd good (by decide)
  rw [wordTail.eq_3 c cs fun _ _ hyphen _ => noHyphen hyphen, if_pos good]

theorem word_tail_append {front : List Char} (all : ∀ c ∈ front, isWordChar c = true)
    (back : List Char) : wordTail (front ++ back) = front.length + wordTail back := by
  induction front with
  | nil => simp
  | cons c front induction =>
      have rest := induction (by intro d member; exact all d (by simp [member]))
      rw [List.cons_append, word_tail_cons (all c (by simp)), rest, List.length_cons]
      omega

theorem word_tail_parts {text : List Char}
    (parts : (Pattern.many (.sequence (.spelled "-") (.more Pattern.wordPart))).Matches text)
    (rest : List Char) : wordTail (text ++ rest) = text.length + wordTail rest := by
  refine Pattern.many_induction
    (motive := fun text => wordTail (text ++ rest) = text.length + wordTail rest) ?_ ?_ parts
  · simp
  · rintro _ text ⟨_, _, rfl, rfl, _, others, rfl, ⟨c, good, rfl⟩, plain⟩ induction
    rw [in_ranges_word_char] at good
    have rests := word_tail_append (word_chars_of_matches plain) (text ++ rest)
    have shape : "-".toList ++ ([c] ++ others) ++ text ++ rest =
        '-' :: c :: (others ++ (text ++ rest)) := by simp
    rw [shape, wordTail, if_pos good, rests, induction]
    simp only [List.length_append, List.length_cons, List.length_nil, String.reduceToList]
    omega

theorem word_rest_nil : Pattern.wordRest.Matches [] :=
  ⟨[], [], rfl, Pattern.matches_many_nil _, Pattern.matches_many_nil _⟩

theorem word_rest_cons {c : Char} {text : List Char} (good : isWordChar c = true)
    (rest : Pattern.wordRest.Matches text) : Pattern.wordRest.Matches (c :: text) := by
  obtain ⟨front, back, rfl, plain, parts⟩ := rest
  rw [← in_ranges_word_char] at good
  have first : Pattern.wordPart.Matches [c] := ⟨c, good, rfl⟩
  exact ⟨c :: front, back, rfl, Pattern.matches_many_append first plain, parts⟩

theorem word_rest_hyphen {c : Char} {text : List Char} (good : isWordChar c = true)
    (rest : Pattern.wordRest.Matches text) : Pattern.wordRest.Matches ('-' :: c :: text) := by
  obtain ⟨front, back, rfl, plain, parts⟩ := rest
  rw [← in_ranges_word_char] at good
  have part : (Pattern.sequence (.spelled "-") (.more Pattern.wordPart)).Matches
      ('-' :: c :: front) :=
    ⟨['-'], c :: front, rfl, rfl, Pattern.matches_cons good plain⟩
  exact ⟨[], '-' :: c :: (front ++ back), rfl, Pattern.matches_many_nil _,
    Pattern.matches_many_append part parts⟩

theorem reads_word_tail : Reads Pattern.wordRest fun cs => some (wordTail cs) := by
  constructor
  · intro cs count found
    obtain rfl := Option.some.inj found
    fun_induction wordTail cs with
    | case1 => exact ⟨[], [], rfl, rfl, word_rest_nil⟩
    | case2 c cs good induction =>
        obtain ⟨text, rest, rfl, count, described⟩ := induction rfl
        exact ⟨'-' :: c :: text, rest, rfl, by simp [count], word_rest_hyphen good described⟩
    | case3 c cs _ => exact ⟨[], '-' :: c :: cs, rfl, rfl, word_rest_nil⟩
    | case4 c cs _ good induction =>
        obtain ⟨text, rest, rfl, count, described⟩ := induction rfl
        exact ⟨c :: text, rest, rfl, by simp [count], word_rest_cons good described⟩
    | case5 c cs _ _ => exact ⟨[], c :: cs, rfl, rfl, word_rest_nil⟩
  · rintro _ ⟨front, back, rfl, plain, parts⟩ rest
    refine ⟨_, rfl, ?_⟩
    rw [List.append_assoc, word_tail_append (word_chars_of_matches plain), word_tail_parts parts,
      List.length_append]
    omega

theorem in_ranges_number_char (c : Char) :
    Pattern.inRanges [('A', 'Z'), ('a', 'z'), ('0', '9'), ('_', '_')] c = isNumberChar c := by
  simp [isNumberChar, Char.isAlphanum, Bool.or_assoc]

theorem reads_digits : Reads Pattern.digitsRest fun cs => some (run isNumberChar cs) :=
  reads_run in_ranges_number_char

theorem number_chars_of_matches {text : List Char} (described : Pattern.digitsRest.Matches text) :
    ∀ c ∈ text, isNumberChar c = true := by
  intro c member
  rw [← in_ranges_number_char]
  exact Pattern.matches_many_one.1 described c member

theorem fraction_sound (cs : List Char) : ∃ text rest, cs = text ++ rest ∧
    fraction cs = text.length ∧ Pattern.fractionRest.Matches text := by
  unfold fraction
  split
  · next c cs =>
      split
      · next isDigit =>
          obtain ⟨text, rest, rfl, count, described⟩ := reads_digits.sound cs rfl
          refine ⟨'.' :: c :: text, rest, rfl, by simp [count], .inl ?_⟩
          refine ⟨['.'], c :: text, rfl, rfl, Pattern.matches_cons ?_ described⟩
          simpa using isDigit
      · exact ⟨[], _, rfl, rfl, .inr rfl⟩
  · exact ⟨[], _, rfl, rfl, .inr rfl⟩

theorem percent_sound (cs : List Char) : ∃ text rest, cs = text ++ rest ∧
    percent cs = text.length ∧ Pattern.percentRest.Matches text := by
  unfold percent
  split
  · next cs => exact ⟨['%'], cs, rfl, rfl, .inl rfl⟩
  · exact ⟨[], _, rfl, rfl, .inr rfl⟩

theorem fraction_append {d : Char} {others : List Char} (isDigit : d.isDigit = true)
    (all : ∀ c ∈ others, isNumberChar c = true) (back : List Char) :
    fraction ('.' :: d :: (others ++ back)) =
      others.length + run isNumberChar back + 2 := by
  simp [fraction, isDigit, run_append all]

/-- Where the digits stop, only a fraction and a percent sign can follow. -/
theorem number_tail_append {front back : List Char} (all : ∀ c ∈ front, isNumberChar c = true)
    (stops : run isNumberChar back = 0) :
    numberTail (front ++ back) =
      front.length + (fraction back + percent (back.drop (fraction back))) := by
  simp only [numberTail, run_append all, stops, Nat.add_zero, List.drop_left,
    List.drop_length_add_append, Nat.add_assoc]

theorem reads_number_tail : Reads Pattern.numberRest fun cs => some (numberTail cs) := by
  constructor
  · intro cs count found
    obtain rfl := Option.some.inj found
    obtain ⟨whole, back, rfl, wholeCount, digits⟩ := reads_digits.sound cs rfl
    obtain ⟨decimal, back, rfl, decimalCount, fractional⟩ := fraction_sound back
    obtain ⟨last, rest, rfl, lastCount, final⟩ := percent_sound back
    refine ⟨whole ++ (decimal ++ last), rest, by simp, ?_, ?_⟩
    · simp only [numberTail, wholeCount, decimalCount, lastCount, List.drop_left,
        List.drop_length_add_append, List.length_append, Nat.add_assoc]
    · exact Pattern.matches_append digits (Pattern.matches_append fractional final)
  · rintro _ ⟨whole, _, rfl, digits, decimal, last, rfl, fractional, final⟩ rest
    refine ⟨_, rfl, ?_⟩
    have all := number_chars_of_matches digits
    have sign : last = ['%'] ∨ last = [] := final
    rcases fractional with ⟨_, _, rfl, rfl, _, others, rfl, ⟨d, isDigit, rfl⟩, more⟩ | rfl
    · have decimals := fraction_append (by simpa using isDigit) (number_chars_of_matches more)
        (last ++ rest)
      have stops : run isNumberChar ('.' :: d :: (others ++ (last ++ rest))) = 0 := by
        simp [run, isNumberChar]
      have shape : whole ++ ((".".toList ++ ([d] ++ others)) ++ last) ++ rest =
          whole ++ '.' :: d :: (others ++ (last ++ rest)) := by simp
      rw [shape, number_tail_append all stops, decimals]
      simp only [List.length_append, List.length_cons, List.length_nil, String.reduceToList]
      rcases sign with rfl | rfl
      · have ends : run isNumberChar ('%' :: rest) = 0 := by simp [run, isNumberChar]
        have left : List.drop (others.length + 2) ('.' :: d :: (others ++ '%' :: rest)) =
            '%' :: rest := by simp
        rw [List.singleton_append, ends, Nat.add_zero, left, percent, List.length_singleton]
        omega
      · rw [List.length_nil]
        omega
    · rcases sign with rfl | rfl
      · have stops : run isNumberChar ('%' :: rest) = 0 := by simp [run, isNumberChar]
        have total := number_tail_append all stops
        simp [total, fraction, percent]
      · have shape : whole ++ ("".toList ++ []) ++ rest = whole ++ rest := by simp
        rw [shape, numberTail, run_append all]
        simp only [List.length_append, List.length_nil, String.reduceToList]
        omega

theorem closing_comment_cons {c : Char} {cs : List Char} {count : Nat}
    (inside : ¬ (c = '*' ∧ cs.head? = some '/')) (closes : closingComment? cs = some count) :
    closingComment? (c :: cs) = some (count + 1) := by
  rw [closingComment?.eq_3, closes, Option.map_some]
  rintro rest rfl rfl
  exact inside ⟨rfl, rfl⟩

theorem closing_comment_stars (stars : Nat) {c : Char} {cs : List Char} {count : Nat}
    (noSlash : c ≠ '/') (closes : closingComment? (c :: cs) = some count) :
    closingComment? (List.replicate stars '*' ++ c :: cs) = some (count + stars) := by
  induction stars with
  | zero => simpa using closes
  | succ stars induction =>
      rw [List.replicate_succ, List.cons_append]
      apply closing_comment_cons _ induction
      rintro ⟨_, slash⟩
      cases stars <;> simp [List.replicate_succ, noSlash] at slash

theorem star_matches : (Pattern.more (.spelled "*")).Matches ['*'] :=
  ⟨['*'], [], rfl, rfl, Pattern.matches_many_nil _⟩

theorem star_cons_matches {text : List Char}
    (described : (Pattern.more (.spelled "*")).Matches text) :
    (Pattern.more (.spelled "*")).Matches ('*' :: text) := by
  obtain ⟨_, back, rfl, rfl, repeated⟩ := described
  have first : (Pattern.spelled "*").Matches ['*'] := rfl
  exact ⟨['*'], '*' :: back, rfl, rfl, Pattern.matches_many_append first repeated⟩

theorem stars_of_matches {text : List Char}
    (described : (Pattern.more (.spelled "*")).Matches text) :
    ∃ stars, text = List.replicate (stars + 1) '*' := by
  obtain ⟨_, back, rfl, rfl, repeated⟩ := described
  have others : ∃ stars, back = List.replicate stars '*' := by
    refine Pattern.many_induction
      (motive := fun back => ∃ stars, back = List.replicate stars '*') ?_ ?_ repeated
    · exact ⟨0, rfl⟩
    · rintro _ _ rfl ⟨stars, rfl⟩
      exact ⟨stars + 1, rfl⟩
  obtain ⟨stars, rfl⟩ := others
  exact ⟨stars, rfl⟩

theorem closing_comment_parts {text rest : List Char} {count : Nat}
    (described : (Pattern.many Pattern.commentPart).Matches text)
    (closes : closingComment? rest = some count) :
    closingComment? (text ++ rest) = some (count + text.length) := by
  refine Pattern.many_induction
    (motive := fun text => closingComment? (text ++ rest) = some (count + text.length))
    ?_ ?_ described
  · simpa using closes
  · intro part text first induction
    rcases first with ⟨c, other, rfl⟩ | ⟨_, _, rfl, many, c, other, rfl⟩
    · have noStar : c ≠ '*' := by simpa using other
      have passed := closing_comment_cons (fun both => noStar both.1) induction
      simpa [Nat.add_assoc] using passed
    · obtain ⟨stars, rfl⟩ := stars_of_matches many
      have neither : c ≠ '*' ∧ c ≠ '/' := by simpa using other
      have last := closing_comment_cons (fun both => neither.1 both.1) induction
      have passed := closing_comment_stars (stars + 1) neither.2 last
      have shape : List.replicate (stars + 1) '*' ++ [c] ++ text ++ rest =
          List.replicate (stars + 1) '*' ++ c :: (text ++ rest) := by simp
      rw [shape, passed, Option.some.injEq]
      simp only [List.length_append, List.length_replicate, List.length_cons, List.length_nil]
      omega

/-- Inside a comment a character goes in front of what follows it; a star joins the part it stands
in front of. -/
theorem comment_rest_cons {c : Char} {text : List Char}
    (described : Pattern.commentRest.Matches text)
    (inside : ¬ (c = '*' ∧ text.head? = some '/')) : Pattern.commentRest.Matches (c :: text) := by
  obtain ⟨_, ending, rfl, ⟨parts, rfl, each⟩, ends⟩ := described
  by_cases star : c = '*'
  · subst star
    cases parts with
    | nil =>
        obtain ⟨stars, slash, rfl, many, closes⟩ := ends
        exact ⟨[], '*' :: (stars ++ slash), rfl, Pattern.matches_many_nil _,
          '*' :: stars, slash, rfl, star_cons_matches many, closes⟩
    | cons part parts =>
        have joined : Pattern.commentPart.Matches ('*' :: part) := by
          rcases each part (by simp) with ⟨d, other, rfl⟩ | ⟨stars, last, rfl, many, other⟩
          · have noStar : d ≠ '*' := by simpa using other
            have noSlash : d ≠ '/' := by simpa using inside
            exact .inr ⟨['*'], [d], rfl, star_matches, d, by simp [noStar, noSlash], rfl⟩
          · exact .inr ⟨'*' :: stars, last, rfl, star_cons_matches many, other⟩
        have others : (Pattern.many Pattern.commentPart).Matches parts.flatten :=
          ⟨parts, rfl, fun other member => each other (by simp [member])⟩
        have all := Pattern.matches_many_append joined others
        exact ⟨'*' :: (part ++ parts.flatten), ending, by simp, all, ends⟩
  · have first : Pattern.commentPart.Matches [c] := .inl ⟨c, by simp [star], rfl⟩
    have all := Pattern.matches_many_append first ⟨parts, rfl, each⟩
    exact ⟨c :: parts.flatten, ending, rfl, all, ends⟩

theorem reads_closing_comment : Reads Pattern.commentRest closingComment? := by
  constructor
  · intro cs count found
    fun_induction closingComment? cs generalizing count with
    | case1 => simp at found
    | case2 cs =>
        obtain rfl := Option.some.inj found
        exact ⟨['*', '/'], cs, rfl, rfl, [], ['*', '/'], rfl, Pattern.matches_many_nil _,
          ['*'], ['/'], rfl, star_matches, rfl⟩
    | case3 c cs outside induction =>
        obtain ⟨_, closes, rfl⟩ := Option.map_eq_some_iff.1 found
        obtain ⟨text, rest, rfl, rfl, described⟩ := induction closes
        refine ⟨c :: text, rest, rfl, rfl, comment_rest_cons described ?_⟩
        rintro ⟨star, slash⟩
        obtain ⟨back, rfl⟩ := List.head?_eq_some_iff.1 slash
        exact outside (back ++ rest) star rfl
  · rintro _ ⟨parts, _, rfl, inner, _, _, rfl, many, rfl⟩ rest
    obtain ⟨stars, rfl⟩ := stars_of_matches many
    have last : closingComment? ('*' :: '/' :: rest) = some 2 := rfl
    have closes := closing_comment_stars stars (by decide) last
    have shape : parts ++ (List.replicate (stars + 1) '*' ++ "/".toList) ++ rest =
        parts ++ (List.replicate stars '*' ++ '*' :: '/' :: rest) := by
      simp [List.replicate_succ']
    refine ⟨_, shape ▸ closing_comment_parts inner closes, ?_⟩
    simp only [List.length_append, List.length_replicate, List.length_cons, List.length_nil,
      String.reduceToList]
    omega

theorem closing_quote_plain {quote c : Char} {cs : List Char} {count : Nat} (other : c ≠ quote)
    (plain : c ≠ '\\') (goesOn : ¬ (c = '\n' ∧ quote ≠ '\x60'))
    (closes : closingQuote? quote cs = some count) :
    closingQuote? quote (c :: cs) = some (count + 1) := by
  cases cs with
  | nil => simp [closingQuote?] at closes
  | cons d cs =>
      rw [closingQuote?, if_neg other, if_neg plain, if_neg goesOn, closes, Option.map_some]

theorem closing_quote_escaped {quote d : Char} {cs : List Char} {count : Nat} (sign : quote ≠ '\\')
    (other : d ≠ '\n') (closes : closingQuote? quote cs = some count) :
    closingQuote? quote ('\\' :: d :: cs) = some (count + 2) := by
  rw [closingQuote?, if_neg sign.symm, if_pos rfl, if_neg other, closes, Option.map_some]

theorem closing_quote_self (quote : Char) (cs : List Char) :
    closingQuote? quote (quote :: cs) = some 1 := by
  cases cs <;> simp [closingQuote?]

theorem until_quote_append {quote : Char} {others part text : List Char}
    (first : (Pattern.quotedPart quote others).Matches part)
    (described : (Pattern.untilQuote quote others).Matches text) :
    (Pattern.untilQuote quote others).Matches (part ++ text) := by
  obtain ⟨front, back, rfl, many, closes⟩ := described
  exact ⟨part ++ front, back, by simp, Pattern.matches_many_append first many, closes⟩

section

variable {quote : Char} {others : List Char} (sign : quote ≠ '\\')
  (breaks : ∀ c, c ∈ others ↔ c = '\n' ∧ quote ≠ '\x60')
include sign breaks

theorem closing_quote_parts {text rest : List Char} {count : Nat}
    (described : (Pattern.many (.quotedPart quote others)).Matches text)
    (closes : closingQuote? quote rest = some count) :
    closingQuote? quote (text ++ rest) = some (count + text.length) := by
  refine Pattern.many_induction
    (motive := fun text => closingQuote? quote (text ++ rest) = some (count + text.length))
    ?_ ?_ described
  · simpa using closes
  · intro part text first induction
    rcases first with ⟨c, other, rfl⟩ | ⟨_, _, rfl, rfl, d, other, rfl⟩
    · have outside : c ≠ quote ∧ c ≠ '\\' ∧ ¬ (c = '\n' ∧ quote ≠ '\x60') := by
        simpa [← breaks] using other
      have passed := closing_quote_plain outside.1 outside.2.1 outside.2.2 induction
      simpa [Nat.add_assoc] using passed
    · have passed := closing_quote_escaped sign (by simpa using other) induction
      simpa [Nat.add_assoc] using passed

theorem reads_closing_quote : Reads (.untilQuote quote others) (closingQuote? quote) := by
  have closed : (Pattern.untilQuote quote others).Matches [quote] :=
    ⟨[], [quote], rfl, Pattern.matches_many_nil _, quote, by simp, rfl⟩
  constructor
  · intro cs count found
    fun_induction closingQuote? quote cs generalizing count with
    | case1 => simp at found
    | case2 =>
        obtain rfl := Option.some.inj found
        exact ⟨[quote], [], rfl, rfl, closed⟩
    | case3 => simp at found
    | case4 d cs =>
        obtain rfl := Option.some.inj found
        exact ⟨[quote], d :: cs, rfl, rfl, closed⟩
    | case5 => simp at found
    | case6 d cs other _ induction =>
        obtain ⟨_, closes, rfl⟩ := Option.map_eq_some_iff.1 found
        obtain ⟨text, rest, rfl, rfl, described⟩ := induction closes
        have first : (Pattern.quotedPart quote others).Matches ['\\', d] :=
          .inr ⟨['\\'], [d], rfl, rfl, d, by simp [other], rfl⟩
        exact ⟨'\\' :: d :: text, rest, rfl, rfl, until_quote_append first described⟩
    | case7 => simp at found
    | case8 c d cs other plain goesOn induction =>
        obtain ⟨_, closes, rfl⟩ := Option.map_eq_some_iff.1 found
        obtain ⟨text, rest, same, rfl, described⟩ := induction closes
        have first : (Pattern.quotedPart quote others).Matches [c] :=
          .inl ⟨c, by simp [other, plain, breaks, goesOn], rfl⟩
        exact ⟨c :: text, rest, by simp [same], rfl, until_quote_append first described⟩
  · rintro _ ⟨text, _, rfl, many, c, same, rfl⟩ rest
    obtain rfl : c = quote := by simpa using same
    have whole := closing_quote_parts sign breaks many (closing_quote_self c rest)
    rw [List.append_assoc]
    refine ⟨_, whole, ?_⟩
    rw [List.length_append, List.length_singleton]
    omega

end

end DocComment.Token
