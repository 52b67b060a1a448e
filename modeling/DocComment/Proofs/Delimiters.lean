import DocComment.Proofs.Spacing
import Mathlib.Order.Bounds.Basic

/-!
Where comments and quoted texts end. The readers of both walk over the text character by character;
here their ends are said by place: the first star and slash, the first line feed, the first quote
that is not escaped. The main statement says at every boundary of a scan which token follows, and
that the scan fails at a quote that nothing closes.
-/

namespace DocComment.Token

/-- With some places passed over, the first of the others is as far on. -/
theorem least_shifted {all later : Set Nat} {passed : Nat} (beyond : ∀ place ∈ all, passed ≤ place)
    (shifted : ∀ place, place + passed ∈ all ↔ place ∈ later) (place : Nat) :
    IsLeast all (place + passed) ↔ IsLeast later place := by
  constructor
  · rintro ⟨member, least⟩
    refine ⟨(shifted place).1 member, ?_⟩
    intro other found
    have bound := least ((shifted other).2 found)
    omega
  · rintro ⟨member, least⟩
    refine ⟨(shifted place).2 member, ?_⟩
    intro other found
    have enough := beyond other found
    obtain ⟨rest, rfl⟩ := Nat.exists_eq_add_of_le' enough
    have bound := least ((shifted rest).1 found)
    omega

theorem least_of_none_before {all : Set Nat} {place : Nat} (member : place ∈ all)
    (none : ∀ before < place, before ∉ all) : IsLeast all place := by
  refine ⟨member, ?_⟩
  intro other found
  by_contra early
  exact none other (by omega) found

/-- The first of some places, or nothing where there are none. -/
def IsFirst (all : Set Nat) : Option Nat → Prop
  | none => all = ∅
  | some place => IsLeast all place

namespace IsFirst

variable {all later : Set Nat} {found : Option Nat}

theorem shifted {passed : Nat} (beyond : ∀ place ∈ all, passed ≤ place)
    (same : ∀ place, place + passed ∈ all ↔ place ∈ later) (first : IsFirst later found) :
    IsFirst all (found.map (· + passed)) := by
  cases found with
  | some place => exact (least_shifted beyond same place).2 first
  | none =>
      refine Set.eq_empty_iff_forall_notMem.2 ?_
      intro place member
      obtain ⟨inner, rfl⟩ := Nat.exists_eq_add_of_le' (beyond place member)
      have inside := (same inner).1 member
      rw [show later = ∅ from first] at inside
      exact inside

theorem eq_some (first : IsFirst all found) {place : Nat} (least : IsLeast all place) :
    found = some place := by
  cases found with
  | some other => rw [least.unique first]
  | none =>
      have member := least.1
      rw [show all = ∅ from first] at member
      exact absurd member (Set.notMem_empty place)

theorem eq_none (first : IsFirst all found) (empty : all = ∅) : found = none := by
  cases found with
  | none => rfl
  | some place =>
      have member := first.1
      rw [empty] at member
      exact absurd member (Set.notMem_empty place)

end IsFirst

theorem source_text_append (before after : List Token) :
    sourceText (before ++ after) = sourceText before ++ sourceText after := by
  induction before with
  | nil => simp [sourceText]
  | cons token before induction => simp [sourceText, induction, String.append_assoc]

/-- The next longest match is the next token. -/
theorem Munches.concat {start : Nat} {input left : List Char} {tokens : List Token} {kind : Kind}
    {text : String} (munches : Munches start input tokens (text.toList ++ left))
    (cut : Longest kind text.toList left) :
    Munches start input
      (tokens ++ [startingAt (start + (sourceText tokens).utf8ByteSize) kind text]) left := by
  induction tokens generalizing start input with
  | nil =>
      obtain rfl : input = text.toList ++ left := munches.whole
      exact Munches.cons cut (Munches.nil _ left)
  | cons token tokens induction =>
      obtain ⟨placed, behind, rfl, first, others⟩ := munches.uncons
      have more := Munches.cons first (induction others)
      rw [← placed] at more
      rw [sourceText, String.utf8ByteSize_append, ← Nat.add_assoc]
      exact more

/-- Behind the tokens, scanning the line cuts off so many characters as the next token. -/
def Cuts (line : String) (tokens : List Token) (rest : List Char) (kind : Kind) (count : Nat) :
    Prop :=
  let token :=
    startingAt (sourceText tokens).utf8ByteSize kind (String.ofList (rest.take count))
  Munches 0 line.toList (tokens ++ [token]) (rest.drop count) ∧
    scan line = (scanFrom token.span.stop (rest.drop count)).map (tokens ++ [token] ++ ·)

theorem Munches.cuts {line : String} {tokens : List Token} {rest : List Char} {kind : Kind}
    {count : Nat} (munches : Munches 0 line.toList tokens rest)
    (found : lexeme? rest = some (kind, count)) : Cuts line tokens rest kind count := by
  obtain ⟨text, left, rfl, rfl, cut⟩ := longest_of_lexeme found
  rw [← @String.toList_ofList text] at munches cut
  have next := munches.concat cut
  rw [Nat.zero_add] at next
  have scanned := next.scan_from
  rw [source_text_append, String.utf8ByteSize_append, Nat.zero_add] at scanned
  simp only [Cuts, List.take_left, List.drop_left]
  refine ⟨next, ?_⟩
  rw [scan, scanned]
  simp [startingAt, sourceText]

def closingPairs (text : List Char) : Set Nat := {place | ['*', '/'] <+: text.drop place}

def commentEnds (text : List Char) : Set Nat := {place | 2 ≤ place ∧ place ∈ closingPairs text}

instance (text : List Char) (place : Nat) : Decidable (place ∈ commentEnds text) :=
  inferInstanceAs (Decidable (_ ∧ ['*', '/'] <+: text.drop place))

def lineFeeds (text : List Char) : Set Nat := {place | text[place]? = some '\n'}

/-- The reader of comments goes past the first closing pair. -/
theorem closing_comment_first (cs : List Char) :
    ∃ found, IsFirst (closingPairs cs) found ∧ closingComment? cs = found.map (· + 2) := by
  fun_induction closingComment? cs with
  | case1 =>
      refine ⟨none, Set.eq_empty_iff_forall_notMem.2 ?_, rfl⟩
      simp [closingPairs]
  | case2 cs => exact ⟨some 0, ⟨⟨cs, rfl⟩, fun place _ => Nat.zero_le place⟩, rfl⟩
  | case3 c cs outside induction =>
      obtain ⟨found, first, closes⟩ := induction
      have beyond : ∀ place ∈ closingPairs (c :: cs), 1 ≤ place := by
        rintro place ⟨rest, pair⟩
        cases place with
        | zero =>
            obtain ⟨rfl, rfl⟩ := List.cons.inj pair
            exact absurd rfl (outside rest rfl)
        | succ place => omega
      refine ⟨found.map (· + 1), first.shifted beyond fun _ => Iff.rfl, ?_⟩
      rw [closes]
      cases found <;> rfl

theorem lexeme_block_comment (body : List Char) :
    (∀ place, IsLeast (commentEnds ('/' :: '*' :: body)) place →
        lexeme? ('/' :: '*' :: body) = some (.blockComment, place + 2)) ∧
      (commentEnds ('/' :: '*' :: body) = ∅ →
        lexeme? ('/' :: '*' :: body) = some (.operator, 1)) := by
  obtain ⟨found, inside, closes⟩ := closing_comment_first body
  have first : IsFirst (commentEnds ('/' :: '*' :: body)) (found.map (· + 2)) := by
    refine inside.shifted (fun _ member => member.1) fun place => ?_
    exact ⟨fun member => member.2, fun member => ⟨by omega, member⟩⟩
  have reads : lexeme? ('/' :: '*' :: body) =
      ((closingComment? body).map fun count => (.blockComment, count + 2)).or
        (some (.operator, 1)) := rfl
  rw [reads, closes]
  constructor
  · intro place least
    rw [first.eq_some least]
    rfl
  · intro empty
    rw [first.eq_none empty]
    rfl

theorem run_line_feed (cs : List Char) :
    ∃ found, IsFirst (lineFeeds cs) found ∧ run (· != '\n') cs = found.getD cs.length := by
  induction cs with
  | nil =>
      refine ⟨none, Set.eq_empty_iff_forall_notMem.2 ?_, rfl⟩
      simp [lineFeeds]
  | cons c cs induction =>
      by_cases feed : c = '\n'
      · subst feed
        exact ⟨some 0, ⟨rfl, fun place _ => Nat.zero_le place⟩, rfl⟩
      · obtain ⟨found, first, length⟩ := induction
        have beyond : ∀ place ∈ lineFeeds (c :: cs), 1 ≤ place := by
          intro place member
          cases place with
          | zero => exact absurd (Option.some.inj member) feed
          | succ place => omega
        have longer : run (· != '\n') (c :: cs) = run (· != '\n') cs + 1 := by
          simp [run, feed]
        refine ⟨found.map (· + 1), first.shifted beyond fun _ => Iff.rfl, ?_⟩
        rw [longer, length]
        cases found <;> rfl

theorem lexeme_line_comment (body : List Char) :
    (∀ place, IsLeast (lineFeeds ('/' :: '/' :: body)) place →
        lexeme? ('/' :: '/' :: body) = some (.lineComment, place)) ∧
      (lineFeeds ('/' :: '/' :: body) = ∅ →
        lexeme? ('/' :: '/' :: body) = some (.lineComment, ('/' :: '/' :: body).length)) := by
  obtain ⟨found, first, length⟩ := run_line_feed ('/' :: '/' :: body)
  have reads : lexeme? ('/' :: '/' :: body) =
      some (.lineComment, run (· != '\n') ('/' :: '/' :: body)) := rfl
  rw [reads, length]
  constructor
  · intro place least
    rw [first.eq_some least]
    rfl
  · intro empty
    rw [first.eq_none empty]
    rfl

/-- A run of backslashes ends in front of the place, and their number is odd. -/
def Escaped (text : List Char) (place : Nat) : Prop :=
  run (· == '\\') (text.take place).reverse % 2 = 1

instance (text : List Char) (place : Nat) : Decidable (Escaped text place) :=
  inferInstanceAs (Decidable (_ = _))

def freeQuotes (quote : Char) (text : List Char) : Set Nat :=
  {place | text[place]? = some quote ∧ ¬ Escaped text place}

def quoteEnds (quote : Char) (text : List Char) : Set Nat :=
  {place | 1 ≤ place ∧ place ∈ freeQuotes quote text}

instance (quote : Char) (text : List Char) (place : Nat) :
    Decidable (place ∈ quoteEnds quote text) :=
  inferInstanceAs (Decidable (_ ∧ _ ∧ ¬ Escaped text place))

/-- At the place a quoted text does not break off: a backslash that escapes something escapes no
line feed, and a line feed that is not escaped stands in backticks. -/
structure GoesOn (quote : Char) (text : List Char) (place : Nat) : Prop where
  escape : text[place]? = some '\\' → ¬ Escaped text place → ∃ c ∈ text[place + 1]?, c ≠ '\n'
  line : quote ≠ '\x60' → text[place]? = some '\n' → Escaped text place

instance (quote : Char) (text : List Char) (place : Nat) : Decidable (GoesOn quote text place) :=
  decidable_of_iff
    ((text[place]? = some '\\' → ¬ Escaped text place → text[place + 1]?.any (· != '\n') = true) ∧
      (quote ≠ '\x60' → text[place]? = some '\n' → Escaped text place)) (by
    simp only [Option.any_eq_true, bne_iff_ne]
    exact ⟨fun ⟨escape, line⟩ => ⟨escape, line⟩, fun ⟨escape, line⟩ => ⟨escape, line⟩⟩)

/-- Nothing ahead of the place breaks the quoted text off. -/
def Unbroken (quote : Char) (text : List Char) (place : Nat) : Prop :=
  ∀ before < place, GoesOn quote text before

instance (quote : Char) (text : List Char) (place : Nat) : Decidable (Unbroken quote text place) :=
  Nat.decidableBallLT place fun before _ => GoesOn quote text before

theorem not_escaped_zero (text : List Char) : ¬ Escaped text 0 := by
  simp [Escaped, run]

/-- Behind a front whose own backslashes pair up, only later backslashes count. -/
theorem escaped_append {front : List Char} (paired : run (· == '\\') front.reverse % 2 = 0)
    (body : List Char) (place : Nat) :
    Escaped (front ++ body) (place + front.length) ↔ Escaped body place := by
  have taken : ((front ++ body).take (place + front.length)).reverse =
      (body.take place).reverse ++ front.reverse := by
    rw [Nat.add_comm, List.take_length_add_append, List.reverse_append]
  rw [Escaped, Escaped, taken, run, run, List.takeWhile_append]
  split
  · next all =>
      rw [all, List.length_append]
      rw [run] at paired
      omega
  · rfl

theorem get_behind (front body : List Char) (place : Nat) :
    (front ++ body)[place + front.length]? = body[place]? := by
  rw [List.getElem?_append_right (by omega), Nat.add_sub_cancel]

section

variable {quote : Char} {front : List Char} (paired : run (· == '\\') front.reverse % 2 = 0)
include paired

theorem free_quotes_append (body : List Char) (place : Nat) :
    place + front.length ∈ freeQuotes quote (front ++ body) ↔ place ∈ freeQuotes quote body := by
  change _ ∧ ¬ Escaped _ _ ↔ _ ∧ ¬ Escaped _ _
  rw [escaped_append paired, get_behind]

theorem goes_on_append (body : List Char) (place : Nat) :
    GoesOn quote (front ++ body) (place + front.length) ↔ GoesOn quote body place := by
  have next : (front ++ body)[place + front.length + 1]? = body[place + 1]? := by
    rw [Nat.add_right_comm, get_behind]
  constructor
  · rintro ⟨escape, line⟩
    rw [get_behind, escaped_append paired] at escape line
    rw [next] at escape
    exact ⟨escape, line⟩
  · rintro ⟨escape, line⟩
    rw [← get_behind front, ← escaped_append paired] at escape line
    rw [← next] at escape
    exact ⟨escape, line⟩

theorem unbroken_append {body : List Char} (early : Unbroken quote (front ++ body) front.length)
    (place : Nat) :
    Unbroken quote (front ++ body) (place + front.length) ↔ Unbroken quote body place := by
  constructor
  · intro unbroken before inside
    exact (goes_on_append paired body before).1 (unbroken _ (by omega))
  · intro unbroken before inside
    by_cases short : before < front.length
    · exact early before short
    · obtain ⟨later, rfl⟩ := Nat.exists_eq_add_of_le' (Nat.le_of_not_lt short)
      exact (goes_on_append paired body later).2 (unbroken later (by omega))

end

structure Closes (quote : Char) (body : List Char) (place : Nat) : Prop where
  first : IsLeast (freeQuotes quote body) place
  unbroken : Unbroken quote body place

/-- A front that neither closes the text nor breaks it off can be passed over. -/
theorem closes_append {quote : Char} (front : List Char) {body : List Char}
    (paired : run (· == '\\') front.reverse % 2 = 0)
    (passes : ∀ place < front.length,
      ((front ++ body)[place]? = some quote → Escaped (front ++ body) place) ∧
        GoesOn quote (front ++ body) place) {place : Nat} :
    Closes quote (front ++ body) place ↔
      ∃ inner, Closes quote body inner ∧ inner + front.length = place := by
  have beyond : ∀ place ∈ freeQuotes quote (front ++ body), front.length ≤ place := by
    rintro place ⟨found, free⟩
    by_contra short
    exact free ((passes place (by omega)).1 found)
  have least := least_shifted beyond (free_quotes_append paired body)
  have unbroken := unbroken_append paired fun place inside => (passes place inside).2
  constructor
  · rintro ⟨first, whole⟩
    obtain ⟨inner, rfl⟩ := Nat.exists_eq_add_of_le' (beyond place first.1)
    exact ⟨inner, ⟨(least inner).1 first, (unbroken inner).1 whole⟩, rfl⟩
  · rintro ⟨inner, ⟨first, whole⟩, rfl⟩
    exact ⟨(least inner).2 first, (unbroken inner).2 whole⟩

section

variable {quote : Char}

theorem closes_self (body : List Char) : Closes quote (quote :: body) 0 := by
  refine ⟨⟨⟨rfl, not_escaped_zero _⟩, fun place _ => Nat.zero_le place⟩, ?_⟩
  intro before inside
  omega

theorem closes_self_iff {body : List Char} {count : Nat} :
    (∃ place, Closes quote (quote :: body) place ∧ place + 1 = count) ↔ some 1 = some count := by
  rw [Option.some.injEq]
  constructor
  · rintro ⟨place, closes, rfl⟩
    rw [closes.first.unique (closes_self body).first]
  · rintro rfl
    exact ⟨0, closes_self body, rfl⟩

theorem closes_plain {c : Char} (other : c ≠ quote) (plain : c ≠ '\\')
    (goesOn : ¬ (c = '\n' ∧ quote ≠ '\x60')) {body : List Char} {place : Nat} :
    Closes quote (c :: body) place ↔ ∃ inner, Closes quote body inner ∧ inner + 1 = place := by
  refine closes_append [c] (by simp [run, plain]) ?_
  intro place inside
  obtain rfl : place = 0 := by simpa using inside
  refine ⟨fun found => absurd (Option.some.inj found) other, ?_, ?_⟩
  · intro found
    exact absurd (Option.some.inj found) plain
  · intro line found
    exact absurd ⟨Option.some.inj found, line⟩ goesOn

theorem closes_escaped {d : Char} (sign : quote ≠ '\\') (other : d ≠ '\n') {body : List Char}
    {place : Nat} : Closes quote ('\\' :: d :: body) place ↔
      ∃ inner, Closes quote body inner ∧ inner + 2 = place := by
  refine closes_append ['\\', d] ?_ ?_
  · by_cases again : d = '\\' <;> simp [run, again]
  · intro place inside
    have places : place = 0 ∨ place = 1 := by
      simp only [List.length_cons, List.length_nil] at inside
      omega
    rcases places with rfl | rfl
    · refine ⟨fun found => absurd (Option.some.inj found).symm sign, ?_, ?_⟩
      · intro _ _
        exact ⟨d, rfl, other⟩
      · intro _ found
        exact absurd found (by simp)
    · have escaped : Escaped ('\\' :: d :: body) 1 := by simp [Escaped, run]
      exact ⟨fun _ => escaped, fun _ free => absurd escaped free, fun _ _ => escaped⟩

/-- A quoted text cannot be closed behind an escaped line feed. -/
theorem not_closes_escaped_feed (sign : quote ≠ '\\') (body : List Char) (place : Nat) :
    ¬ Closes quote ('\\' :: '\n' :: body) place := by
  intro closes
  obtain ⟨found, free⟩ := closes.first.1
  cases place with
  | zero => exact sign (Option.some.inj found).symm
  | succ place =>
      obtain ⟨c, next, other⟩ := (closes.unbroken 0 (by omega)).escape rfl (not_escaped_zero _)
      exact other (Option.some.inj next).symm

theorem not_closes_line_feed (line : quote ≠ '\x60') (other : '\n' ≠ quote) (body : List Char)
    (place : Nat) : ¬ Closes quote ('\n' :: body) place := by
  intro closes
  cases place with
  | zero => exact other (Option.some.inj closes.first.1.1)
  | succ place =>
      exact not_escaped_zero _ ((closes.unbroken 0 (by omega)).line line rfl)

theorem Closes.mem {body : List Char} {place : Nat} (closes : Closes quote body place) :
    quote ∈ body :=
  List.mem_of_getElem? closes.first.1.1

/-- Where the text is closed behind what has been passed over, the reader is as much further on. -/
theorem closing_passed {whole body : List Char} {found : Option Nat} {passed : Nat}
    (shifted : ∀ place, Closes quote whole place ↔
      ∃ inner, Closes quote body inner ∧ inner + passed = place)
    (reads : ∀ count, found = some count ↔ ∃ place, Closes quote body place ∧ place + 1 = count)
    (count : Nat) : found.map (· + passed) = some count ↔
      ∃ place, Closes quote whole place ∧ place + 1 = count := by
  rw [Option.map_eq_some_iff]
  constructor
  · rintro ⟨inner, closed, rfl⟩
    obtain ⟨place, closes, rfl⟩ := (reads inner).1 closed
    exact ⟨place + passed, (shifted _).2 ⟨place, closes, rfl⟩, by omega⟩
  · rintro ⟨_, closes, rfl⟩
    obtain ⟨place, inside, rfl⟩ := (shifted _).1 closes
    exact ⟨place + 1, (reads _).2 ⟨place, inside, rfl⟩, by omega⟩

/-- The reader of quoted texts stops where the text is closed, and nowhere else. The induction goes
by what the reader passes over at once: one character, or a backslash with the one behind it. -/
theorem closing_quote_iff (sign : quote ≠ '\\') (body : List Char) (count : Nat) :
    closingQuote? quote body = some count ↔
      ∃ place, Closes quote body place ∧ place + 1 = count := by
  fun_induction closingQuote? quote body generalizing count with
  | case1 =>
      refine ⟨by simp, ?_⟩
      rintro ⟨place, closes, _⟩
      exact absurd closes.mem List.not_mem_nil
  | case2 => exact closes_self_iff.symm
  | case3 c other =>
      refine ⟨by simp, ?_⟩
      rintro ⟨place, closes, _⟩
      exact absurd (List.mem_singleton.1 closes.mem).symm other
  | case4 => exact closes_self_iff.symm
  | case5 cs _ =>
      refine ⟨by simp, ?_⟩
      rintro ⟨place, closes, _⟩
      exact absurd closes (not_closes_escaped_feed sign cs place)
  | case6 d cs other _ induction =>
      exact closing_passed (fun _ => closes_escaped sign other) induction count
  | case7 c d cs other _ line =>
      obtain ⟨rfl, line⟩ := line
      refine ⟨by simp, ?_⟩
      rintro ⟨place, closes, _⟩
      exact absurd closes (not_closes_line_feed line other _ place)
  | case8 c d cs other plain goesOn induction =>
      exact closing_passed (fun _ => closes_plain other plain goesOn) induction count

end

section

variable {quote : Char} (isQuoted : isQuote quote = true)
include isQuoted

theorem quote_ne {c : Char} (other : isQuote c = false) : quote ≠ c := by
  rintro rfl
  rw [isQuoted] at other
  contradiction

theorem lexeme_quote (body : List Char) :
    lexeme? (quote :: body) =
      (closingQuote? quote body).map fun count => (.string, count + 1) := by
  simp only [isQuote, Bool.or_eq_true, beq_iff_eq] at isQuoted
  rcases isQuoted with (rfl | rfl) | rfl <;> rfl

/-- With its opening quote in front, the text is closed one place further on. -/
theorem quote_ends_iff_closes {body : List Char} {place : Nat} :
    IsLeast (quoteEnds quote (quote :: body)) (place + 1) ∧
        Unbroken quote (quote :: body) (place + 1) ↔
      Closes quote body place := by
  have sign : quote ≠ '\\' := quote_ne isQuoted (by decide)
  have paired : run (· == '\\') [quote].reverse % 2 = 0 := by simp [run, sign]
  have opened : Unbroken quote (quote :: body) 1 := by
    intro before inside
    obtain rfl : before = 0 := by omega
    refine ⟨fun found => absurd (Option.some.inj found) sign, ?_⟩
    intro _ found
    exact absurd (Option.some.inj found) (quote_ne isQuoted (by decide))
  have shifted : ∀ place, place + 1 ∈ quoteEnds quote (quote :: body) ↔
      place ∈ freeQuotes quote body := by
    intro place
    refine Iff.trans ?_ (free_quotes_append paired body place)
    exact ⟨fun found => found.2, fun found => ⟨by omega, found⟩⟩
  have least := least_shifted (fun _ found => found.1) shifted place
  have unbroken : Unbroken quote (quote :: body) (place + 1) ↔ Unbroken quote body place :=
    unbroken_append paired opened place
  rw [least, unbroken]
  exact ⟨fun both => ⟨both.1, both.2⟩, fun closes => ⟨closes.first, closes.unbroken⟩⟩

/-- A quoted text with its quotes is a lexeme exactly where its first free quote comes before
anything that breaks it off. -/
theorem lexeme_quoted_iff {body : List Char} {place : Nat} :
    lexeme? (quote :: body) = some (.string, place + 1) ↔
      IsLeast (quoteEnds quote (quote :: body)) place ∧ Unbroken quote (quote :: body) place := by
  have sign : quote ≠ '\\' := quote_ne isQuoted (by decide)
  rw [lexeme_quote isQuoted, Option.map_eq_some_iff]
  constructor
  · rintro ⟨count, closed, same⟩
    obtain ⟨inner, closes, rfl⟩ := (closing_quote_iff sign body count).1 closed
    obtain rfl : inner + 1 = place := by simpa using same
    exact (quote_ends_iff_closes isQuoted).2 closes
  · rintro ⟨first, whole⟩
    obtain ⟨inner, rfl⟩ := Nat.exists_eq_add_of_le' first.1.1
    have closes := (quote_ends_iff_closes isQuoted).1 ⟨first, whole⟩
    exact ⟨inner + 1, (closing_quote_iff sign body _).2 ⟨inner, closes, rfl⟩, rfl⟩

theorem stuck_of_unclosed {body : List Char}
    (unclosed : ¬ ∃ place, IsLeast (quoteEnds quote (quote :: body)) place ∧
      Unbroken quote (quote :: body) place) : Stuck (quote :: body) := by
  refine stuck_iff_lexeme_none.2 ⟨by simp, ?_⟩
  cases found : lexeme? (quote :: body) with
  | none => rfl
  | some lexeme =>
      have string := found
      rw [lexeme_quote isQuoted, Option.map_eq_some_iff] at string
      obtain ⟨count, _, rfl⟩ := string
      exact absurd ⟨count, (lexeme_quoted_iff isQuoted).1 found⟩ unclosed

end

theorem Munches.scan_stuck {line : String} {tokens : List Token} {rest : List Char}
    (munches : Munches 0 line.toList tokens rest) (stuck : Stuck rest) :
    scan line = .error ⟨String.ofList (rest.take (unreadable rest)),
      (sourceText tokens).utf8ByteSize⟩ := by
  rw [scan, munches.scan_from, scan_from_stuck _ stuck, Nat.zero_add]
  rfl

/-- At every boundary of a scan: what starts like a block comment is one up to the first star and
slash behind its opening, or else a slash alone; what starts like a line comment is one up to the
first line feed, or else to the end; and what starts with a quote is a string up to the first such
quote that is not escaped, if nothing breaks it off before, or else the scan fails at this quote. -/
theorem delimited_tokens (line : String) (tokens : List Token) (rest : List Char)
    (boundary : Munches 0 line.toList tokens rest) :
    (['/', '*'] <+: rest →
        (∀ place, IsLeast (commentEnds rest) place →
          Cuts line tokens rest .blockComment (place + 2)) ∧
        (commentEnds rest = ∅ → Cuts line tokens rest .operator 1)) ∧
      (['/', '/'] <+: rest →
        (∀ place, IsLeast (lineFeeds rest) place → Cuts line tokens rest .lineComment place) ∧
        (lineFeeds rest = ∅ → Cuts line tokens rest .lineComment rest.length)) ∧
      ∀ quote ∈ quotes, rest.head? = some quote →
        (∀ place, IsLeast (quoteEnds quote rest) place → Unbroken quote rest place →
          Cuts line tokens rest .string (place + 1)) ∧
        ((¬ ∃ place, IsLeast (quoteEnds quote rest) place ∧ Unbroken quote rest place) →
          ∃ text, scan line = .error ⟨text, (sourceText tokens).utf8ByteSize⟩) := by
  refine ⟨?_, ?_, ?_⟩
  · rintro ⟨body, rfl⟩
    obtain ⟨closed, unclosed⟩ := lexeme_block_comment body
    exact ⟨fun place first => boundary.cuts (closed place first),
      fun nowhere => boundary.cuts (unclosed nowhere)⟩
  · rintro ⟨body, rfl⟩
    obtain ⟨ended, endless⟩ := lexeme_line_comment body
    exact ⟨fun place first => boundary.cuts (ended place first),
      fun nowhere => boundary.cuts (endless nowhere)⟩
  · intro quote listed head
    have isQuoted := is_quote_iff.2 listed
    obtain ⟨body, rfl⟩ := List.head?_eq_some_iff.1 head
    refine ⟨?_, ?_⟩
    · intro place first whole
      exact boundary.cuts ((lexeme_quoted_iff isQuoted).2 ⟨first, whole⟩)
    · intro unclosed
      exact ⟨_, boundary.scan_stuck (stuck_of_unclosed isQuoted unclosed)⟩

def starsAndQuotes : String := "/***/'\\\\\\''\x22a"

theorem stars_and_quotes_delimited :
    ∃ comment, Cuts starsAndQuotes [] starsAndQuotes.toList .blockComment 5 ∧
      comment.text = "/***/" ∧
      Cuts starsAndQuotes [comment] (starsAndQuotes.toList.drop 5) .string 6 ∧
      ∃ text, scan starsAndQuotes = .error ⟨text, 11⟩ := by
  have start : Munches 0 starsAndQuotes.toList [] starsAndQuotes.toList := Munches.nil 0 _
  have pair : IsLeast (commentEnds starsAndQuotes.toList) 3 :=
    least_of_none_before (by decide) (by decide)
  have comment := ((delimited_tokens _ _ _ start).1 (by decide)).1 3 pair
  have free : IsLeast (quoteEnds '\x27' (starsAndQuotes.toList.drop 5)) 5 :=
    least_of_none_before (by decide) (by decide)
  have string := ((delimited_tokens _ _ _ comment.1).2.2 '\x27' (by decide) (by decide)).1 5 free
    (by decide)
  have none : ¬ ∃ place, IsLeast (quoteEnds '\x22' ((starsAndQuotes.toList.drop 5).drop 6)) place ∧
      Unbroken '\x22' ((starsAndQuotes.toList.drop 5).drop 6) place := by
    rintro ⟨place, first, _⟩
    obtain ⟨late, found, _⟩ := first.1
    obtain ⟨bound, _⟩ := List.getElem?_eq_some_iff.1 found
    have size : ((starsAndQuotes.toList.drop 5).drop 6).length = 2 := by decide
    obtain rfl : place = 1 := by omega
    exact absurd found (by decide)
  have failed := ((delimited_tokens _ _ _ string.1).2.2 '\x22' (by decide) (by decide)).2 none
  exact ⟨_, comment, by decide, string, failed⟩

end DocComment.Token
