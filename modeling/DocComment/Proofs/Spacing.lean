import DocComment.Proofs.MaximalMunch

/-!
White space says nothing but that a token ends. A token that carries meaning is cut off the same way
in front of white space as it was where it stood, however close its neighbours were. The main
statement is that the tokens of a text, written down again with any white space around them, are
read back, and that a line declares the same symbol however it is spaced.
-/

namespace DocComment.Token

namespace Pattern

def avoids (chars : List Char) : Pattern → Bool
  | one accepts => chars.all fun c => !accepts c
  | spelled text => chars.all fun c => !text.toList.contains c
  | sequence first second => first.avoids chars && second.avoids chars
  | choice left right => left.avoids chars && right.avoids chars
  | many inner => inner.avoids chars

theorem not_mem_of_avoids {chars : List Char} {c : Char} (member : c ∈ chars) {pattern : Pattern}
    (avoiding : pattern.avoids chars = true) {text : List Char}
    (described : pattern.Matches text) : c ∉ text := by
  induction pattern generalizing text with
  | one accepts =>
      obtain ⟨d, accepted, rfl⟩ := described
      have refused := List.all_eq_true.1 avoiding c member
      intro same
      obtain rfl := List.mem_singleton.1 same
      simp [accepted] at refused
  | spelled spelling =>
      obtain rfl : text = spelling.toList := described
      simpa using List.all_eq_true.1 avoiding c member
  | sequence first second firstInduction secondInduction =>
      obtain ⟨front, back, rfl, left, right⟩ := described
      rw [avoids, Bool.and_eq_true] at avoiding
      rw [List.mem_append, not_or]
      exact ⟨firstInduction avoiding.1 left, secondInduction avoiding.2 right⟩
  | choice left right leftInduction rightInduction =>
      rw [avoids, Bool.and_eq_true] at avoiding
      rcases described with fits | fits
      · exact leftInduction avoiding.1 fits
      · exact rightInduction avoiding.2 fits
  | many inner induction =>
      refine many_induction (motive := fun text => c ∉ text) (by simp) ?_ described
      intro part text first others
      rw [List.mem_append, not_or]
      exact ⟨induction avoiding first, others⟩

end Pattern

def spaces : List Char := [' ', '\t', '\r', '\n', '\x0c']

def quotes : List Char := ['\x22', '\x27', '\x60']

theorem is_space_iff {c : Char} : isSpace c = true ↔ c ∈ spaces := by
  simp [isSpace, spaces, or_assoc]

theorem is_quote_iff {c : Char} : isQuote c = true ↔ c ∈ quotes := by
  simp [isQuote, quotes, or_assoc]

/-- Of the kinds that carry meaning only strings hold white space and quotes. -/
theorem plain_not_mem {kind : Kind} (significant : kind.isTrivia = false)
    (plain : kind ≠ .string) {text : List Char} (described : kind.pattern.Matches text) {c : Char}
    (member : c ∈ spaces ++ quotes) : c ∉ text := by
  have each : ∀ kind ∈ Kind.all, kind.isTrivia = false → kind ≠ .string →
      kind.pattern.avoids (spaces ++ quotes) = true := by decide
  exact Pattern.not_mem_of_avoids member (each kind (Kind.mem_all kind) significant plain) described

/-- A quoted text ends at its closing quote, whatever follows. -/
theorem quoted_closed {quote : Char} {others : List Char} (isQuoted : isQuote quote = true)
    (sign : quote ≠ '\\') (breaks : ∀ c, c ∈ others ↔ c = '\n' ∧ quote ≠ '\x60')
    {text : List Char} (described : (Pattern.quoted quote others).Matches text)
    (rest : List Char) : lexeme? (text ++ rest) = some (.string, text.length) := by
  obtain ⟨_, _, rfl, starts, parts, _, rfl, many, c, same, rfl⟩ := described
  obtain rfl : c = quote := by simpa using same
  have closes := closing_quote_parts sign breaks many (closing_quote_self c rest)
  have opened := opens_string isQuoted starts closes
  rw [List.append_assoc, List.append_assoc, List.singleton_append, opened]
  simp only [List.length_append, List.length_singleton, Option.some.injEq, Prod.mk.injEq, true_and]
  omega

theorem string_closed {text : List Char} (described : Kind.string.pattern.Matches text)
    (rest : List Char) : lexeme? (text ++ rest) = some (.string, text.length) := by
  rcases described with double | single | tick
  · exact quoted_closed (by decide) (by decide) (by simp) double rest
  · exact quoted_closed (by decide) (by decide) (by simp) single rest
  · exact quoted_closed (by decide) (by decide) (by simp) tick rest

/-- Where a comment could start there is one, or its slash stands alone. -/
theorem slash_lexeme {c : Char} (second : c = '/' ∨ c = '*') {cs : List Char} {kind : Kind}
    {count : Nat} (found : lexeme? ('/' :: c :: cs) = some (kind, count)) :
    kind.isTrivia = true ∨ count = 1 := by
  have slash : lexeme? ('/' :: c :: cs) =
      (comment? ('/' :: c :: cs)).or (fixed? ('/' :: c :: cs)) := rfl
  rw [slash] at found
  rcases second with rfl | rfl
  · have line : comment? ('/' :: '/' :: cs) = some (.lineComment, run (· != '\n') cs + 2) := rfl
    rw [line, Option.some_or] at found
    obtain ⟨rfl, _⟩ := Prod.mk.inj (Option.some.inj found)
    exact .inl rfl
  · have block : comment? ('/' :: '*' :: cs) =
        (closingComment? cs).map fun count => (.blockComment, count + 2) := rfl
    have operator : fixed? ('/' :: '*' :: cs) = some (.operator, 1) := rfl
    rw [block, operator] at found
    cases closes : closingComment? cs with
    | none =>
        rw [closes, Option.map_none, Option.none_or] at found
        obtain ⟨_, rfl⟩ := Prod.mk.inj (Option.some.inj found)
        exact .inr rfl
    | some inner =>
        rw [closes, Option.map_some, Option.some_or] at found
        obtain ⟨rfl, _⟩ := Prod.mk.inj (Option.some.inj found)
        exact .inl rfl

theorem comment_opening {kind : Kind} (comment : kind = .lineComment ∨ kind = .blockComment)
    {text : List Char} (described : kind.pattern.Matches text) :
    ∃ c rest, (c = '/' ∨ c = '*') ∧ text = '/' :: c :: rest := by
  rcases comment with rfl | rfl
  · obtain ⟨_, back, rfl, rfl, _⟩ := described
    exact ⟨'/', back, .inl rfl, rfl⟩
  · obtain ⟨_, back, rfl, rfl, _⟩ := described
    exact ⟨'*', back, .inr rfl, rfl⟩

theorem string_opening {text : List Char} (described : Kind.string.pattern.Matches text) :
    ∃ c rest, isQuote c = true ∧ text = c :: rest := by
  rcases described with ⟨_, back, rfl, ⟨c, same, rfl⟩, _⟩ | ⟨_, back, rfl, ⟨c, same, rfl⟩, _⟩ |
    ⟨_, back, rfl, ⟨c, same, rfl⟩, _⟩ <;>
  · obtain rfl := eq_of_beq same
    exact ⟨_, back, by decide, rfl⟩

theorem cut_of_lexeme {kind : Kind} {text rest : List Char}
    (found : lexeme? (text ++ rest) = some (kind, text.length)) : Longest kind text rest := by
  obtain ⟨front, back, split, length, cut⟩ := longest_of_lexeme found
  obtain ⟨rfl, rfl⟩ := List.append_inj split length
  exact cut

/-- The scanner reads the whole text as one token that carries meaning. -/
structure Stands (kind : Kind) (text : List Char) : Prop where
  alone : lexeme? text = some (kind, text.length)
  significant : kind.isTrivia = false

namespace Stands

variable {kind : Kind} {text : List Char}

theorem described (stands : Stands kind text) : kind.pattern.Matches text := by
  have cut : Longest kind text [] := cut_of_lexeme (by rw [List.append_nil, stands.alone])
  exact cut.described

theorem cons (stands : Stands kind text) :
    ∃ c cs, text = c :: cs ∧ isSpace c = false := by
  have found := stands.alone
  cases text with
  | nil => simp [lexeme?] at found
  | cons c cs =>
      refine ⟨c, cs, rfl, ?_⟩
      rw [Bool.eq_false_iff]
      intro space
      rw [lexeme?, if_pos space] at found
      obtain ⟨rfl, _⟩ := Prod.mk.inj (Option.some.inj found)
      exact absurd stands.significant (by decide)

/-- A comment does not start with a token and the white space behind it. -/
theorem no_comment (stands : Stands kind text) {c : Char} (space : isSpace c = true)
    (more : List Char) {other : Kind} (comment : other = .lineComment ∨ other = .blockComment) :
    ¬ other.pattern.Matches (text ++ c :: more) := by
  intro fits
  obtain ⟨second, rest, sign, split⟩ := comment_opening comment fits
  obtain ⟨d, ds, rfl, _⟩ := stands.cons
  obtain ⟨rfl, tail⟩ := List.cons.inj split
  cases ds with
  | nil =>
      obtain ⟨rfl, _⟩ := List.cons.inj tail
      rcases sign with rfl | rfl <;> exact absurd space (by decide)
  | cons e ds =>
      obtain ⟨rfl, _⟩ := List.cons.inj tail
      rcases slash_lexeme sign stands.alone with trivia | single
      · simp [stands.significant] at trivia
      · simp at single

/-- Nothing that a pattern describes goes past the white space behind a token. -/
theorem not_past_space (stands : Stands kind text) (plain : kind ≠ .string) {c : Char}
    (space : isSpace c = true) (more : List Char) (other : Kind) :
    ¬ other.pattern.Matches (text ++ c :: more) := by
  intro fits
  by_cases significant : other.isTrivia = false ∧ other ≠ .string
  · refine plain_not_mem significant.1 significant.2 fits (c := c) ?_ (by simp)
    exact List.mem_append_left _ (is_space_iff.1 space)
  · obtain ⟨d, ds, rfl, notSpace⟩ := stands.cons
    cases other with
    | whitespace =>
        obtain ⟨_, _, split, ⟨first, accepted, rfl⟩, _⟩ := fits
        obtain ⟨rfl, _⟩ := List.cons.inj split
        rw [in_ranges_space, notSpace] at accepted
        contradiction
    | lineComment => exact stands.no_comment space more (.inl rfl) fits
    | blockComment => exact stands.no_comment space more (.inr rfl) fits
    | string =>
        obtain ⟨first, rest, isQuoted, split⟩ := string_opening fits
        obtain ⟨rfl, _⟩ := List.cons.inj split
        have absent := plain_not_mem stands.significant plain stands.described
          (List.mem_append_right _ (is_quote_iff.1 isQuoted))
        exact absent (by simp)
    | _ => exact significant ⟨rfl, by decide⟩

/-- A token is cut off as it is where no pattern goes past it. -/
theorem before (stands : Stands kind text) {c : Char}
    (ends : ∀ (other : Kind) more, ¬ other.pattern.Matches (text ++ c :: more))
    (rest : List Char) : lexeme? (text ++ c :: rest) = some (kind, text.length) := by
  obtain ⟨other, count, found, enough, same⟩ := lexeme_longest stands.described (c :: rest)
  obtain ⟨front, back, split, rfl, fits⟩ := lexeme_described found
  by_cases longer : text.length < front.length
  · obtain ⟨more, rfl⟩ := List.prefix_of_prefix_length_le (List.prefix_append text (c :: rest))
      ⟨back, split.symm⟩ enough
    cases more with
    | nil => simp at longer
    | cons d more =>
        rw [List.append_assoc, List.append_cancel_left_eq, List.cons_append] at split
        obtain ⟨rfl, _⟩ := List.cons.inj split
        exact absurd fits (ends other more)
  · have lengths : text.length = front.length := by omega
    rw [found, same lengths, lengths]

theorem before_space (stands : Stands kind text) {c : Char} (space : isSpace c = true)
    (rest : List Char) : lexeme? (text ++ c :: rest) = some (kind, text.length) := by
  by_cases quoted : kind = .string
  · subst quoted
    exact string_closed stands.described _
  · exact stands.before (fun other more => stands.not_past_space quoted space more other) rest

/-- A word goes on through what can be read as the rest of one. -/
theorem word_append {text : List Char} (stands : Stands .identifier text) (rest : List Char) :
    lexeme? (text ++ rest) = some (.identifier, text.length + wordTail rest) := by
  obtain ⟨first, _, rfl, starts, front, parts, rfl, plain, hyphenated⟩ := stands.described
  have tail : wordTail (front ++ parts ++ rest) = (front ++ parts).length + wordTail rest := by
    rw [List.append_assoc, word_tail_append (word_chars_of_matches plain),
      word_tail_parts hyphenated, List.length_append, Nat.add_assoc]
  have cut : lexeme? (first ++ (front ++ parts ++ rest)) =
      some (.identifier, wordTail (front ++ parts ++ rest) + first.length) :=
    opens_identifier starts rfl
  rw [List.append_assoc, cut, tail, @List.length_append _ first, Nat.add_comm, Nat.add_assoc]

end Stands

/-- From wherever it starts, the text scans and its tokens that carry meaning have these lexemes. -/
def Scans (text : List Char) (lexemes : List Lexeme) : Prop :=
  ∀ start, ∃ tokens, scanFrom start text = .ok tokens ∧ (significant tokens).map lexeme = lexemes

namespace Scans

theorem nil : Scans [] [] := by
  intro start
  exact ⟨[], scan_from_nil start, rfl⟩

variable {text rest : List Char} {lexemes : List Lexeme}

theorem cons_lexeme {kind : Kind} (found : lexeme? (text ++ rest) = some (kind, text.length))
    (scans : Scans rest lexemes) :
    Scans (text ++ rest)
      (if kind.isTrivia then lexemes else (kind, String.ofList text) :: lexemes) := by
  intro start
  have cut := cut_of_lexeme found
  rw [← @String.toList_ofList text] at cut
  have first := scan_from_cut start cut
  rw [String.toList_ofList] at first
  obtain ⟨tokens, scanned, same⟩ := scans (start + (String.ofList text).utf8ByteSize)
  refine ⟨_, by rw [first, scanned]; rfl, ?_⟩
  by_cases trivia : kind.isTrivia = true
  · simpa [significant, startingAt, trivia] using same
  · simpa [significant, startingAt, trivia, lexeme] using same

/-- A token in front of white space, or of nothing, is scanned off. -/
theorem token {kind : Kind} (stands : Stands kind text)
    (apart : ∀ c ∈ rest.head?, isSpace c = true) (scans : Scans rest lexemes) :
    Scans (text ++ rest) ((kind, String.ofList text) :: lexemes) := by
  have found : lexeme? (text ++ rest) = some (kind, text.length) := by
    cases rest with
    | nil => rw [List.append_nil, stands.alone]
    | cons c rest => exact stands.before_space (apart c rfl) rest
  simpa [stands.significant] using scans.cons_lexeme found

theorem blank (allBlank : ∀ c ∈ text, isSpace c = true)
    (stops : ∀ c ∈ rest.head?, isSpace c = false) (scans : Scans rest lexemes) :
    Scans (text ++ rest) lexemes := by
  cases text with
  | nil => exact scans
  | cons c cs =>
      have stopped : run isSpace rest = 0 := by
        cases rest with
        | nil => rfl
        | cons d rest => simp [run, stops d rfl]
      have found : lexeme? (c :: cs ++ rest) = some (.whitespace, (c :: cs).length) := by
        rw [List.cons_append, lexeme?, if_pos (allBlank c (by simp)),
          run_append fun d member => allBlank d (by simp [member]), stopped]
        rfl
      exact scans.cons_lexeme found

end Scans

def IsBlank (text : String) : Prop := ∀ c ∈ text.toList, c ∈ spaces

instance (text : String) : Decidable (IsBlank text) :=
  List.decidableBAll (· ∈ spaces) text.toList

/-- White space to write tokens with: some between each two, and perhaps some at both ends. -/
structure Spacing where
  lead : String := ""
  gap : Nat → String
  trail : String := ""
  leadBlank : IsBlank lead
  gapBlank : ∀ place, IsBlank (gap place)
  gapNonempty : ∀ place, gap place ≠ ""
  trailBlank : IsBlank trail

def spaced (gap : Nat → String) : List String → String
  | [] => ""
  | [text] => text
  | text :: next :: rest => text ++ gap 0 ++ spaced (fun place => gap (place + 1)) (next :: rest)

def Spacing.write (spacing : Spacing) (tokens : List Token) : String :=
  spacing.lead ++ spaced spacing.gap (tokens.map (·.text)) ++ spacing.trail

theorem IsBlank.is_space {text : String} (blank : IsBlank text) :
    ∀ c ∈ text.toList, isSpace c = true :=
  fun c member => is_space_iff.2 (blank c member)

theorem spaced_cons (gap : Nat → String) (text : String) (rest : List String) :
    ∃ after, (spaced gap (text :: rest)).toList = text.toList ++ after := by
  cases rest with
  | nil => exact ⟨[], by simp [spaced]⟩
  | cons next rest => exact ⟨_, by rw [spaced, String.append_assoc, String.toList_append]⟩

theorem scans_trail {trail : String} (blank : IsBlank trail) : Scans trail.toList [] := by
  have scans := Scans.nil.blank blank.is_space (by simp)
  rwa [List.append_nil] at scans

theorem spaced_stops {kind : Kind} {text : String} (stands : Stands kind text.toList)
    (gap : Nat → String) (rest : List String) (trail : List Char) :
    ∀ c ∈ ((spaced gap (text :: rest)).toList ++ trail).head?, isSpace c = false := by
  obtain ⟨after, split⟩ := spaced_cons gap text rest
  obtain ⟨c, cs, spelled, notSpace⟩ := stands.cons
  simp [split, spelled, notSpace]

theorem blank_head {text : String} (blank : IsBlank text) (nonempty : text ≠ "")
    (rest : List Char) : ∀ c ∈ (text.toList ++ rest).head?, isSpace c = true := by
  cases spelled : text.toList with
  | nil => exact absurd (String.toList_eq_nil_iff.1 spelled) nonempty
  | cons d ds => simpa using blank.is_space d (by simp [spelled])

/-- Tokens that stand by themselves are read back from between any gaps. -/
theorem scans_spaced {lexemes : List Lexeme} {gap : Nat → String} {trail : String}
    (stand : ∀ lexeme ∈ lexemes, Stands lexeme.1 lexeme.2.toList)
    (gapBlank : ∀ place, IsBlank (gap place)) (gapNonempty : ∀ place, gap place ≠ "")
    (trailBlank : IsBlank trail) :
    Scans ((spaced gap (lexemes.map (·.2))).toList ++ trail.toList) lexemes := by
  induction lexemes generalizing gap with
  | nil => simpa [spaced] using scans_trail trailBlank
  | cons lexeme rest induction =>
      have first : Stands lexeme.1 lexeme.2.toList := stand lexeme (by simp)
      cases rest with
      | nil =>
          have apart : ∀ c ∈ trail.toList.head?, isSpace c = true :=
            fun c head => trailBlank.is_space c (List.mem_of_mem_head? head)
          have scans := (scans_trail trailBlank).token first apart
          simpa [spaced] using scans
      | cons next rest =>
          have others : Scans ((spaced (fun place => gap (place + 1))
              ((next :: rest).map (·.2))).toList ++ trail.toList) (next :: rest) := induction
            (fun lexeme member => stand lexeme (List.mem_cons_of_mem _ member))
            (fun place => gapBlank (place + 1)) (fun place => gapNonempty (place + 1))
          have stops := spaced_stops (stand next (by simp)) (fun place => gap (place + 1))
            (rest.map (·.2)) trail.toList
          have gapped := others.blank (gapBlank 0).is_space stops
          have apart := blank_head (gapBlank 0) (gapNonempty 0)
            ((spaced (fun place => gap (place + 1)) ((next :: rest).map (·.2))).toList ++
              trail.toList)
          have scans := gapped.token first apart
          simpa [spaced] using scans

theorem Spacing.scans (spacing : Spacing) {lexemes : List Lexeme}
    (stand : ∀ lexeme ∈ lexemes, Stands lexeme.1 lexeme.2.toList) :
    Scans (spacing.lead.toList ++
      ((spaced spacing.gap (lexemes.map (·.2))).toList ++ spacing.trail.toList)) lexemes := by
  cases lexemes with
  | nil =>
      -- The white space of both ends is one run.
      have blank : IsBlank (spacing.lead ++ spacing.trail) := by
        intro c member
        rw [String.toList_append, List.mem_append] at member
        rcases member with lead | trail
        · exact spacing.leadBlank c lead
        · exact spacing.trailBlank c trail
      simpa [spaced] using scans_trail blank
  | cons first rest =>
      have scans := scans_spaced stand spacing.gapBlank spacing.gapNonempty spacing.trailBlank
      rw [List.map_cons] at scans ⊢
      have stops := spaced_stops (stand first (by simp)) spacing.gap (rest.map (·.2))
        spacing.trail.toList
      exact scans.blank spacing.leadBlank.is_space stops

theorem munches_of_scan {start : Nat} {input : List Char} {tokens : List Token}
    (scanned : scanFrom start input = .ok tokens) : Munches start input tokens [] := by
  obtain ⟨found, rest, munches, ends⟩ := exists_munches start input
  rw [munches.scan_from] at scanned
  rcases ends with rfl | stuck
  · rw [scan_from_nil, Except.map, List.append_nil] at scanned
    obtain rfl := Except.ok.inj scanned
    exact munches
  · rw [scan_from_stuck _ stuck] at scanned
    contradiction

/-- A token that carries meaning stands by itself, wherever it was cut off. -/
theorem Munches.stands {start : Nat} {input rest : List Char} {tokens : List Token}
    (munches : Munches start input tokens rest) {token : Token} (member : token ∈ significant tokens) :
    Stands token.kind token.text.toList := by
  obtain ⟨listed, meaning⟩ := List.mem_filter.1 member
  obtain ⟨before, after, split⟩ := List.append_of_mem listed
  have cut : Longest token.kind token.text.toList [] :=
    Longest.shorten (munches.longest before token after split)
  have alone := lexeme_of_longest cut
  rw [List.append_nil] at alone
  exact ⟨alone, by simpa using meaning⟩

theorem Munches.scans_written {start : Nat} {input rest : List Char} {tokens : List Token}
    (munches : Munches start input tokens rest) (spacing : Spacing) :
    Scans (spacing.write (significant tokens)).toList ((significant tokens).map lexeme) := by
  have stand : ∀ entry ∈ (significant tokens).map lexeme, Stands entry.1 entry.2.toList := by
    intro entry member
    obtain ⟨token, listed, rfl⟩ := List.mem_map.1 member
    exact munches.stands listed
  have texts : ((significant tokens).map lexeme).map (·.2) =
      (significant tokens).map (·.text) := by
    simp [lexeme]
  have scans := spacing.scans stand
  rw [texts] at scans
  simpa [Spacing.write] using scans

theorem mem_spaced {gap : Nat → String} (gapBlank : ∀ place, IsBlank (gap place))
    {texts : List String} {c : Char} (member : c ∈ (spaced gap texts).toList) :
    c ∈ spaces ∨ ∃ text ∈ texts, c ∈ text.toList := by
  induction texts generalizing gap with
  | nil => simp [spaced] at member
  | cons text rest induction =>
      cases rest with
      | nil => exact .inr ⟨text, by simp, member⟩
      | cons next rest =>
          rw [spaced, String.toList_append, String.toList_append, List.mem_append,
            List.mem_append] at member
          rcases member with (own | blank) | later
          · exact .inr ⟨text, by simp, own⟩
          · exact .inl (gapBlank 0 c blank)
          · rcases induction (fun place => gapBlank (place + 1)) later with blank | other
            · exact .inl blank
            · obtain ⟨other, listed, inside⟩ := other
              exact .inr ⟨other, List.mem_cons_of_mem _ listed, inside⟩

theorem mem_source_text {tokens : List Token} {token : Token} (listed : token ∈ tokens) {c : Char}
    (member : c ∈ token.text.toList) : c ∈ (sourceText tokens).toList := by
  induction tokens with
  | nil => simp at listed
  | cons first tokens induction =>
      rw [sourceText, String.toList_append, List.mem_append]
      rcases List.mem_cons.1 listed with rfl | later
      · exact .inl member
      · exact .inr (induction later)

/-- Writing tokens again brings no character but white space. -/
theorem Munches.mem_written {start : Nat} {input rest : List Char} {tokens : List Token}
    (munches : Munches start input tokens rest) (spacing : Spacing) {c : Char}
    (member : c ∈ (spacing.write (significant tokens)).toList) : c ∈ spaces ∨ c ∈ input := by
  rw [Spacing.write, String.toList_append, String.toList_append, List.mem_append,
    List.mem_append] at member
  rcases member with (lead | inside) | trail
  · exact .inl (spacing.leadBlank c lead)
  · rcases mem_spaced spacing.gapBlank inside with blank | ⟨text, listed, own⟩
    · exact .inl blank
    · obtain ⟨token, meaning, rfl⟩ := List.mem_map.1 listed
      have among := mem_source_text (List.mem_filter.1 meaning).1 own
      exact .inr (by rw [munches.whole]; exact List.mem_append_left _ among)
  · exact .inl (spacing.trailBlank c trail)

end DocComment.Token

namespace DocComment.Language

open Token

/-- What is prepared stays as it is when it is prepared once more, with white space added. -/
theorem prepare_again {language : Language} (other : language ≠ .java) {source text : String}
    (known : ∀ c ∈ text.toList, c ∈ spaces ∨ c ∈ (language.prepare source).toList) :
    language.prepare text = text := by
  cases language with
  | java => exact absurd rfl other
  | scss =>
      have kept : text.toList.filter (· != '@') = text.toList := by
        rw [List.filter_eq_self]
        intro c member
        rcases known c member with blank | prepared
        · rw [bne_iff_ne]
          rintro rfl
          exact absurd blank (by decide)
        · rw [prepare, AtRule.withoutAtSigns, String.toList_ofList] at prepared
          exact (List.mem_filter.1 prepared).2
      rw [prepare, AtRule.withoutAtSigns, kept, String.ofList_toList]
  | _ => rfl

theorem recognize_of_lexemes (language : Language) {left right : List Token}
    (same : left.map lexeme = right.map lexeme) :
    language.recognize left = language.recognize right := by
  rw [recognize_eq_read, recognize_eq_read, same]

/-- The tokens of a text, written down with any white space around them, are read back with their
kinds and texts. So a line that is scanned as prepared declares the same symbol however its tokens
are spaced. -/
theorem respaced_recognized (line : String) (tokens : List Token) (scanned : scan line = .ok tokens)
    (spacing : Spacing) :
    (∃ again, scan (spacing.write (significant tokens)) = .ok again ∧
        (significant again).map lexeme = (significant tokens).map lexeme) ∧
      ∀ (language : Language) (source : String), language ≠ .java →
        language.prepare source = line →
          ∃ symbol, language.parse source = .ok symbol ∧
            language.parse (spacing.write (significant tokens)) = .ok symbol := by
  have munches := munches_of_scan scanned
  obtain ⟨again, rescanned, same⟩ := munches.scans_written spacing 0
  refine ⟨⟨again, rescanned, same⟩, ?_⟩
  rintro language source other rfl
  refine ⟨language.recognize (significant tokens), ?_, ?_⟩
  · rw [parse, Language.tokens, scanSignificant, scanned]
    rfl
  · have prepared := prepare_again other fun c member => munches.mem_written spacing member
    rw [parse, Language.tokens, prepared, scanSignificant, scan, rescanned]
    rw [← recognize_of_lexemes language same]
    rfl

def crowdedTokens : List Token :=
  layOut 0 [word "mixin", (.whitespace, " "), word "f-g", (.openParen, "("), word "$x",
    (.colon, ":"), (.string, "'a b'"), (.closeParen, ")"), (.operator, "/"), (.star, "*"),
    (.openBrace, "\x7b")]

def wideSpacing : Spacing where
  lead := "\n"
  gap place := if place = 1 then "\r\n\x0c" else "\t "
  leadBlank := by decide
  gapBlank place := by split <;> decide
  gapNonempty place := by split <;> decide
  trailBlank := by decide

theorem respaced_mixin_recognized :
    scan "mixin f-g($x:'a b')/*\x7b" = .ok crowdedTokens ∧
      wideSpacing.write (significant crowdedTokens) =
        "\nmixin\t f-g\r\n\x0c(\t $x\t :\t 'a b'\t )\t /\t *\t \x7b" ∧
      Language.scss.parse (wideSpacing.write (significant crowdedTokens)) =
        .ok {
          name := "f-g"
          kind := .function
          params := [{ name := "$x", value := some "'a b'" }] } := by
  have scanned : scan "mixin f-g($x:'a b')/*\x7b" = .ok crowdedTokens := by decide +kernel
  obtain ⟨symbol, parsed, again⟩ := (respaced_recognized _ _ scanned wideSpacing).2 .scss
    "@mixin f-g($x:'a b')/*\x7b" (by decide) (by decide +kernel)
  refine ⟨scanned, by decide +kernel, ?_⟩
  rw [again, ← parsed]
  decide +kernel

end DocComment.Language
