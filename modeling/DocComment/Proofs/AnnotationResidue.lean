import DocComment.Proofs.Spacing
import Mathlib.Control.Monad.Basic

/-!
Annotations whose arguments hold parentheses of their own. The arguments are taken to end at the
first closing parenthesis, so that what stands behind it, up to the parenthesis that really ends
them, is left ahead of the declaration. The main statement gives the text that is scanned for any
annotation with paired parentheses, and says that the annotation has no influence on any line if and
only if there is no parenthesis in its arguments.
-/

namespace DocComment.Annotation

/-- How many parentheses are open behind a text; nothing if one is closed that is not open. -/
def parensOpen? : Nat → List Char → Option Nat
  | depth, [] => some depth
  | depth, c :: cs =>
      if c = '(' then parensOpen? (depth + 1) cs
      else if c = ')' then if depth = 0 then none else parensOpen? (depth - 1) cs
      else parensOpen? depth cs

def Paired (cs : List Char) : Prop := parensOpen? 0 cs = some 0

instance (cs : List Char) : Decidable (Paired cs) :=
  inferInstanceAs (Decidable (parensOpen? 0 cs = some 0))

/-- Behind every opening parenthesis there is a closing one. -/
def Closes : List Char → Prop
  | [] => True
  | c :: cs => (c = '(' → ')' ∈ cs) ∧ Closes cs

theorem Closes.of_suffix {whole part : List Char} (suffix : part <:+ whole)
    (closes : Closes whole) : Closes part := by
  obtain ⟨front, rfl⟩ := suffix
  induction front with
  | nil => exact closes
  | cons c cs induction => exact induction closes.2

/-- Where all parentheses are closed in the end, those that were open ahead of the text are, too. -/
theorem closes_of_parens {depth : Nat} {cs : List Char} (closed : parensOpen? depth cs = some 0) :
    (0 < depth → ')' ∈ cs) ∧ Closes cs := by
  induction cs generalizing depth with
  | nil =>
      obtain rfl : depth = 0 := Option.some.inj closed
      exact ⟨fun deep => absurd deep (Nat.lt_irrefl 0), trivial⟩
  | cons c cs induction =>
      rw [parensOpen?] at closed
      split at closed
      · obtain ⟨inner, further⟩ := induction closed
        have present := inner (Nat.succ_pos depth)
        exact ⟨fun _ => List.mem_cons_of_mem c present, fun _ => present, further⟩
      next other =>
        split at closed
        · next closing =>
            split at closed
            · contradiction
            · exact ⟨fun _ => by simp [closing], fun opens => absurd opens other,
                (induction closed).2⟩
        · obtain ⟨inner, further⟩ := induction closed
          exact ⟨fun deep => List.mem_cons_of_mem c (inner deep),
            fun opens => absurd opens other, further⟩

theorem past_closing_append {cs tail : List Char} (found : pastClosing? cs = some tail)
    (rest : List Char) : pastClosing? (cs ++ rest) = some (tail ++ rest) := by
  induction cs with
  | nil => contradiction
  | cons c cs induction =>
      rw [List.cons_append, pastClosing?]
      rw [pastClosing?] at found
      split
      · next closes =>
          rw [if_pos closes] at found
          rw [← Option.some.inj found]
      · next other =>
          rw [if_neg other] at found
          exact induction found

theorem past_closing_eq_none {cs : List Char} : pastClosing? cs = none ↔ ')' ∉ cs := by
  induction cs with
  | nil => simp [pastClosing?]
  | cons c cs induction =>
      rw [pastClosing?, List.mem_cons, not_or, ← induction]
      by_cases closes : c = ')'
      · simp [closes]
      · simp [closes, Ne.symm closes]

theorem past_closing_first {cs : List Char} (absent : ')' ∉ cs) (rest : List Char) :
    pastClosing? (cs ++ ')' :: rest) = some rest := by
  induction cs with
  | nil => rfl
  | cons c cs induction =>
      rw [List.mem_cons, not_or] at absent
      rw [List.cons_append, pastClosing?, if_neg (Ne.symm absent.1)]
      exact induction absent.2

theorem past_closing_suffix {cs tail : List Char} (found : pastClosing? cs = some tail) :
    tail <:+ cs := by
  induction cs with
  | nil => contradiction
  | cons c cs induction =>
      rw [pastClosing?] at found
      split at found
      · obtain rfl := Option.some.inj found
        exact List.suffix_cons c _
      · exact (induction found).trans (List.suffix_cons c cs)

/-- A closing parenthesis ends a run of anything it does not belong to. -/
theorem take_while_closing (condition : Char → Bool) (stops : condition ')' = false)
    (cs rest : List Char) :
    (cs ++ ')' :: rest).takeWhile condition = cs.takeWhile condition ∧
      (cs ++ ')' :: rest).dropWhile condition = cs.dropWhile condition ++ ')' :: rest := by
  induction cs with
  | nil => simp [stops]
  | cons c cs induction =>
      by_cases holds : condition c = true
      · simp [holds, induction]
      · simp [holds]

theorem skip_blanks_closing (cs rest : List Char) :
    skipBlanks (cs ++ ')' :: rest) = skipBlanks cs ++ ')' :: rest :=
  (take_while_closing Text.isBlank (by decide) cs rest).2

theorem skip_blanks_suffix (cs : List Char) : skipBlanks cs <:+ cs := List.dropWhile_suffix _

theorem past_arguments_closing {cs : List Char} (closes : Closes cs) (rest : List Char) :
    pastArguments? (cs ++ ')' :: rest) = (pastArguments? cs).map (· ++ ')' :: rest) := by
  have skipped := closes.of_suffix (skip_blanks_suffix cs)
  rw [pastArguments?, pastArguments?, skip_blanks_closing]
  cases front : skipBlanks cs with
  | nil => rfl
  | cons c inside =>
      by_cases opens : c = '('
      · subst opens
        rw [front] at skipped
        cases found : pastClosing? inside with
        | none => exact absurd (skipped.1 rfl) (past_closing_eq_none.1 found)
        | some tail => simpa [found] using past_closing_append found (')' :: rest)
      · simp [opens]

theorem past_arguments_suffix {cs tail : List Char} (found : pastArguments? cs = some tail) :
    tail <:+ cs := by
  rw [pastArguments?] at found
  split at found
  · next inside same =>
      have within : inside <:+ cs :=
        (List.suffix_cons '(' inside).trans (same ▸ skip_blanks_suffix cs)
      exact (past_closing_suffix found).trans within
  · contradiction

theorem skip_after_name_closing {cs : List Char} (closes : Closes cs) (rest : List Char) :
    skipAfterName (cs ++ ')' :: rest) = skipAfterName cs ++ ')' :: rest := by
  rw [skipAfterName, skipAfterName, past_arguments_closing closes]
  cases pastArguments? cs with
  | none => exact skip_blanks_closing cs rest
  | some tail => exact skip_blanks_closing tail rest

theorem skip_after_name_suffix (cs : List Char) : skipAfterName cs <:+ cs := by
  rw [skipAfterName]
  cases found : pastArguments? cs with
  | none => exact skip_blanks_suffix cs
  | some tail => exact (skip_blanks_suffix tail).trans (past_arguments_suffix found)

theorem strip_cons {c : Char} (other : c ≠ '@') (cs : List Char) :
    strip (c :: cs) = c :: strip cs := by
  rw [strip]
  intro d ds same
  exact absurd same other

theorem strip_annotation {c : Char} (starts : isNameStart c = true) (cs : List Char) :
    strip ('@' :: c :: cs) =
      (if c :: cs.takeWhile isNameChar = "interface".toList then "interface ".toList else []) ++
        strip (skipAfterName (cs.dropWhile isNameChar)) := by
  rw [strip, if_pos starts]

theorem strip_mark {c : Char} (nameless : isNameStart c = false) (cs : List Char) :
    strip ('@' :: c :: cs) = '@' :: strip (c :: cs) := by
  rw [strip, nameless, if_neg Bool.false_ne_true]

theorem strip_unmarked_append {cs : List Char} (unmarked : '@' ∉ cs) (rest : List Char) :
    strip (cs ++ rest) = cs ++ strip rest := by
  induction cs with
  | nil => rfl
  | cons c cs induction =>
      rw [List.mem_cons, not_or] at unmarked
      rw [List.cons_append, strip_cons (Ne.symm unmarked.1), induction unmarked.2, List.cons_append]

theorem strip_unmarked {cs : List Char} (unmarked : '@' ∉ cs) : strip cs = cs := by
  have none : strip [] = [] := by rw [strip]
  have kept := strip_unmarked_append unmarked []
  rwa [none, List.append_nil] at kept

/-- Ahead of a closing parenthesis the annotations go, and nothing behind it goes with them. -/
theorem strip_closing {cs : List Char} (closes : Closes cs) (rest : List Char) :
    strip (cs ++ ')' :: rest) = strip cs ++ ')' :: strip rest := by
  fun_induction strip cs with
  | case1 => exact strip_cons (by decide) rest
  | case2 c cs starts name kept induction =>
      have run := take_while_closing isNameChar (by decide) cs rest
      have behind : Closes (cs.dropWhile isNameChar) :=
        closes.of_suffix ((List.dropWhile_suffix _).trans
          ((List.suffix_cons c cs).trans (List.suffix_cons '@' _)))
      have further := induction (behind.of_suffix (skip_after_name_suffix _))
      rw [List.cons_append, List.cons_append, strip_annotation starts, run.1, run.2,
        skip_after_name_closing behind, further, ← List.append_assoc]
      simp only [kept, name, dite_eq_ite]
  | case3 c cs starts induction =>
      have nameless : isNameStart c = false := Bool.eq_false_iff.2 starts
      rw [List.cons_append, List.cons_append, strip_mark nameless, ← List.cons_append,
        induction closes.2]
      rfl
  | case4 c cs other induction =>
      by_cases mark : c = '@'
      · -- A mark at the very end comes to stand ahead of the parenthesis, which starts no name.
        subst mark
        have last : cs = [] := by
          cases cs with
          | nil => rfl
          | cons d ds => exact absurd rfl (other d ds rfl)
        subst last
        rw [List.singleton_append, strip_mark (by decide), strip_cons (by decide),
          strip_unmarked List.not_mem_nil]
        rfl
      · rw [List.cons_append, strip_cons mark, induction closes.2]
        rfl

/-- The name of an annotation. The word that declares one is none. -/
structure Name where
  first : Char
  rest : List Char
  starts : isNameStart first = true
  continues : ∀ c ∈ rest, isNameChar c = true
  other : first :: rest ≠ "interface".toList

def written (name : Name) (arguments : Option (List Char)) : List Char :=
  '@' :: name.first :: name.rest ++ arguments.elim [] fun inside => '(' :: inside ++ [')']

/-- What is left of the arguments: all behind the first closing parenthesis in them, without the
annotations in it, and then the parenthesis that ends them. -/
def residue (arguments : Option (List Char)) : List Char :=
  (arguments.bind pastClosing?).elim [] fun tail => strip (skipBlanks tail) ++ [')', ' ']

/-- A line to annotate: it starts with a letter and holds no annotation. -/
structure Line where
  first : Char
  rest : List Char
  letter : first.isAlpha = true
  unmarked : '@' ∉ first :: rest

def Line.chars (line : Line) : List Char := line.first :: line.rest

theorem letter_bounds {c : Char} (letter : c.isAlpha = true) : 65 ≤ c.toNat ∧ c.toNat ≤ 122 := by
  have ranges := Token.Pattern.in_ranges_letters [] c
  rw [Token.Pattern.in_ranges_nil, Bool.or_false] at ranges
  rw [← ranges] at letter
  simp only [Token.Pattern.inRanges, List.any_cons, List.any_nil, Bool.or_false, Bool.or_eq_true,
    Bool.and_eq_true, decide_eq_true_eq, Char.le_def, UInt32.le_iff_toNat_le, Char.reduceVal,
    UInt32.reduceToNat] at letter
  change 65 ≤ c.val.toNat ∧ c.val.toNat ≤ 122
  omega

theorem printable_not_blank {c : Char} (low : 32 < c.toNat) (high : c.toNat < 127) :
    Text.isBlank c = false := by
  rw [Bool.eq_false_iff]
  intro blank
  simp only [Text.isBlank, Text.blankRanges, List.any_cons, List.any_nil, Bool.or_false,
    Bool.or_eq_true, Bool.and_eq_true, decide_eq_true_eq] at blank
  omega

theorem letter_not_blank {c : Char} (letter : c.isAlpha = true) : Text.isBlank c = false := by
  have bounds := letter_bounds letter
  apply printable_not_blank <;> omega

theorem skip_blanks_line (line : Line) : skipBlanks (' ' :: line.chars) = line.chars := by
  have visible := letter_not_blank line.letter
  have space : Text.isBlank ' ' = true := by decide
  simp [skipBlanks, Line.chars, space, visible]

theorem strip_name (name : Name) {rest : List Char}
    (ends : ∀ c ∈ rest.head?, isNameChar c = false) :
    strip ('@' :: name.first :: name.rest ++ rest) = strip (skipAfterName rest) := by
  have stopped : rest.takeWhile isNameChar = [] ∧ rest.dropWhile isNameChar = rest := by
    cases rest with
    | nil => exact ⟨rfl, rfl⟩
    | cons c cs => simp [ends c rfl]
  have taken : (name.rest ++ rest).takeWhile isNameChar = name.rest := by
    rw [List.takeWhile_append_of_pos name.continues, stopped.1, List.append_nil]
  have dropped : (name.rest ++ rest).dropWhile isNameChar = rest := by
    rw [List.dropWhile_append_of_pos name.continues, stopped.2]
  rw [List.cons_append, List.cons_append, strip_annotation name.starts, taken, dropped,
    if_neg name.other, List.nil_append]

theorem strip_written (name : Name) (arguments : Option (List Char))
    (paired : ∀ inside ∈ arguments, Paired inside) (line : Line) :
    strip (written name arguments ++ ' ' :: line.chars) = residue arguments ++ line.chars := by
  have kept : strip line.chars = line.chars := strip_unmarked line.unmarked
  have space : strip (' ' :: line.chars) = ' ' :: line.chars := by
    rw [strip_cons (by decide), kept]
  cases arguments with
  | none =>
      have noArguments : pastArguments? (' ' :: line.chars) = none := by
        have other : line.first ≠ '(' := by
          intro same
          have letter := line.letter
          rw [same] at letter
          exact absurd letter (by decide)
        rw [pastArguments?, skip_blanks_line]
        simp [Line.chars, other]
      have regrouped : written name none ++ ' ' :: line.chars =
          '@' :: name.first :: name.rest ++ ' ' :: line.chars := by
        simp [written]
      rw [regrouped, strip_name name (by simp; decide), skipAfterName, noArguments,
        Option.getD_none, skip_blanks_line]
      exact kept
  | some inside =>
      have regrouped : written name (some inside) ++ ' ' :: line.chars =
          '@' :: name.first :: name.rest ++ ('(' :: inside ++ ')' :: ' ' :: line.chars) := by
        simp [written]
      have opens : pastArguments? ('(' :: inside ++ ')' :: ' ' :: line.chars) =
          pastClosing? (inside ++ ')' :: ' ' :: line.chars) := rfl
      rw [regrouped, strip_name name (by simp; decide), skipAfterName, opens]
      cases found : pastClosing? inside with
      | none =>
          rw [past_closing_first (past_closing_eq_none.1 found), Option.getD_some,
            skip_blanks_line, kept]
          simp [residue, found]
      | some tail =>
          have closes : Closes (skipBlanks tail) :=
            (closes_of_parens (paired inside rfl)).2.of_suffix
              ((skip_blanks_suffix tail).trans (past_closing_suffix found))
          rw [past_closing_append found, Option.getD_some, skip_blanks_closing,
            strip_closing closes, space]
          simp [residue, found]

open Token

theorem append_inj_of_size {front back front' back' : List Char}
    (same : front ++ back = front' ++ back')
    (sizes : (String.ofList front).utf8ByteSize = (String.ofList front').utf8ByteSize) :
    front = front' ∧ back = back' := by
  have empty : ∀ {first extra : List Char}, (String.ofList (first ++ extra)).utf8ByteSize =
      (String.ofList first).utf8ByteSize → extra = [] := by
    intro first extra size
    rw [String.ofList_append, String.utf8ByteSize_append] at size
    have none : (String.ofList extra).utf8ByteSize = 0 := by omega
    simpa using none
  rcases List.append_eq_append_iff.1 same with ⟨extra, rfl, rfl⟩ | ⟨extra, rfl, rfl⟩
  · obtain rfl := empty sizes.symm
    simp
  · obtain rfl := empty sizes
    simp

/-- An error at a byte says that nothing can be read from there. -/
theorem stuck_of_error {front back : List Char} {text : String}
    (failed : scanFrom 0 (front ++ back) =
      .error ⟨text, (String.ofList front).utf8ByteSize⟩) : Stuck back := by
  obtain ⟨tokens, rest, munches, ends⟩ := exists_munches 0 (front ++ back)
  rw [munches.scan_from] at failed
  rcases ends with rfl | stuck
  · rw [scan_from_nil] at failed
    contradiction
  · rw [scan_from_stuck _ stuck] at failed
    have position : 0 + (sourceText tokens).utf8ByteSize = (String.ofList front).utf8ByteSize :=
      congrArg ScanError.position (Except.error.inj failed)
    have whole := munches.whole
    have sizes : (String.ofList front).utf8ByteSize =
        (String.ofList (sourceText tokens).toList).utf8ByteSize := by
      rw [String.ofList_toList]
      omega
    rw [(append_inj_of_size whole sizes).2]
    exact stuck

/-- A word of so many letters and one more, and then a letter that no word has. -/
def breakingLine (count : Nat) : Line where
  first := 'x'
  rest := List.replicate count 'x' ++ ['é']
  letter := by decide
  unmarked := by simp [List.mem_replicate]

theorem letters_size (count : Nat) :
    (String.ofList (List.replicate count 'x')).utf8ByteSize = count := by
  induction count with
  | zero => rfl
  | succ count induction =>
      have one : 'x'.utf8Size = 1 := by decide
      rw [List.replicate_succ, String.ofList_cons, String.utf8ByteSize_append, induction,
        String.utf8ByteSize_singleton, one, Nat.add_comm]

theorem scan_breaking_line (count : Nat) :
    scanFrom 0 (breakingLine count).chars = .error ⟨"é", count + 1⟩ := by
  have wordChars : ∀ c ∈ List.replicate count 'x', isWordChar c = true := by
    intro c member
    rw [List.eq_of_mem_replicate member]
    decide
  have found : lexeme? (List.replicate (count + 1) 'x' ++ ['é']) =
      some (.identifier, (List.replicate (count + 1) 'x').length) := by
    have foreign : wordTail ['é'] = 0 := by decide
    rw [List.replicate_succ, List.cons_append, lexeme?, if_neg (by decide), if_pos (by decide),
      word_tail_append wordChars, foreign]
    rfl
  have cut := cut_of_lexeme found
  rw [← @String.toList_ofList (List.replicate (count + 1) 'x')] at cut
  have foreign : Stuck ['é'] := stuck_iff_lexeme_none.2 ⟨by decide, by decide⟩
  have scanned := scan_from_cut 0 cut
  rw [scan_from_stuck _ foreign, String.toList_ofList, letters_size, Nat.zero_add] at scanned
  exact scanned

def Line.text (line : Line) : String := String.ofList line.chars

def annotated (name : Name) (arguments : Option (List Char)) (line : Line) : String :=
  String.ofList (written name arguments ++ ' ' :: line.chars)

theorem parse_of_prepared {text : String} {cs : List Char}
    (prepared : Language.java.prepare text = String.ofList cs) :
    Language.java.parse text =
      ((scanFrom 0 cs).map significant).map Language.java.recognize := by
  rw [Language.parse, Language.tokens, prepared, scanSignificant, scan, String.toList_ofList]

theorem prepare_annotated (name : Name) (arguments : Option (List Char))
    (paired : ∀ inside ∈ arguments, Paired inside) (line : Line) :
    Language.java.prepare (annotated name arguments line) =
      String.ofList (residue arguments ++ line.chars) := by
  rw [Language.prepare, removed, annotated, String.toList_ofList,
    strip_written name arguments paired line]

theorem prepare_line (line : Line) :
    Language.java.prepare line.text = String.ofList line.chars := by
  have kept : strip line.chars = line.chars := strip_unmarked line.unmarked
  rw [Language.prepare, removed, Line.text, String.toList_ofList, kept]

theorem residue_eq_nil_iff {arguments : Option (List Char)} :
    residue arguments = [] ↔ ∀ inside ∈ arguments, ')' ∉ inside := by
  cases arguments with
  | none => simp [residue]
  | some inside =>
      cases found : pastClosing? inside with
      | none =>
          have absent := past_closing_eq_none.1 found
          simp [residue, found, absent]
      | some tail =>
          have present : ')' ∈ inside := by
            by_contra absent
            rw [past_closing_eq_none.2 absent] at found
            contradiction
          simp [residue, found, present]

theorem line_readable (line : Line) : lexeme? line.chars ≠ none := by
  have starts : isWordStart line.first = true := by simp [isWordStart, line.letter]
  rw [Line.chars, lexeme?, not_space_of_word_start starts, if_neg Bool.false_ne_true, if_pos starts]
  exact Option.some_ne_none _

theorem error_of_map {result : Except ScanError (List Token)} {error : ScanError}
    (failed : (result.map significant).map Language.java.recognize =
      ((Except.error error).map significant).map Language.java.recognize) :
    result = .error error := by
  cases result with
  | ok tokens => contradiction
  | error other => exact congrArg Except.error (Except.error.inj failed)

/-- With something left of an annotation, a line that breaks off as many bytes in as were left does
not break off there once it is annotated. -/
theorem exists_influenced {left : List Char} (remains : left ≠ []) :
    ∃ (line : Line) (error : ScanError), scanFrom 0 line.chars = .error error ∧
      scanFrom 0 (left ++ line.chars) ≠ .error error := by
  obtain ⟨count, size⟩ : ∃ count, (String.ofList left).utf8ByteSize = count + 1 := by
    refine Nat.exists_eq_succ_of_ne_zero ?_
    intro none
    exact remains (by simpa using none)
  refine ⟨breakingLine count, _, scan_breaking_line count, ?_⟩
  intro same
  rw [← size] at same
  have stuck := stuck_of_error same
  exact line_readable _ (stuck_iff_lexeme_none.1 stuck).2

/-- What is scanned is the residue of the arguments and then the line. So an annotation has no
influence on any line, its errors included, if and only if its arguments hold no parenthesis. -/
theorem annotation_vanishes_iff (name : Name) (arguments : Option (List Char))
    (paired : ∀ inside ∈ arguments, Paired inside) :
    (∀ line : Line, Language.java.prepare (annotated name arguments line) =
        String.ofList (residue arguments) ++ line.text) ∧
      ((∀ line : Line,
          Language.java.parse (annotated name arguments line) = Language.java.parse line.text) ↔
        ∀ inside ∈ arguments, ')' ∉ inside) := by
  have prepared := prepare_annotated name arguments paired
  refine ⟨fun line => (prepared line).trans String.ofList_append, ?_⟩
  rw [← residue_eq_nil_iff]
  constructor
  · intro same
    by_contra remains
    obtain ⟨line, error, broken, other⟩ := exists_influenced remains
    have failed := same line
    rw [parse_of_prepared (prepared line), parse_of_prepared (prepare_line line), broken]
      at failed
    exact other (error_of_map failed)
  · intro gone line
    rw [parse_of_prepared (prepared line), parse_of_prepared (prepare_line line), gone,
      List.nil_append]

theorem join_table_chars : ∀ c ∈ "oinTable".toList, isNameChar c = true :=
  List.all_eq_true.1 (by decide)

def nestedArguments : List Char :=
  "joinColumns = @JoinColumn(name = \"id\"), schema = \"s\"".toList

theorem join_table_residue :
    Paired nestedArguments ∧
      residue (some nestedArguments) = ", schema = \"s\") ".toList ∧
      ¬ ∀ line : Line,
        Language.java.parse (annotated
          ⟨'J', "oinTable".toList, by decide, join_table_chars, by decide⟩ (some nestedArguments)
          line) = Language.java.parse line.text := by
  have paired : Paired nestedArguments := by decide
  refine ⟨paired, by decide +kernel, ?_⟩
  rw [(annotation_vanishes_iff _ (some nestedArguments) (by simpa using paired)).2]
  decide

theorem join_table_named_by_type :
    Language.java.parse ("@JoinTable(joinColumns = @JoinColumn(name = \"id\"), schema = \"s\") " ++
        "private List<Tag> tags;") =
        .ok { name := "List", kind := .var, varType := some "schema" } ∧
      Language.java.parse "private List<Tag> tags;" =
        .ok { name := "tags", kind := .var, varType := some "List<Tag>" } :=
  ⟨by decide +kernel, by decide +kernel⟩

end DocComment.Annotation
