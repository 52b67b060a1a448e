import DocComment.Proofs.AnnotationResidue

/-!
Annotations whose arguments hold no closing parenthesis. Any number of them may stand in a text, at
any place in it. The main statement is that they all go, each with the white space behind it, and
that nothing else does.
-/

namespace DocComment.Annotation

/-- Arguments that end at the first closing parenthesis, with the white space ahead of them. -/
structure FlatArguments where
  gap : List Char
  inside : List Char
  blank : ∀ c ∈ gap, Text.isBlank c = true
  unclosed : ')' ∉ inside

def FlatArguments.chars (arguments : FlatArguments) : List Char :=
  arguments.gap ++ '(' :: arguments.inside ++ [')']

structure FlatAnnotation where
  name : Name
  arguments : Option FlatArguments

def FlatAnnotation.chars (flat : FlatAnnotation) : List Char :=
  '@' :: flat.name.first :: flat.name.rest ++
    flat.arguments.elim [] FlatArguments.chars

/-- The text neither goes on with a name ahead of it nor starts with arguments. -/
def EndsName (text : List Char) : Prop :=
  (∀ c ∈ text.head?, isNameChar c = false) ∧ (text.dropWhile Text.isBlank).head? ≠ some '('

structure Segment where
  flat : FlatAnnotation
  text : List Char
  unmarked : '@' ∉ text
  ends : flat.arguments = none → EndsName text

def Segment.chars (segment : Segment) : List Char := segment.flat.chars ++ segment.text

def Segment.kept (segment : Segment) : List Char := segment.text.dropWhile Text.isBlank

theorem name_char_not_blank {c : Char} (nameChar : isNameChar c = true) :
    Text.isBlank c = false := by
  simp only [isNameChar, Char.isAlphanum, Bool.or_eq_true, beq_iff_eq] at nameChar
  rcases nameChar with ((letter | digit) | rfl) | rfl
  · exact letter_not_blank letter
  · have bounds : 48 ≤ c.toNat ∧ c.toNat ≤ 57 := by simpa using Char.isDigit_iff_toNat.1 digit
    apply printable_not_blank <;> omega
  · decide
  · decide

theorem FlatArguments.ends_name (arguments : FlatArguments) (rest : List Char) :
    ∀ c ∈ (arguments.chars ++ rest).head?, isNameChar c = false := by
  rw [FlatArguments.chars]
  cases spelled : arguments.gap with
  | nil => simp; decide
  | cons blank gap =>
      have isBlank : Text.isBlank blank = true := arguments.blank blank (by simp [spelled])
      intro c head
      obtain rfl : blank = c := by simpa using head
      rw [Bool.eq_false_iff]
      intro nameChar
      rw [name_char_not_blank nameChar] at isBlank
      contradiction

/-- White space is skipped up to a mark. -/
theorem skip_blanks_before_mark (text : List Char) {rest : List Char}
    (marked : ∀ c ∈ rest.head?, c = '@') :
    skipBlanks (text ++ rest) = skipBlanks text ++ rest := by
  have stopped : rest.dropWhile Text.isBlank = rest := by
    cases rest with
    | nil => rfl
    | cons c rest =>
        obtain rfl := marked c rfl
        exact List.dropWhile_cons_of_neg (by decide)
  induction text with
  | nil => exact stopped
  | cons c text induction =>
      rw [skipBlanks] at induction ⊢
      by_cases blank : Text.isBlank c = true
      · rw [List.cons_append, List.dropWhile_cons_of_pos blank, induction, skipBlanks, skipBlanks,
          List.dropWhile_cons_of_pos blank]
      · rw [List.cons_append, List.dropWhile_cons_of_neg blank, skipBlanks,
          List.dropWhile_cons_of_neg blank, List.cons_append]

theorem FlatArguments.past (arguments : FlatArguments) (rest : List Char) :
    pastArguments? (arguments.chars ++ rest) = some rest := by
  have opening : skipBlanks (arguments.chars ++ rest) = '(' :: (arguments.inside ++ ')' :: rest) := by
    rw [skipBlanks, FlatArguments.chars]
    simp only [List.append_assoc, List.cons_append, List.nil_append]
    rw [List.dropWhile_append_of_pos arguments.blank]
    exact List.dropWhile_cons_of_neg (by decide)
  rw [pastArguments?, opening]
  exact past_closing_first arguments.unclosed rest

theorem EndsName.no_arguments {text rest : List Char} (ends : EndsName text)
    (marked : ∀ c ∈ rest.head?, c = '@') : pastArguments? (text ++ rest) = none := by
  have skipped : (skipBlanks (text ++ rest)).head? ≠ some '(' := by
    rw [skip_blanks_before_mark text marked, List.head?_append]
    intro opens
    rcases Option.or_eq_some_iff.1 opens with within | ⟨_, behind⟩
    · exact ends.2 within
    · exact absurd (marked '(' behind) (by decide)
  rw [pastArguments?]
  split
  · next inside same =>
      rw [same] at skipped
      exact absurd rfl skipped
  · rfl

/-- What a flat annotation takes with it is itself and the white space behind it. -/
theorem strip_segment (segment : Segment) {rest : List Char}
    (marked : ∀ c ∈ rest.head?, c = '@') :
    strip (segment.chars ++ rest) = segment.kept ++ strip rest := by
  have keptUnmarked : '@' ∉ skipBlanks segment.text := fun member =>
    segment.unmarked ((List.dropWhile_sublist _).subset member)
  have behind : strip (skipBlanks (segment.text ++ rest)) = segment.kept ++ strip rest := by
    rw [skip_blanks_before_mark segment.text marked, strip_unmarked_append keptUnmarked]
    rfl
  rw [Segment.chars, FlatAnnotation.chars]
  cases given : segment.flat.arguments with
  | none =>
      have ends := segment.ends given
      have stops : ∀ c ∈ (segment.text ++ rest).head?, isNameChar c = false := by
        intro c head
        rw [List.head?_append] at head
        rcases Option.or_eq_some_iff.1 head with within | ⟨_, next⟩
        · exact ends.1 c within
        · obtain rfl := marked c next
          decide
      rw [Option.elim_none, List.append_nil, List.append_assoc, strip_name _ stops, skipAfterName,
        ends.no_arguments marked, Option.getD_none, behind]
  | some arguments =>
      rw [Option.elim_some, List.append_assoc, List.append_assoc,
        strip_name _ (arguments.ends_name _), skipAfterName, arguments.past, Option.getD_some, behind]

theorem segments_marked (segments : List Segment) :
    ∀ c ∈ (segments.flatMap Segment.chars).head?, c = '@' := by
  intro c head
  cases segments with
  | nil => simp at head
  | cons segment segments =>
      simpa [Segment.chars, FlatAnnotation.chars] using head.symm

theorem strip_segments (segments : List Segment) :
    strip (segments.flatMap Segment.chars) = segments.flatMap Segment.kept := by
  induction segments with
  | nil => exact strip_unmarked List.not_mem_nil
  | cons segment segments induction =>
      rw [List.flatMap_cons, strip_segment segment (segments_marked segments), induction,
        List.flatMap_cons]

/-- Preparing a line removes its flat annotations, however many there are, with the white space
behind each, and keeps all the rest of the text. -/
theorem flat_annotations_removed (lead : List Char) (unmarked : '@' ∉ lead)
    (segments : List Segment) :
    Language.java.prepare (String.ofList (lead ++ segments.flatMap Segment.chars)) =
        String.ofList (lead ++ segments.flatMap Segment.kept) ∧
      ∀ line : String, '@' ∉ line.toList → Language.java.prepare line = line := by
  constructor
  · rw [Language.prepare, removed, String.toList_ofList, strip_unmarked_append unmarked,
      strip_segments]
  · intro line free
    rw [Language.prepare, removed, strip_unmarked free, String.ofList_toList]

/-- `@A`, and then a space and an ideographic one. -/
def bareSegment : Segment where
  flat := ⟨⟨'A', [], by decide, by simp, by decide⟩, none⟩
  text := [' ', '\u3000']
  unmarked := by decide
  ends _ := ⟨by simp; decide, by decide⟩

def argumentSegment : Segment where
  flat := ⟨⟨'b', ['.', 'C', '1'], by decide, List.all_eq_true.mp (by decide), by decide⟩,
    some ⟨['\t'], "v = @D(1\n".toList, List.all_eq_true.mp (by decide), by decide⟩⟩
  text := " int f();".toList
  unmarked := by decide
  ends given := nomatch given

theorem two_flat_annotations_removed :
    '@' ∉ "x ".toList ∧
      Language.java.prepare "x @A \u3000@b.C1\t(v = @D(1\n) int f();" = "x int f();" ∧
      Language.java.prepare "x int f();" = "x int f();" := by
  have unmarked : '@' ∉ "x ".toList := by decide
  obtain ⟨removed, kept⟩ :=
    flat_annotations_removed "x ".toList unmarked [bareSegment, argumentSegment]
  have written : String.ofList ("x ".toList ++ [bareSegment, argumentSegment].flatMap Segment.chars) =
      "x @A \u3000@b.C1\t(v = @D(1\n) int f();" := by decide +kernel
  have left : String.ofList ("x ".toList ++ [bareSegment, argumentSegment].flatMap Segment.kept) =
      "x int f();" := by decide +kernel
  rw [written, left] at removed
  exact ⟨unmarked, removed, kept "x int f();" (by decide)⟩

end DocComment.Annotation
