import DocComment.Comment.Line

/-!
A scan of a snippet meets characters that stand for themselves and fields. Stripping and the list of
tab stops both follow from what it meets, and a line written as a snippet is met again piece by
piece as long as its literal text has no dollar sign, whatever stands in its fields.
-/

namespace DocComment

namespace Field

inductive Part where
  | char (c : Char)
  | field (stop text : String)
  deriving DecidableEq, Repr

/-- The number of the field at the front, as it is spelled. -/
def stopSpelling (cs : List Char) : String :=
  String.ofList ((cs.drop 2).takeWhile Text.isDecimalDigit)

def parts (cs : List Char) : List Part :=
  match _found : read? cs with
  | some (text, rest) => .field (stopSpelling cs) (String.ofList text) :: parts rest
  | none =>
      match cs with
      | [] => []
      | c :: cs => .char c :: parts cs
termination_by cs.length
decreasing_by
  · exact read_shorter _found
  · simp

namespace Part

def plain : Part → List Char
  | .char c => [c]
  | .field _ text => text.toList

def stop? : Part → Option (String × String)
  | .char _ => none
  | .field stop text => some (stop, text)

end Part

/-- The tab stops of a snippet in the order in which they stand, each with its text. -/
def stops (snippet : String) : List (String × String) :=
  (parts snippet.toList).filterMap Part.stop?

theorem parts_of_read {cs text rest : List Char} (found : read? cs = some (text, rest)) :
    parts cs = .field (stopSpelling cs) (String.ofList text) :: parts rest := by
  rw [parts]
  split
  · next other =>
      rw [found] at other
      obtain ⟨rfl, rfl⟩ := Prod.mk.inj (Option.some.inj other)
      rfl
  · next none =>
      rw [found] at none
      contradiction

theorem parts_nil : parts [] = [] := by
  rw [parts]
  rfl

theorem parts_cons {c : Char} {cs : List Char} (none : read? (c :: cs) = none) :
    parts (c :: cs) = .char c :: parts cs := by
  rw [parts]
  split
  · next found =>
      rw [none] at found
      contradiction
  · rfl

theorem strip_chars_eq_parts (cs : List Char) : stripChars cs = (parts cs).flatMap Part.plain := by
  fun_induction stripChars cs with
  | case1 cs text rest found induction =>
      rw [parts_of_read found, List.flatMap_cons, ← induction, Part.plain, String.toList_ofList]
  | case2 none => rw [parts_nil, List.flatMap_nil]
  | case3 c cs none induction =>
      rw [parts_cons none, List.flatMap_cons, ← induction]
      rfl

theorem body_plain {c : Char} (inside : c ≠ '\x7d') (plain : c ≠ '\\') (cs : List Char) :
    body? (c :: cs) = (body? cs).map fun (text, rest) => (c :: text, rest) := by
  cases cs with
  | nil => simp [body?, inside]
  | cons d cs => rw [body?, if_neg inside, if_neg plain]

theorem body_escaped {c : Char} (other : c ≠ '\n') (cs : List Char) :
    body? ('\\' :: c :: cs) = (body? cs).map fun (text, rest) => (c :: text, rest) := by
  rw [body?, if_neg (by decide), if_pos rfl, if_neg other]

theorem body_end (cs : List Char) : body? ('\x7d' :: cs) = some ([], cs) := by
  cases cs <;> rfl

/-- The text of a field ends where it was closed, whatever it holds. -/
theorem body_escape_chars (text rest : List Char) :
    body? (escapeChars text ++ '\x7d' :: rest) = some (text, rest) := by
  induction text with
  | nil => exact body_end rest
  | cons c text induction =>
      rw [escapeChars, List.flatMap_cons, ← escapeChars, List.append_assoc]
      by_cases special : c = '\\' ∨ c = '$' ∨ c = '\x7d'
      · have other : c ≠ '\n' := by
          rcases special with rfl | rfl | rfl <;> decide
        rw [escapeChar, if_pos special]
        simp [body_escaped other, induction]
      · rw [escapeChar, if_neg special]
        simp only [not_or] at special
        simp [body_plain special.2.2 special.1, induction]

theorem decimal_of_digit {c : Char} (digit : c.isDigit = true) : Text.isDecimalDigit c = true := by
  have ascii := Char.isDigit_iff_toNat.1 digit
  simp only [Text.isDecimalDigit, List.any_eq_true]
  refine ⟨(0x30, 0x39), by decide, ?_⟩
  simpa using ascii

theorem decimals_of_stop (stop : Nat) :
    ∀ c ∈ (toString stop).toList, Text.isDecimalDigit c = true := by
  intro c member
  rw [Nat.toString_eq_ofList_toDigits, String.toList_ofList] at member
  exact decimal_of_digit (Nat.isDigit_of_mem_toDigits (by decide) (by decide) member)

/-- The number of a tab stop as it may be spelled: decimal digits of any script, at least one. -/
structure StopNumber where
  digits : String
  decimal : ∀ c ∈ digits.toList, Text.isDecimalDigit c = true
  nonempty : digits ≠ ""

namespace StopNumber

def ofNat (stop : Nat) : StopNumber := ⟨toString stop, decimals_of_stop stop, Nat.repr_ne_empty⟩

def field (stop : StopNumber) (text : String) : String :=
  "$\x7b" ++ stop.digits ++ ":" ++ escape text ++ "\x7d"

theorem take_digits (stop : StopNumber) (rest : List Char) :
    (stop.digits.toList ++ ':' :: rest).takeWhile Text.isDecimalDigit = stop.digits.toList := by
  have colon : ¬ Text.isDecimalDigit ':' = true := by decide
  rw [List.takeWhile_append_of_pos stop.decimal, List.takeWhile_cons_of_neg colon, List.append_nil]

theorem drop_digits (stop : StopNumber) (rest : List Char) :
    (stop.digits.toList ++ ':' :: rest).dropWhile Text.isDecimalDigit = ':' :: rest := by
  have colon : ¬ Text.isDecimalDigit ':' = true := by decide
  rw [List.dropWhile_append_of_pos stop.decimal, List.dropWhile_cons_of_neg colon]

theorem field_to_list (stop : StopNumber) (text : String) (rest : List Char) :
    (stop.field text).toList ++ rest =
      '$' :: '\x7b' ::
        (stop.digits.toList ++ ':' :: (escapeChars text.toList ++ '\x7d' :: rest)) := by
  simp [field, escape]

end StopNumber

/-- A field is read back, whatever its number and its text. -/
theorem read_field (stop : StopNumber) (text : String) (rest : List Char) :
    read? ((stop.field text).toList ++ rest) = some (text.toList, rest) := by
  rw [stop.field_to_list, read?, stop.take_digits, stop.drop_digits]
  cases digits : stop.digits.toList with
  | nil => exact absurd (String.toList_eq_nil_iff.1 digits) stop.nonempty
  | cons digit others => exact body_escape_chars text.toList rest

theorem parts_field (stop : StopNumber) (text : String) (rest : List Char) :
    parts ((stop.field text).toList ++ rest) = .field stop.digits text :: parts rest := by
  have spelled : stopSpelling ((stop.field text).toList ++ rest) = stop.digits := by
    rw [stop.field_to_list, stopSpelling, List.drop_succ_cons, List.drop_succ_cons, List.drop_zero,
      stop.take_digits, String.ofList_toList]
  rw [parts_of_read (read_field stop text rest), spelled, String.ofList_toList]

theorem parts_written (stop : Nat) (text : String) (rest : List Char) :
    parts ((written stop text).toList ++ rest) = .field (toString stop) text :: parts rest :=
  parts_field (.ofNat stop) text rest

theorem parts_literal {text : List Char} (free : '$' ∉ text) (rest : List Char) :
    parts (text ++ rest) = text.map .char ++ parts rest := by
  induction text with
  | nil => rfl
  | cons c text induction =>
      rw [List.mem_cons, not_or] at free
      have none : read? (c :: (text ++ rest)) = none := by
        rw [read?]
        intro _ sign
        exact absurd (List.cons.inj sign).1.symm free.1
      rw [List.cons_append, parts_cons none, induction free.2]
      rfl

end Field

namespace Comment.Line

def plain : Line → String
  | [] => ""
  | piece :: rest => piece.plain ++ plain rest

def fieldTexts : Line → List String
  | [] => []
  | .literal _ :: rest => fieldTexts rest
  | .field text :: rest => text :: fieldTexts rest

/-- No literal text of the line has a dollar sign. -/
def DollarFree (line : Line) : Prop :=
  ∀ text, .literal text ∈ line → '$' ∉ text.toList

def parts (stop : Nat) : Line → List Field.Part
  | [] => []
  | .literal text :: rest => text.toList.map .char ++ parts stop rest
  | .field text :: rest => .field (toString stop) text :: parts (stop + 1) rest

/-- A scan meets the pieces of a line again. -/
theorem parts_snippet {line : Line} (free : line.DollarFree) (stop : Nat) (rest : List Char) :
    Field.parts ((line.snippet stop).toList ++ rest) = line.parts stop ++ Field.parts rest := by
  induction line generalizing stop with
  | nil => rfl
  | cons piece line induction =>
      have others : DollarFree line := fun text member => free text (by simp [member])
      cases piece with
      | literal text =>
          rw [snippet, String.toList_append, List.append_assoc,
            Field.parts_literal (free text (by simp)), induction others, parts, List.append_assoc]
      | field text =>
          rw [snippet, String.toList_append, List.append_assoc, Field.parts_written,
            induction others, parts, List.cons_append]

theorem parts_whole_snippet {line : Line} (free : line.DollarFree) (stop : Nat) :
    Field.parts (line.snippet stop).toList = line.parts stop := by
  have met := parts_snippet free stop []
  rwa [Field.parts_nil, List.append_nil, List.append_nil] at met

theorem plain_parts (line : Line) (stop : Nat) :
    (line.parts stop).flatMap Field.Part.plain = line.plain.toList := by
  induction line generalizing stop with
  | nil => rfl
  | cons piece line induction =>
      cases piece with
      | literal text =>
          rw [parts, List.flatMap_append, induction, plain, String.toList_append, List.flatMap_map]
          simp [Field.Part.plain, Piece.plain]
      | field text =>
          rw [parts, List.flatMap_cons, induction, plain, String.toList_append]
          rfl

theorem strip_snippet {line : Line} (free : line.DollarFree) (stop : Nat) :
    Field.strip (line.snippet stop) = line.plain := by
  rw [Field.strip, Field.strip_chars_eq_parts, parts_whole_snippet free, plain_parts,
    String.ofList_toList]

def numbered (stop : Nat) : List String → List (String × String)
  | [] => []
  | text :: rest => (toString stop, text) :: numbered (stop + 1) rest

theorem stops_parts (line : Line) (stop : Nat) :
    (line.parts stop).filterMap Field.Part.stop? = numbered stop line.fieldTexts := by
  induction line generalizing stop with
  | nil => rfl
  | cons piece line induction =>
      cases piece with
      | literal text =>
          rw [parts, List.filterMap_append, induction, fieldTexts, List.filterMap_map]
          simp [Function.comp_def, Field.Part.stop?]
      | field text =>
          rw [parts, fieldTexts, numbered, ← induction]
          rfl

theorem stops_snippet {line : Line} (free : line.DollarFree) (stop : Nat) :
    Field.stops (line.snippet stop) = numbered stop line.fieldTexts := by
  rw [Field.stops, parts_whole_snippet free, stops_parts]

end Comment.Line

end DocComment
