import DocComment.Text.Blank

/-!
Annotations ahead of a declaration: an at sign, a dotted name and perhaps arguments in parentheses.
They are removed before the line is scanned, with the white space after them. `@interface` is no
annotation but declares one, and stays as the word `interface`.
-/

namespace DocComment.Annotation

def isNameStart (c : Char) : Bool := c.isAlpha || c == '_'

def isNameChar (c : Char) : Bool := c.isAlphanum || c == '_' || c == '.'

def skipBlanks (cs : List Char) : List Char := cs.dropWhile Text.isBlank

def pastClosing? : List Char → Option (List Char)
  | [] => none
  | c :: cs => if c = ')' then some cs else pastClosing? cs

/-- What follows an argument list, if the text starts with a complete one. -/
def pastArguments? (cs : List Char) : Option (List Char) :=
  match skipBlanks cs with
  | '(' :: inside => pastClosing? inside
  | _ => none

/-- The text after an annotation's name, with arguments and white space skipped. -/
def skipAfterName (cs : List Char) : List Char :=
  skipBlanks ((pastArguments? cs).getD cs)

theorem skip_blanks_length (cs : List Char) : (skipBlanks cs).length ≤ cs.length :=
  (List.dropWhile_sublist _).length_le

theorem past_closing_length {cs rest : List Char} (found : pastClosing? cs = some rest) :
    rest.length < cs.length := by
  induction cs with
  | nil => simp [pastClosing?] at found
  | cons c cs induction =>
      simp only [pastClosing?] at found
      split at found
      · simp_all
      · have shorter := induction found
        simp only [List.length_cons]
        omega

theorem skip_after_name_length (cs : List Char) : (skipAfterName cs).length ≤ cs.length := by
  have blanks := skip_blanks_length cs
  refine Nat.le_trans (skip_blanks_length _) ?_
  unfold pastArguments?
  split
  · next inside same =>
      cases found : pastClosing? inside with
      | none => simp
      | some rest =>
          have shorter := past_closing_length found
          simp only [same, List.length_cons] at blanks
          simp only [Option.getD_some]
          omega
  · simp

def strip : List Char → List Char
  | [] => []
  | '@' :: c :: cs =>
      if isNameStart c then
        let name := c :: cs.takeWhile isNameChar
        let kept := if name = "interface".toList then "interface ".toList else []
        kept ++ strip (skipAfterName (cs.dropWhile isNameChar))
      else '@' :: strip (c :: cs)
  | c :: cs => c :: strip cs
termination_by cs => cs.length
decreasing_by
  · have rest := (List.dropWhile_sublist isNameChar (l := cs)).length_le
    have shorter := skip_after_name_length (cs.dropWhile isNameChar)
    simp only [List.length_cons]
    omega
  · simp
  · simp

def removed (line : String) : String := String.ofList (strip line.toList)

end DocComment.Annotation
