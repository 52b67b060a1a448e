import DocComment.Text.DecimalDigit

/-!
Fields of a snippet: a tab stop with a text to start from, written as a dollar sign and, in braces,
the number of the stop, a colon and the text. Inside a field a backslash stands in front of every
backslash, dollar sign and closing brace. Stripping puts the texts in place of the fields.
-/

namespace DocComment.Field

def escapeChar (c : Char) : List Char :=
  if c = '\\' ∨ c = '$' ∨ c = '\x7d' then ['\\', c] else [c]

def escapeChars (cs : List Char) : List Char := cs.flatMap escapeChar

def escape (text : String) : String := String.ofList (escapeChars text.toList)

def written (stop : Nat) (text : String) : String :=
  "$\x7b" ++ toString stop ++ ":" ++ escape text ++ "\x7d"

/-- The text of a field and what follows it, from behind the colon. A backslash takes any character
but a line feed. -/
def body? : List Char → Option (List Char × List Char)
  | [] => none
  | [c] => if c = '\x7d' then some ([], []) else none
  | c :: d :: cs =>
      if c = '\x7d' then some ([], d :: cs)
      else if c = '\\' then
        if d = '\n' then none else (body? cs).map fun (text, rest) => (d :: text, rest)
      else (body? (d :: cs)).map fun (text, rest) => (c :: text, rest)

def read? : List Char → Option (List Char × List Char)
  | '$' :: '\x7b' :: cs =>
      match cs.takeWhile Text.isDecimalDigit, cs.dropWhile Text.isDecimalDigit with
      | _ :: _, ':' :: body => body? body
      | _, _ => none
  | _ => none

theorem body_shorter {cs text rest : List Char} (found : body? cs = some (text, rest)) :
    rest.length < cs.length := by
  fun_induction body? cs generalizing text rest with
  | case1 => simp at found
  | case2 => simp_all
  | case3 => simp at found
  | case4 => simp_all
  | case5 => simp at found
  | case6 d cs _ _ ih =>
      obtain ⟨⟨inner, after⟩, same, pair⟩ := Option.map_eq_some_iff.1 found
      have shorter := ih same
      simp_all only [Prod.mk.injEq, List.length_cons]
      omega
  | case7 c d cs _ _ ih =>
      obtain ⟨⟨inner, after⟩, same, pair⟩ := Option.map_eq_some_iff.1 found
      have shorter := ih same
      simp_all only [Prod.mk.injEq, List.length_cons]
      omega

theorem read_shorter {cs text rest : List Char} (found : read? cs = some (text, rest)) :
    rest.length < cs.length := by
  unfold read? at found
  split at found
  · next cs =>
      split at found
      · next body _ same =>
          have inner := body_shorter found
          have outer := (List.dropWhile_sublist Text.isDecimalDigit (l := cs)).length_le
          simp only [same, List.length_cons] at outer ⊢
          omega
      · simp at found
  · simp at found

def stripChars (cs : List Char) : List Char :=
  match _found : read? cs with
  | some (text, rest) => text ++ stripChars rest
  | none =>
      match cs with
      | [] => []
      | c :: cs => c :: stripChars cs
termination_by cs.length
decreasing_by
  · exact read_shorter _found
  · simp

def strip (snippet : String) : String := String.ofList (stripChars snippet.toList)

end DocComment.Field
