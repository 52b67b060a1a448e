import DocComment.Proofs.SnippetFields

/-!
Texts put together from literal text and fields, in any order and with any numbers. The main
statement is that stripping such a text leaves the literal text and the texts of the fields, whatever
stands in the fields.
-/

namespace DocComment.Field

/-- Literal text without a dollar sign, or a field. -/
inductive Fragment where
  | literal (text : String) (free : '$' ∉ text.toList)
  | field (stop : StopNumber) (text : String)

namespace Fragment

def snippet : Fragment → String
  | .literal text _ => text
  | .field stop text => stop.field text

def plain : Fragment → String
  | .literal text _ => text
  | .field _ text => text

def parts : Fragment → List Part
  | .literal text _ => text.toList.map .char
  | .field stop text => [.field stop.digits text]

theorem plain_parts (fragment : Fragment) :
    fragment.parts.flatMap Part.plain = fragment.plain.toList := by
  cases fragment with
  | literal text free => simp [parts, plain, List.flatMap_map, Part.plain]
  | field stop text => simp [parts, plain, Part.plain]

def snippets : List Fragment → String
  | [] => ""
  | fragment :: rest => fragment.snippet ++ snippets rest

def plains : List Fragment → String
  | [] => ""
  | fragment :: rest => fragment.plain ++ plains rest

theorem parts_snippet (fragment : Fragment) (rest : List Char) :
    Field.parts (fragment.snippet.toList ++ rest) = fragment.parts ++ Field.parts rest := by
  cases fragment with
  | literal text free => exact parts_literal free rest
  | field stop text => exact parts_field stop text rest

/-- A scan meets the fragments again, one by one. -/
theorem parts_snippets (fragments : List Fragment) :
    Field.parts (snippets fragments).toList = fragments.flatMap parts := by
  induction fragments with
  | nil => exact parts_nil
  | cons fragment rest induction =>
      rw [snippets, String.toList_append, parts_snippet, induction, List.flatMap_cons]

theorem plains_parts (fragments : List Fragment) :
    (fragments.flatMap parts).flatMap Part.plain = (plains fragments).toList := by
  induction fragments with
  | nil => rfl
  | cons fragment rest induction =>
      rw [List.flatMap_cons, List.flatMap_append, plain_parts, induction, plains,
        String.toList_append]

end Fragment

/-- Stripping undoes the writing of fields: literal text stays, and each field gives back the text it
was written for. -/
theorem strip_undoes_fields :
    (∀ fragments : List Fragment,
        strip (Fragment.snippets fragments) = Fragment.plains fragments) ∧
      ∀ (stop : StopNumber) (text : String),
        strip ("$\x7b" ++ stop.digits ++ ":" ++ escape text ++ "\x7d") = text := by
  have stripped : ∀ fragments : List Fragment,
      strip (Fragment.snippets fragments) = Fragment.plains fragments := by
    intro fragments
    rw [strip, strip_chars_eq_parts, Fragment.parts_snippets, Fragment.plains_parts,
      String.ofList_toList]
  refine ⟨stripped, ?_⟩
  intro stop text
  have single := stripped [.field stop text]
  simpa [Fragment.snippets, Fragment.plains, Fragment.snippet, Fragment.plain, StopNumber.field]
    using single

example : strip "a\x7d$\x7b07:\\$\x7b1:x\\\x7d\\\\\n\\\x7d\x7d$\x7b\u0663:\x7d\n" =
    "a\x7d$\x7b1:x\x7d\\\n\x7d\n" := by
  decide +kernel

end DocComment.Field
