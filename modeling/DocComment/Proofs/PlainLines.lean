import DocComment.Proofs.CommentLines
import DocComment.Proofs.TypeExpression

/-!
The lines of a comment without its fields. Lines are trimmed while their fields still have braces,
so white space at the end of a field is seen once the fields are stripped. Names end visibly and so
do descriptions; a type may end in the space after a comma, and only the wrapped style ends a line
in a type.
-/

namespace DocComment

def Symbol.shownType? (symbol : Symbol) : Option String :=
  match symbol.kind with
  | .function => if symbol.returns.present then symbol.returns.type else none
  | .var => symbol.varType
  | .classLike | .unset => none

namespace Text

theorem last_char_of_nonempty {text : String} (nonempty : text ≠ "") :
    ∃ c ∈ text.toList, lastChar? text = some c := by
  have some : text.toList ≠ [] := by simpa using nonempty
  exact ⟨text.toList.getLast some, List.getLast_mem some, List.getLast?_eq_some_getLast some⟩

end Text

namespace Comment

namespace Line

section

variable {line : Line} (unbroken : line.Unbroken)
include unbroken

theorem plain_unbroken : '\n' ∉ line.plain.toList := by
  induction line with
  | nil => simp [plain]
  | cons piece line induction =>
      have others : Unbroken line := fun other member => unbroken other (by simp [member])
      have first := unbroken piece (by simp)
      simp [plain, first, induction others]

theorem plain_trimmed_unbroken : '\n' ∉ line.trimmed.plain.toList := by
  unfold trimmed
  split
  · next text =>
      intro member
      rw [unbroken_literal] at unbroken
      apply unbroken.1
      apply Text.mem_of_mem_trim_end
      simpa [plain, Piece.plain] using member
  · exact plain_unbroken unbroken

end

/-- What the reader sees of the line does not end in white space. -/
def Tidy (line : Line) : Prop := Text.trimEnd line.plain = line.plain

theorem tidy_snoc (front : Line) (last : Piece) {c : Char}
    (ends : Text.lastChar? last.plain = some c) :
    Tidy (front ++ [last]) ↔ Text.isBlank c = false := by
  rw [Tidy, Text.trim_end_eq_iff, plain_append, plain, plain, String.append_empty,
    Text.last_char_append, ends]
  simp

theorem tidy_trimmed_marker (marker : String) : Tidy (trimmed [.literal marker]) := by
  rw [Tidy, plain_trimmed_marker, Text.trim_end_trim_end]

end Line

namespace Layout

open Line

variable {layout : Layout} {symbol : Symbol}

theorem lines_strip_render (free : ∀ marker ∈ layout.settings.markers.all, '$' ∉ marker.toList)
    (unbroken : ∀ line ∈ layout.lines symbol, line.Unbroken) :
    Text.lines (Field.strip (layout.render symbol)) =
      (layout.lines symbol).map fun line => line.trimmed.plain := by
  rw [render_eq_snippet, strip_snippet (dollar_free_lines symbol free), plain_joined,
    List.map_map]
  apply Text.lines_join_with
  · simpa using lines_nonempty layout symbol
  · intro text member
    obtain ⟨line, listed, rfl⟩ := List.mem_map.1 member
    exact plain_trimmed_unbroken (unbroken line listed)

/-- Markers that stand alone are trimmed, so all depends on the lines of the sections. -/
theorem lines_tidy_iff :
    (∀ line ∈ layout.lines symbol, line.trimmed.Tidy) ↔
      (symbol.isRecognized = true → ∀ lines ∈ layout.sections symbol, ∀ line ∈ lines,
        Tidy (.literal layout.settings.markers.separator :: line)) := by
  rw [forall_lines_iff fun marker _ => tidy_trimmed_marker marker]
  constructor
  all_goals
    intro tidy recognized lines listed line inside
    have content := layout.sections_content symbol lines listed line inside
    have whole := trimmed_visible
      (visible_cons content.visible (.literal layout.settings.markers.separator))
  · rw [← whole]
    exact tidy recognized lines listed line inside
  · rw [whole]
    exact tidy recognized lines listed line inside

theorem last_char_description (front : String) :
    Text.lastChar? (front ++ " description]") = some ']' := by
  rw [Text.last_char_append]
  rfl

theorem last_char_param_description (param : Symbol.Param) :
    Text.lastChar? (paramDescription param) = some ']' := by
  unfold paramDescription
  split
  · exact last_char_description _
  · rfl

theorem param_name_ends_visibly {param : Symbol.Param} (fits : param.Inline) :
    ∃ c, Text.lastChar? (paramName param) = some c ∧ Text.isBlank c = false := by
  unfold paramName
  split
  · next named =>
      obtain ⟨c, member, last⟩ := Text.last_char_of_nonempty (bne_iff_ne.1 named)
      exact ⟨c, last, fits.name c member⟩
  · exact ⟨']', rfl, by decide⟩

theorem param_lines_tidy (inline : symbol.Inline) (first : Piece) :
    ∀ line ∈ layout.paramLines symbol, Tidy (first :: line) := by
  intro line member
  unfold paramLines at member
  split at member
  · obtain ⟨param, _, rfl⟩ := List.mem_map.1 member
    exact (tidy_snoc (first :: (_ ++ _ ++ _)) (.field _) (last_char_param_description param)).2 rfl
  · obtain ⟨param, listed, inside⟩ := List.mem_flatMap.1 member
    simp only [wrappedParam, List.mem_cons, List.not_mem_nil, or_false] at inside
    rcases inside with rfl | rfl
    · obtain ⟨c, last, visible⟩ := param_name_ends_visibly (inline.params param listed)
      exact (tidy_snoc [first, _, _, _] (.field _) last).2 visible
    · exact (tidy_snoc [first, _] (.field _) (last_char_param_description param)).2 rfl

section

variable (placeholder : ∃ c, Text.lastChar? layout.settings.typePlaceholder = some c ∧
  Text.isBlank c = false)
include placeholder

/-- A type has no white space but spaces, so it ends visibly unless it ends in one. -/
theorem tidy_type_iff {type : Option String} (spelled : ∀ text ∈ type, TypeText.Spelled text)
    (front : Line) :
    Tidy (front ++ [.field (layout.typeText type)]) ↔
      ∀ text ∈ type, Text.lastChar? text ≠ some ' ' := by
  cases type with
  | none =>
      obtain ⟨c, last, visible⟩ := placeholder
      simpa [typeText] using (tidy_snoc front (.field _) last).2 visible
  | some text =>
      have fits := spelled text rfl
      obtain ⟨c, member, last⟩ := Text.last_char_of_nonempty fits.nonempty
      have spaced : Text.isBlank c = true ↔ c = ' ' := by
        refine ⟨fits.inline c member, ?_⟩
        rintro rfl
        decide
      rw [typeText, Option.getD_some, tidy_snoc front (.field text) last, ← Bool.not_eq_true,
        spaced]
      simp [last]

theorem return_lines_tidy_iff (inline : symbol.Inline) (first : Piece) :
    (∀ line ∈ layout.returnLines symbol, Tidy (first :: line)) ↔
      (layout.settings.commentStyle = .wrapped → symbol.returns.present = true →
        ∀ type ∈ symbol.returns.type, Text.lastChar? type ≠ some ' ') := by
  have description : Text.lastChar? returnDescription = some ']' := rfl
  unfold returnLines
  split
  · next shown =>
      split
      · next aligned =>
          have tidy : Tidy (first :: layout.alignedReturn (layout.columns symbol) symbol.returns) :=
            (tidy_snoc (first :: (_ ++ _)) (.field _) description).2 rfl
          simp [aligned, tidy]
      · next wrapped =>
          have tidy : Tidy [first, .literal "  ", .field returnDescription] :=
            (tidy_snoc [first, _] (.field _) description).2 rfl
          have typed := tidy_type_iff placeholder inline.returnType
            [first, .literal (layout.language.returnTag ++ " ")]
          have present := ((shows_return_iff layout symbol).1 shown).1
          simpa [wrapped, wrappedReturn, tidy, present] using typed
  · next hidden =>
      -- The setting can only hide a return whose type is not known.
      have untyped : symbol.returns.present = true → symbol.returns.type = none := by
        intro present
        by_contra typed
        exact hidden ((shows_return_iff layout symbol).2 ⟨present, .inr typed⟩)
      simp only [List.not_mem_nil, false_implies, implies_true, true_iff]
      intro _ present type typed
      rw [untyped present] at typed
      contradiction

theorem variable_lines_tidy_iff (inline : symbol.Inline) (first : Piece) :
    (∀ line ∈ layout.variableLines symbol, Tidy (first :: line)) ↔
      (layout.settings.commentStyle = .wrapped →
        ∀ type ∈ symbol.varType, Text.lastChar? type ≠ some ' ') := by
  simp only [variableLines]
  split
  · next aligned =>
      have tidy := (tidy_snoc [first, .literal (layout.language.varTag ++
        Text.spaces layout.settings.gap), .literal "\x7b", .field (layout.typeText symbol.varType)]
        (.literal "\x7d") (c := '\x7d') rfl).2 rfl
      simpa [aligned, braced] using tidy
  · next wrapped =>
      have typed := tidy_type_iff placeholder inline.varType
        [first, .literal (layout.language.varTag ++ " ")]
      simpa [wrapped] using typed

/-- Without its fields a comment ends a line in white space only where the wrapped style ends it in
a type that does. -/
theorem sections_tidy_iff (inline : symbol.Inline) :
    (∀ lines ∈ layout.sections symbol, ∀ line ∈ lines,
        Tidy (.literal layout.settings.markers.separator :: line)) ↔
      (layout.settings.commentStyle = .wrapped →
        ∀ type ∈ symbol.shownType?, Text.lastChar? type ≠ some ' ') := by
  let separator : Piece := .literal layout.settings.markers.separator
  have description : Tidy [separator, .field ("[" ++ symbol.name ++ " description]")] :=
    (tidy_snoc [separator] (.field _) (last_char_description _)).2 rfl
  have params : ∀ line ∈ layout.paramLines symbol, Tidy (separator :: line) :=
    param_lines_tidy inline separator
  rw [forall_sections_iff, return_lines_tidy_iff placeholder inline,
    variable_lines_tidy_iff placeholder inline, and_iff_right description]
  cases kind : symbol.kind with
  | function =>
      cases present : symbol.returns.present with
      | false => simpa [Symbol.shownType?, kind, present] using params
      | true =>
          rw [and_iff_left nofun, forall_prop_of_true rfl, and_iff_right params]
          simp [Symbol.shownType?, kind, present]
  | var => simp [Symbol.shownType?, kind]
  | classLike => simp [Symbol.shownType?, kind]
  | unset => simp [Symbol.shownType?, kind]

theorem plain_rows_trimmed_iff
    (free : ∀ marker ∈ layout.settings.markers.all, '$' ∉ marker.toList)
    (markers : ∀ marker ∈ layout.settings.markers.all, '\n' ∉ marker.toList)
    (unbroken : '\n' ∉ layout.settings.typePlaceholder.toList) (inline : symbol.Inline) :
    (∀ row ∈ Text.lines (Field.strip (layout.render symbol)), Text.trimEnd row = row) ↔
      (symbol.isRecognized = true → layout.settings.commentStyle = .wrapped →
        ∀ type ∈ symbol.shownType?, Text.lastChar? type ≠ some ' ') := by
  rw [lines_strip_render free (lines_unbroken unbroken markers inline), List.forall_mem_map]
  exact lines_tidy_iff.trans (imp_congr_right fun _ => sections_tidy_iff placeholder inline)

end

end Layout

end Comment

namespace Language

open Comment

/-- Without its fields a comment ends no line in white space, unless the wrapped style shows a type
that ends in a space. -/
theorem plain_comment_rows (language : Language) (spacing : Nat) (style : CommentStyle)
    (always : Bool) (line : String) :
    let settings : Settings :=
      { columnSpacing := spacing, commentStyle := style, alwaysShowReturnTag := always }
    ∃ text, language.output settings ⟨.comment, .plain⟩ line = .ok text ∧
      ((∀ row ∈ Text.lines text, Text.trimEnd row = row) ↔
        (style = .wrapped → ∀ symbol type, language.parse line = .ok symbol →
          symbol.isRecognized = true → symbol.shownType? = some type →
            Text.lastChar? type ≠ some ' ')) := by
  intro settings
  let layout : Layout := { settings, language }
  have free : ∀ marker ∈ Markers.all {}, '$' ∉ marker.toList := by decide
  have unbroken : ∀ marker ∈ Markers.all {}, '\n' ∉ marker.toList := by decide
  have ends : Text.lastChar? "[type]" = some ']' ∧ Text.isBlank ']' = false := by decide
  have oneLine : '\n' ∉ "[type]".toList := by decide
  have rows {symbol : Symbol} (inline : symbol.Inline) :=
    layout.plain_rows_trimmed_iff ⟨']', ends⟩ free unbroken oneLine inline
  refine ⟨Field.strip (language.comment settings line), rfl, ?_⟩
  cases parsed : language.parse line with
  | ok symbol =>
      rw [comment_of_symbol settings parsed, rows (parse_inline parsed)]
      constructor
      · rintro tidy wrapped other type same recognized shown
        obtain rfl := Except.ok.inj same
        exact tidy recognized wrapped type shown
      · intro tidy recognized wrapped type shown
        exact tidy wrapped symbol type rfl recognized shown
  | error error =>
      rw [comment_of_error settings parsed, rows Symbol.inline_empty]
      simp [Symbol.isRecognized]

/-- A type whose second argument is no name breaks off behind the comma. -/
theorem plain_comment_row_ends_in_space :
    Language.javascript.output { commentStyle := .wrapped } ⟨.comment, .plain⟩
        "let m: Map<string, () => void>;" =
      .ok "/**\n * [m description]\n *\n * @type Map<string, \n */" ∧
      " * @type Map<string, " ∈
        Text.lines "/**\n * [m description]\n *\n * @type Map<string, \n */" ∧
      Text.trimEnd " * @type Map<string, " ≠ " * @type Map<string, " := by
  refine ⟨?_, by decide +kernel, by decide⟩
  decide +kernel

end Language

end DocComment
