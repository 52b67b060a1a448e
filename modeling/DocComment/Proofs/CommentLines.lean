import DocComment.Output
import DocComment.Proofs.CommentViews
import DocComment.Proofs.RecordedText

/-!
The lines of a written comment. No text in it brings a line feed of its own, so a comment falls
apart into the lines of its layout: there are as many as its sections ask for, and none of them ends
in white space.
-/

namespace DocComment

namespace Text

def lines (text : String) : List String := (text.toList.splitOn '\n').map String.ofList

theorem join_with_chars (texts : List String) :
    (joinWith "\n" texts).toList = ['\n'].intercalate (texts.map String.toList) := by
  fun_induction joinWith "\n" texts with
  | case1 => rfl
  | case2 text => simp
  | case3 text texts more induction =>
      cases texts with
      | nil => exact absurd rfl more
      | cons next rest =>
          rw [String.toList_append, String.toList_append, induction]
          simp [List.intercalate]

theorem lines_join_with {texts : List String} (some : texts ≠ [])
    (unbroken : ∀ text ∈ texts, '\n' ∉ text.toList) : lines (joinWith "\n" texts) = texts := by
  have apart : ∀ cs ∈ texts.map String.toList, '\n' ∉ cs := by
    intro cs member
    obtain ⟨text, listed, rfl⟩ := List.mem_map.1 member
    exact unbroken text listed
  rw [lines, join_with_chars, List.splitOn_intercalate '\n' apart (by simpa using some),
    List.map_map]
  simp [Function.comp_def]

theorem trim_end_chars_eq_iff (cs : List Char) :
    trimEndChars cs = cs ↔ ∀ c ∈ cs.getLast?, isBlank c = false := by
  rcases List.eq_nil_or_concat cs with rfl | ⟨front, last, rfl⟩
  · simp [trimEndChars]
  rw [List.concat_eq_append]
  cases blank : isBlank last with
  | false => simp [trim_end_chars_append_visible, blank]
  | true =>
      have shorter : (trimEndChars front).length ≤ front.length := by
        simpa [trimEndChars] using (List.dropWhile_sublist isBlank (l := front.reverse)).length_le
      have differs : trimEndChars front ≠ front ++ [last] := by
        intro same
        rw [same, List.length_append, List.length_singleton] at shorter
        omega
      simp [trim_end_chars_append_blank, blank, differs]

theorem trim_end_eq_iff {text : String} :
    trimEnd text = text ↔ ∀ c ∈ lastChar? text, isBlank c = false := by
  rw [← String.toList_inj, trimEnd, String.toList_ofList, trim_end_chars_eq_iff, lastChar?]

theorem trim_end_trim_end (text : String) : trimEnd (trimEnd text) = trimEnd text := by
  rw [trim_end_eq_iff]
  intro c last
  rw [lastChar?, trimEnd, String.toList_ofList, trimEndChars, List.getLast?_reverse] at last
  have stopped := List.head?_dropWhile_not isBlank text.toList.reverse
  rw [last] at stopped
  exact stopped

end Text

theorem Field.written_unbroken {text : String} (unbroken : '\n' ∉ text.toList) (stop : Nat) :
    '\n' ∉ (written stop text).toList := by
  have digits : '\n' ∉ (toString stop).toList := by
    intro member
    exact absurd (decimals_of_stop stop '\n' member) (by decide)
  have escaped : '\n' ∉ escapeChars text.toList := by
    intro member
    obtain ⟨c, inside, here⟩ := List.mem_flatMap.1 member
    have same : '\n' = c := by
      unfold escapeChar at here
      split at here <;> simpa using here
    exact unbroken (same ▸ inside)
  simpa [written, escape, escaped] using digits

namespace Comment

namespace Line

/-- No piece of the line brings a line feed. -/
def Unbroken (line : Line) : Prop := ∀ piece ∈ line, '\n' ∉ piece.plain.toList

@[simp] theorem unbroken_nil : Unbroken [] := by
  simp [Unbroken]

@[simp] theorem unbroken_literal {text : String} {line : Line} :
    Unbroken (.literal text :: line) ↔ '\n' ∉ text.toList ∧ Unbroken line := by
  simp [Unbroken, Piece.plain]

@[simp] theorem unbroken_field {text : String} {line : Line} :
    Unbroken (.field text :: line) ↔ '\n' ∉ text.toList ∧ Unbroken line := by
  simp [Unbroken, Piece.plain]

@[simp] theorem unbroken_append {front back : Line} :
    Unbroken (front ++ back) ↔ Unbroken front ∧ Unbroken back := by
  simp only [Unbroken, List.mem_append, or_imp, forall_and]

theorem snippet_unbroken {line : Line} (unbroken : line.Unbroken) (stop : Nat) :
    '\n' ∉ (line.snippet stop).toList := by
  induction line generalizing stop with
  | nil => simp [snippet]
  | cons piece line induction =>
      cases piece with
      | literal text =>
          rw [unbroken_literal] at unbroken
          simp [snippet, unbroken.1, induction unbroken.2]
      | field text =>
          rw [unbroken_field] at unbroken
          simp [snippet, Field.written_unbroken unbroken.1, induction unbroken.2]

end Line

theorem length_snippets (stop : Nat) (lines : List Line) :
    (snippets stop lines).length = lines.length := by
  induction lines generalizing stop with
  | nil => rfl
  | cons line lines induction => simp [snippets, induction]

theorem snippets_unbroken {lines : List Line} (unbroken : ∀ line ∈ lines, line.Unbroken)
    (stop : Nat) : ∀ text ∈ snippets stop lines, '\n' ∉ text.toList := by
  induction lines generalizing stop with
  | nil => simp [snippets]
  | cons line lines induction =>
      intro text member
      rcases List.mem_cons.1 member with rfl | later
      · exact Line.snippet_unbroken (unbroken line (by simp)) stop
      · exact induction (fun other member => unbroken other (by simp [member])) _ text later

/-- A written comment falls apart into its lines. -/
theorem lines_written {lines : List Line} (some : lines ≠ [])
    (unbroken : ∀ line ∈ lines, line.Unbroken) :
    Text.lines (written lines) = (snippets 1 lines).map Text.trimEnd := by
  apply Text.lines_join_with
  · intro none
    have length := length_snippets 1 lines
    rw [List.map_eq_nil_iff.1 none] at length
    exact some (List.length_eq_zero_iff.1 length.symm)
  · intro text member
    obtain ⟨line, listed, rfl⟩ := List.mem_map.1 member
    intro broken
    exact snippets_unbroken unbroken 1 line listed (Text.mem_of_mem_trim_end broken)

def tagHeight : CommentStyle → Nat
  | .aligned => 1
  | .wrapped => 2

def sectionHeights (settings : Settings) (symbol : Symbol) : List Nat :=
  let tag := tagHeight settings.commentStyle
  match symbol.kind with
  | .function =>
      [1, tag * symbol.params.length,
        if symbol.returns.present ∧ (settings.alwaysShowReturnTag ∨ symbol.returns.type ≠ none)
        then tag else 0]
  | .var => [1, 1]
  | .classLike | .unset => [1]

/-- How many lines a comment takes: its first and last, the sections that are not empty and a line
between any two of them, or three if nothing was recognised. -/
def height (settings : Settings) (symbol : Symbol) : Nat :=
  if symbol.isRecognized then
    let filled := (sectionHeights settings symbol).filter (0 < ·)
    2 + filled.foldr (· + ·) 0 + (filled.length - 1)
  else 3

namespace Layout

open Line

variable {layout : Layout} {symbol : Symbol}

theorem mem_join_sections_of_mem {between line : Line} {lines : List Line}
    {sections : List (List Line)} (listed : lines ∈ sections) (inside : line ∈ lines) :
    line ∈ joinSections between sections := by
  fun_induction joinSections between sections with
  | case1 => simp at listed
  | case2 only =>
      obtain rfl := List.mem_singleton.1 listed
      exact inside
  | case3 first rest _ induction =>
      rcases List.mem_cons.1 listed with rfl | later
      · simp [inside]
      · simp [induction later]

/-- What holds of the markers alone holds of all lines if it holds of the lines of the sections. -/
theorem forall_lines_iff {holds : Line → Prop}
    (markers : ∀ marker ∈ layout.settings.markers.all, holds [.literal marker]) :
    (∀ line ∈ layout.lines symbol, holds line) ↔
      (symbol.isRecognized = true → ∀ lines ∈ layout.sections symbol, ∀ line ∈ lines,
        holds (.literal layout.settings.markers.separator :: line)) := by
  constructor
  · intro all recognized lines listed line inside
    apply all
    -- A section with a line in it is not among the empty ones that are left out.
    have filled : lines ∈ (layout.sections symbol).filter fun lines => !lines.isEmpty := by
      refine List.mem_filter.2 ⟨listed, ?_⟩
      simp [List.ne_nil_of_mem inside]
    simp only [Layout.lines, recognized, if_true]
    refine mem_framed.2 (.inr (.inl ?_))
    exact mem_join_sections_of_mem (List.mem_map_of_mem filled) (List.mem_map_of_mem inside)
  · intro each line member
    rcases lines_origin member with ⟨marker, listed, rfl⟩ | ⟨recognized, inside⟩
    · exact markers marker listed
    · obtain ⟨lines, listed, inner, here, rfl⟩ := inside
      exact each recognized lines listed inner here

theorem forall_sections_iff {holds : Line → Prop} :
    (∀ lines ∈ layout.sections symbol, ∀ line ∈ lines, holds line) ↔
      holds [.field ("[" ++ symbol.name ++ " description]")] ∧
        (symbol.kind = .function →
          (∀ line ∈ layout.paramLines symbol, holds line) ∧
            ∀ line ∈ layout.returnLines symbol, holds line) ∧
        (symbol.kind = .var → ∀ line ∈ layout.variableLines symbol, holds line) := by
  cases kind : symbol.kind <;> simp [sections, kind]

theorem tags_unbroken (language : Language) : '\n' ∉ language.paramTag.toList ∧
    '\n' ∉ language.returnTag.toList ∧ '\n' ∉ language.varTag.toList := by
  cases language <;> decide

theorem spaces_unbroken (count : Nat) : '\n' ∉ (Text.spaces count).toList := by
  simp [Text.spaces, List.mem_replicate]

theorem padded_unbroken {line : Line} {column : Nat} :
    (line.padded column).Unbroken ↔ line.Unbroken := by
  simp [padded, spaces_unbroken]

theorem description_unbroken {name : String} (unbroken : '\n' ∉ name.toList) :
    '\n' ∉ ("[" ++ name ++ " description]").toList := by
  simp [unbroken]

theorem param_name_unbroken {param : Symbol.Param} (fits : param.Inline) :
    '\n' ∉ (paramName param).toList := by
  unfold paramName
  split
  · exact fits.name.inline.no_line_feed
  · decide

theorem param_description_unbroken {param : Symbol.Param} (fits : param.Inline) :
    '\n' ∉ (paramDescription param).toList := by
  unfold paramDescription
  split
  · exact description_unbroken fits.name.inline.no_line_feed
  · decide

section

variable (placeholder : '\n' ∉ layout.settings.typePlaceholder.toList)
include placeholder

theorem type_text_unbroken {type : Option String} (fits : ∀ text ∈ type, Text.Inline text) :
    '\n' ∉ (layout.typeText type).toList := by
  cases type with
  | none => exact placeholder
  | some text => exact (fits text rfl).no_line_feed

theorem param_lines_unbroken (inline : symbol.Inline) :
    ∀ line ∈ layout.paramLines symbol, line.Unbroken := by
  have tags := tags_unbroken layout.language
  have entries : ∀ param ∈ symbol.params, '\n' ∉ (layout.typeText param.type).toList ∧
      '\n' ∉ (paramName param).toList ∧ '\n' ∉ (paramDescription param).toList := by
    intro param listed
    have fits := inline.params param listed
    exact ⟨type_text_unbroken placeholder fits.type, param_name_unbroken fits,
      param_description_unbroken fits⟩
  intro line member
  unfold paramLines at member
  split at member
  · obtain ⟨param, listed, rfl⟩ := List.mem_map.1 member
    simp [alignedParam, braced, padded_unbroken, tags, entries param listed]
  · obtain ⟨param, listed, inside⟩ := List.mem_flatMap.1 member
    simp only [wrappedParam, List.mem_cons, List.not_mem_nil, or_false] at inside
    rcases inside with rfl | rfl <;> simp [tags, entries param listed]

theorem return_lines_unbroken (inline : symbol.Inline) :
    ∀ line ∈ layout.returnLines symbol, line.Unbroken := by
  have tags := tags_unbroken layout.language
  have type := type_text_unbroken placeholder fun type member =>
    (inline.returnType type member).inline
  intro line member
  unfold returnLines at member
  split at member
  · split at member
    · obtain rfl := List.mem_singleton.1 member
      simp [alignedReturn, braced, padded_unbroken, returnDescription, tags, type]
    · simp only [wrappedReturn, List.mem_cons, List.not_mem_nil, or_false] at member
      rcases member with rfl | rfl <;> simp [returnDescription, tags, type]
  · simp at member

theorem variable_lines_unbroken (inline : symbol.Inline) :
    ∀ line ∈ layout.variableLines symbol, line.Unbroken := by
  have tags := tags_unbroken layout.language
  have type := type_text_unbroken placeholder fun type member =>
    (inline.varType type member).inline
  intro line member
  simp only [variableLines] at member
  split at member
  · obtain rfl := List.mem_singleton.1 member
    simp [braced, spaces_unbroken, tags, type]
  · obtain rfl := List.mem_singleton.1 member
    simp [tags, type]

theorem lines_unbroken (markers : ∀ marker ∈ layout.settings.markers.all, '\n' ∉ marker.toList)
    (inline : symbol.Inline) : ∀ line ∈ layout.lines symbol, line.Unbroken := by
  have description := description_unbroken inline.name.no_line_feed
  have sections : ∀ lines ∈ layout.sections symbol, ∀ line ∈ lines, line.Unbroken :=
    forall_sections_iff.2 ⟨unbroken_field.2 ⟨description, unbroken_nil⟩,
      fun _ => ⟨param_lines_unbroken placeholder inline, return_lines_unbroken placeholder inline⟩,
      fun _ => variable_lines_unbroken placeholder inline⟩
  refine (forall_lines_iff (by simpa using markers)).2 fun _ lines listed line inside => ?_
  exact unbroken_literal.2 ⟨markers _ (by simp [Markers.all]), sections lines listed line inside⟩

end

theorem length_join_sections (between : Line) (sections : List (List Line)) :
    (joinSections between sections).length =
      (sections.map List.length).foldr (· + ·) 0 + (sections.length - 1) := by
  fun_induction joinSections between sections with
  | case1 => rfl
  | case2 lines => simp
  | case3 lines rest more induction =>
      have positive := List.length_pos_iff.2 fun none => more none
      simp only [List.length_append, List.length_cons, induction, List.map_cons, List.foldr_cons]
      omega

theorem length_param_lines (layout : Layout) (symbol : Symbol) :
    (layout.paramLines symbol).length =
      tagHeight layout.settings.commentStyle * symbol.params.length := by
  unfold paramLines
  split
  · next style => simp [style, tagHeight]
  · next style =>
      simp [style, tagHeight, wrappedParam, List.length_flatMap, List.map_const', Nat.mul_comm]

theorem length_return_lines (layout : Layout) (symbol : Symbol) :
    (layout.returnLines symbol).length =
      if symbol.returns.present ∧
        (layout.settings.alwaysShowReturnTag ∨ symbol.returns.type ≠ none)
      then tagHeight layout.settings.commentStyle else 0 := by
  simp only [returnLines, shows_return_iff]
  split
  · split
    · next style => simp [style, tagHeight]
    · next style => simp [style, tagHeight, wrappedReturn]
  · rfl

theorem length_variable_lines (layout : Layout) (symbol : Symbol) :
    (layout.variableLines symbol).length = 1 := by
  simp only [variableLines]
  split <;> rfl

theorem length_sections (layout : Layout) (symbol : Symbol) :
    (layout.sections symbol).map List.length = sectionHeights layout.settings symbol := by
  cases kind : symbol.kind with
  | function => simp [sections, sectionHeights, kind, length_param_lines, length_return_lines]
  | var => simp [sections, sectionHeights, kind, length_variable_lines]
  | classLike => simp [sections, sectionHeights, kind]
  | unset => simp [sections, sectionHeights, kind]

theorem length_filled_sections (layout : Layout) (symbol : Symbol) :
    ((layout.sections symbol).filter fun lines => !lines.isEmpty).map List.length =
      (sectionHeights layout.settings symbol).filter (0 < ·) := by
  rw [← length_sections, List.filter_map]
  congr 2
  funext lines
  cases lines <;> rfl

theorem length_lines (layout : Layout) (symbol : Symbol) :
    (layout.lines symbol).length = height layout.settings symbol := by
  simp only [lines, height]
  split
  · rw [framed, List.length_append, List.length_cons, length_join_sections, List.map_map,
      List.length_map, ← length_filled_sections, List.length_map, List.length_singleton]
    have widths : List.length ∘ (fun lines : List Line =>
        lines.map (Piece.literal layout.settings.markers.separator :: ·)) = List.length := by
      funext lines
      simp
    rw [widths]
    omega
  · rfl

theorem lines_nonempty (layout : Layout) (symbol : Symbol) : layout.lines symbol ≠ [] := by
  simp only [lines, framed]
  split <;> simp

section

variable (markers : ∀ marker ∈ layout.settings.markers.all, '\n' ∉ marker.toList)
  (placeholder : '\n' ∉ layout.settings.typePlaceholder.toList) (inline : symbol.Inline)
include markers placeholder inline

theorem lines_render :
    Text.lines (layout.render symbol) = (snippets 1 (layout.lines symbol)).map Text.trimEnd :=
  lines_written (lines_nonempty layout symbol) (lines_unbroken placeholder markers inline)

theorem rows_trimmed : ∀ row ∈ Text.lines (layout.render symbol), Text.trimEnd row = row := by
  rw [lines_render markers placeholder inline]
  intro row member
  obtain ⟨text, _, rfl⟩ := List.mem_map.1 member
  exact Text.trim_end_trim_end text

theorem rows_counted :
    (Text.lines (layout.render symbol)).length = height layout.settings symbol := by
  rw [lines_render markers placeholder inline, List.length_map, length_snippets, length_lines]

end

end Layout

end Comment

namespace Language

open Comment

section

variable {language : Language} (settings : Settings) {line : String}

theorem comment_of_symbol {symbol : Symbol} (parsed : language.parse line = .ok symbol) :
    language.comment settings line = Layout.render { settings, language } symbol := by
  rw [comment, parsed]

theorem comment_of_error {error : Token.ScanError} (failed : language.parse line = .error error) :
    language.comment settings line = Layout.render { settings, language } {} := by
  rw [comment, failed]
  rfl

end

/-- A comment takes the lines that its layout asks for and none of them ends in white space,
whatever the line that it is for may hold. -/
theorem comment_rows (language : Language) (settings : Settings)
    (markers : ∀ marker ∈ settings.markers.all, '\n' ∉ marker.toList)
    (placeholder : '\n' ∉ settings.typePlaceholder.toList) (line : String) :
    ∃ text, language.output settings ⟨.comment, .snippet⟩ line = .ok text ∧
      (∀ row ∈ Text.lines text, Text.trimEnd row = row) ∧
        (Text.lines text).length =
          match language.parse line with
          | .ok symbol => height settings symbol
          | .error _ => 3 := by
  let layout : Layout := { settings, language }
  refine ⟨language.comment settings line, rfl, ?_⟩
  cases parsed : language.parse line with
  | ok symbol =>
      have inline := parse_inline parsed
      rw [comment_of_symbol settings parsed]
      exact ⟨layout.rows_trimmed markers placeholder inline,
        layout.rows_counted markers placeholder inline⟩
  | error error =>
      rw [comment_of_error settings parsed]
      exact ⟨layout.rows_trimmed markers placeholder Symbol.inline_empty,
        layout.rows_counted markers placeholder Symbol.inline_empty⟩

/-- A default value with a line feed in it, and a list that the line leaves open. -/
theorem comment_rows_open_list :
    let settings : Settings := { commentStyle := .wrapped, typePlaceholder := "mixed  " }
    (∀ marker ∈ settings.markers.all, '\n' ∉ marker.toList) ∧
      '\n' ∉ settings.typePlaceholder.toList ∧
      ∃ text, Language.javascript.output settings ⟨.comment, .snippet⟩
          "let f = (a = \x60x\ny\x60, b: Map<string," = .ok text ∧
        (∀ row ∈ Text.lines text, Text.trimEnd row = row) ∧ (Text.lines text).length = 11 := by
  intro settings
  have parsed : Language.javascript.parse "let f = (a = \x60x\ny\x60, b: Map<string," =
      .ok {
        name := "f"
        kind := .function
        params := [{ name := "a", value := some "\x60x\ny\x60" },
          { name := "b", type := some "Map<string, " }]
        returns := { present := true } } := by decide +kernel
  have rows := comment_rows .javascript settings (by decide) (by decide)
    "let f = (a = \x60x\ny\x60, b: Map<string,"
  rw [parsed] at rows
  exact ⟨by decide, by decide, rows⟩

end Language

end DocComment
