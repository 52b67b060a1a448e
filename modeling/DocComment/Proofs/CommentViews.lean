import DocComment.Comment.Layout
import DocComment.Proofs.SnippetFields

/-!
Two views of a rendered comment. Stripped of its fields it is the same layout with the raw text of
each field in its place, and its tab stops go through what the symbol leaves to be filled in, in an
order that neither the style nor the width of the columns changes.
-/

namespace DocComment

namespace Text

theorem trim_end_brace (front : String) : trimEnd (front ++ "\x7d") = front ++ "\x7d" := by
  have spelled : (front ++ "\x7d").toList = front.toList ++ ['\x7d'] := by simp
  rw [trimEnd, spelled, trim_end_chars_append_visible _ _ (by decide), ← spelled,
    String.ofList_toList]

theorem mem_of_mem_trim_end {c : Char} {text : String} (member : c ∈ (trimEnd text).toList) :
    c ∈ text.toList := by
  rw [trimEnd, String.toList_ofList, trimEndChars, List.mem_reverse] at member
  exact List.mem_reverse.1 (List.dropWhile_subset _ member)

end Text

def Markers.all (markers : Markers) : List String :=
  [markers.opening, markers.separator, markers.closing]

namespace Comment

namespace Line

theorem snippet_append (front back : Line) (stop : Nat) :
    snippet stop (front ++ back) = snippet stop front ++ snippet (stop + fields front) back := by
  induction front generalizing stop with
  | nil => simp [snippet, fields]
  | cons piece front induction =>
      cases piece with
      | literal text => simp [snippet, fields, induction, String.append_assoc]
      | field text =>
          have count : stop + 1 + fields front = stop + (fields front + 1) := by omega
          simp [snippet, fields, induction, String.append_assoc, count]

def EndsVisibly (line : Line) : Prop :=
  ∃ front last, line = front ++ [last] ∧ (last = .literal "\x7d" ∨ ∃ text, last = .field text)

/-- The line without white space at its end, if it is a single literal. -/
def trimmed : Line → Line
  | [.literal text] => [.literal (Text.trimEnd text)]
  | line => line

theorem fields_trimmed (line : Line) : fields line.trimmed = fields line := by
  unfold trimmed
  split <;> rfl

theorem trimmed_visible {line : Line} (visible : line.EndsVisibly) : line.trimmed = line := by
  obtain ⟨front, last, rfl, ends⟩ := visible
  unfold trimmed
  split
  · next text same =>
      cases front with
      | nil =>
          obtain rfl : last = .literal text := by simpa using same
          obtain rfl : text = "\x7d" := by simpa using ends
          have brace := Text.trim_end_brace ""
          simpa using brace
      | cons piece front => simp at same
  · rfl

theorem trim_end_snippet {line : Line}
    (settled : (∃ text, line = [.literal text]) ∨ line.EndsVisibly) (stop : Nat) :
    Text.trimEnd (line.snippet stop) = line.trimmed.snippet stop := by
  rcases settled with ⟨text, rfl⟩ | visible
  · simp [snippet, trimmed]
  · rw [trimmed_visible visible]
    obtain ⟨front, last, rfl, rfl | ⟨text, rfl⟩⟩ := visible
    · rw [snippet_append, snippet, snippet, String.append_empty, Text.trim_end_brace]
    · rw [snippet_append, snippet, snippet, String.append_empty, Field.written,
        ← String.append_assoc, Text.trim_end_brace]

end Line

def joined : List Line → Line
  | [] => []
  | [line] => line
  | line :: rest => line ++ .literal "\n" :: joined rest

theorem join_snippets (lines : List Line) (stop : Nat) :
    Text.joinWith "\n" (snippets stop lines) = (joined lines).snippet stop := by
  fun_induction joined lines generalizing stop with
  | case1 => rfl
  | case2 line => rfl
  | case3 line rest more induction =>
      rw [Line.snippet_append, Line.snippet, ← induction]
      cases rest with
      | nil => exact absurd rfl more
      | cons next rest => simp [snippets, Text.joinWith, String.append_assoc]

theorem trim_end_snippets {lines : List Line}
    (settled : ∀ line ∈ lines, (∃ text, line = [.literal text]) ∨ line.EndsVisibly) (stop : Nat) :
    (snippets stop lines).map Text.trimEnd = snippets stop (lines.map Line.trimmed) := by
  induction lines generalizing stop with
  | nil => rfl
  | cons line lines induction =>
      rw [snippets, List.map_cons, Line.trim_end_snippet (settled line (by simp)),
        induction (by intro other member; exact settled other (by simp [member])), List.map_cons,
        snippets, Line.fields_trimmed]

/-- The text of a comment is one line written as a snippet. -/
theorem written_eq_snippet {lines : List Line}
    (settled : ∀ line ∈ lines, (∃ text, line = [.literal text]) ∨ line.EndsVisibly) :
    written lines = (joined (lines.map Line.trimmed)).snippet 1 := by
  rw [written, trim_end_snippets settled, join_snippets]

namespace Line

@[simp] theorem dollar_free_nil : DollarFree [] := by
  simp [DollarFree]

@[simp] theorem dollar_free_literal {text : String} {line : Line} :
    DollarFree (.literal text :: line) ↔ '$' ∉ text.toList ∧ DollarFree line := by
  simp [DollarFree]

@[simp] theorem dollar_free_field {text : String} {line : Line} :
    DollarFree (.field text :: line) ↔ DollarFree line := by
  simp [DollarFree]

@[simp] theorem dollar_free_append {front back : Line} :
    DollarFree (front ++ back) ↔ DollarFree front ∧ DollarFree back := by
  simp only [DollarFree, List.mem_append]
  constructor
  · intro free
    exact ⟨fun text member => free text (.inl member), fun text member => free text (.inr member)⟩
  · rintro ⟨left, right⟩ text (member | member)
    · exact left text member
    · exact right text member

theorem dollar_free_trimmed {line : Line} (free : line.DollarFree) : line.trimmed.DollarFree := by
  unfold trimmed
  split
  · next text =>
      rw [dollar_free_literal] at free ⊢
      refine ⟨?_, free.2⟩
      intro member
      exact free.1 (Text.mem_of_mem_trim_end member)
  · exact free

theorem dollar_free_joined {lines : List Line} (free : ∀ line ∈ lines, DollarFree line) :
    DollarFree (joined lines) := by
  fun_induction joined lines with
  | case1 => simp
  | case2 line => exact free line (by simp)
  | case3 line rest _ induction =>
      have others := induction (by intro other member; exact free other (by simp [member]))
      simp [free line (by simp), others]

theorem plain_append (front back : Line) : plain (front ++ back) = plain front ++ plain back := by
  induction front with
  | nil => simp [plain]
  | cons piece front induction => simp [plain, induction, String.append_assoc]

theorem plain_joined (lines : List Line) :
    plain (joined lines) = Text.joinWith "\n" (lines.map plain) := by
  fun_induction joined lines with
  | case1 => rfl
  | case2 line => rfl
  | case3 line rest more induction =>
      rw [plain_append, plain, induction]
      cases rest with
      | nil => exact absurd rfl more
      | cons next rest => simp [Text.joinWith, Piece.plain, String.append_assoc]

theorem plain_trimmed_marker (marker : String) :
    plain (trimmed [.literal marker]) = Text.trimEnd marker := by
  simp [trimmed, plain, Piece.plain]

@[simp] theorem field_texts_nil : fieldTexts [] = [] := rfl

@[simp] theorem field_texts_literal (text : String) (line : Line) :
    fieldTexts (.literal text :: line) = fieldTexts line := rfl

@[simp] theorem field_texts_field (text : String) (line : Line) :
    fieldTexts (.field text :: line) = text :: fieldTexts line := rfl

@[simp] theorem field_texts_append (front back : Line) :
    fieldTexts (front ++ back) = fieldTexts front ++ fieldTexts back := by
  induction front with
  | nil => rfl
  | cons piece front induction =>
      cases piece with
      | literal text => simpa using induction
      | field text => simpa using induction

@[simp] theorem field_texts_padded (line : Line) (column : Nat) :
    fieldTexts (line.padded column) = fieldTexts line := by
  simp [padded]

theorem texts_numbered (stop : Nat) (texts : List String) :
    (numbered stop texts).map Prod.snd = texts := by
  induction texts generalizing stop with
  | nil => rfl
  | cons text texts induction => rw [numbered, List.map_cons, induction]

theorem numbers_numbered (stop : Nat) (texts : List String) :
    (numbered stop texts).map Prod.fst = (List.range' stop texts.length).map toString := by
  induction texts generalizing stop with
  | nil => rfl
  | cons text texts induction =>
      rw [numbered, List.map_cons, induction, List.length_cons, List.range'_succ, List.map_cons]

theorem field_texts_trimmed (line : Line) : fieldTexts line.trimmed = fieldTexts line := by
  unfold trimmed
  split <;> rfl

theorem field_texts_joined (lines : List Line) :
    fieldTexts (joined lines) = lines.flatMap fieldTexts := by
  fun_induction joined lines with
  | case1 => rfl
  | case2 line => simp
  | case3 line rest _ induction => simp [induction]

end Line

namespace Layout

open Line

theorem dollar_not_mem_spaces (count : Nat) : '$' ∉ (Text.spaces count).toList := by
  simp [Text.spaces, List.mem_replicate]

theorem dollar_not_mem_tags (language : Language) : '$' ∉ language.paramTag.toList ∧
    '$' ∉ language.returnTag.toList ∧ '$' ∉ language.varTag.toList := by
  cases language <;> decide

structure Content (line : Line) : Prop where
  visible : line.EndsVisibly
  free : line.DollarFree

theorem ends_in_field (front : Line) (text : String) :
    EndsVisibly (front ++ [.field text]) :=
  ⟨front, .field text, rfl, .inr ⟨text, rfl⟩⟩

section

variable (layout : Layout)

theorem aligned_param_content (columns : Columns) (param : Symbol.Param) :
    Content (layout.alignedParam columns param) := by
  have tags := dollar_not_mem_tags layout.language
  refine ⟨ends_in_field _ _, ?_⟩
  simp [alignedParam, padded, braced, dollar_not_mem_spaces, tags]

theorem aligned_return_content (columns : Columns) (returns : Symbol.Return) :
    Content (layout.alignedReturn columns returns) := by
  have tags := dollar_not_mem_tags layout.language
  refine ⟨ends_in_field _ _, ?_⟩
  simp [alignedReturn, padded, braced, dollar_not_mem_spaces, tags]

theorem wrapped_param_content (param : Symbol.Param) :
    ∀ line ∈ layout.wrappedParam param, Content line := by
  have tags := dollar_not_mem_tags layout.language
  intro line member
  simp only [wrappedParam, List.mem_cons, List.not_mem_nil, or_false] at member
  rcases member with rfl | rfl
  · exact ⟨ends_in_field [_, _, _] _, by simp [tags]⟩
  · exact ⟨ends_in_field [_] _, by simp⟩

theorem wrapped_return_content (returns : Symbol.Return) :
    ∀ line ∈ layout.wrappedReturn returns, Content line := by
  have tags := dollar_not_mem_tags layout.language
  intro line member
  simp only [wrappedReturn, List.mem_cons, List.not_mem_nil, or_false] at member
  rcases member with rfl | rfl
  · exact ⟨ends_in_field [_] _, by simp [tags]⟩
  · exact ⟨ends_in_field [_] _, by simp⟩

theorem param_lines_content (symbol : Symbol) :
    ∀ line ∈ layout.paramLines symbol, Content line := by
  intro line member
  unfold paramLines at member
  split at member
  · obtain ⟨param, _, rfl⟩ := List.mem_map.1 member
    exact layout.aligned_param_content _ param
  · obtain ⟨param, _, inside⟩ := List.mem_flatMap.1 member
    exact layout.wrapped_param_content param line inside

theorem return_lines_content (symbol : Symbol) :
    ∀ line ∈ layout.returnLines symbol, Content line := by
  intro line member
  unfold returnLines at member
  split at member
  · split at member
    · obtain rfl := List.mem_singleton.1 member
      exact layout.aligned_return_content _ _
    · exact layout.wrapped_return_content _ line member
  · simp at member

theorem variable_lines_content (symbol : Symbol) :
    ∀ line ∈ layout.variableLines symbol, Content line := by
  have tags := dollar_not_mem_tags layout.language
  intro line member
  simp only [variableLines] at member
  split at member
  · obtain rfl := List.mem_singleton.1 member
    refine ⟨⟨[_, _, _], .literal "\x7d", rfl, .inl rfl⟩, ?_⟩
    simp [braced, dollar_not_mem_spaces, tags]
  · obtain rfl := List.mem_singleton.1 member
    exact ⟨ends_in_field [_] _, by simp [tags]⟩

theorem sections_content (symbol : Symbol) :
    ∀ lines ∈ layout.sections symbol, ∀ line ∈ lines, Content line := by
  have description : ∀ line ∈ ([[.field ("[" ++ symbol.name ++ " description]")]] : List Line),
      Content line := by
    intro line member
    obtain rfl := List.mem_singleton.1 member
    exact ⟨ends_in_field [] _, by simp⟩
  intro lines member
  simp only [sections] at member
  split at member
  all_goals simp only [List.mem_cons, List.not_mem_nil, or_false] at member
  · rcases member with rfl | rfl | rfl
    · exact description
    · exact layout.param_lines_content symbol
    · exact layout.return_lines_content symbol
  · rcases member with rfl | rfl
    · exact description
    · exact layout.variable_lines_content symbol
  · rw [member]
    exact description
  · rw [member]
    exact description

end

theorem mem_join_sections {between line : Line} {sections : List (List Line)}
    (member : line ∈ joinSections between sections) :
    line = between ∨ ∃ lines ∈ sections, line ∈ lines := by
  fun_induction joinSections between sections with
  | case1 => simp at member
  | case2 lines => exact .inr ⟨lines, by simp, member⟩
  | case3 lines rest _ induction =>
      rcases List.mem_append.1 member with first | later
      · exact .inr ⟨lines, by simp, first⟩
      rcases List.mem_cons.1 later with rfl | last
      · exact .inl rfl
      rcases induction last with same | ⟨others, listed, inside⟩
      · exact .inl same
      · exact .inr ⟨others, by simp [listed], inside⟩

theorem mem_framed {layout : Layout} {body : List Line} {line : Line} :
    line ∈ layout.framed body ↔ line = [.literal layout.settings.markers.opening] ∨
      line ∈ body ∨ line = [.literal layout.settings.markers.closing] := by
  simp [framed]

/-- A line of a comment is one of the markers alone, or the separator with a line of a section. -/
theorem lines_origin {layout : Layout} {symbol : Symbol} {line : Line}
    (member : line ∈ layout.lines symbol) :
    (∃ marker ∈ layout.settings.markers.all, line = [.literal marker]) ∨
      symbol.isRecognized = true ∧ ∃ lines ∈ layout.sections symbol, ∃ inner ∈ lines,
        line = .literal layout.settings.markers.separator :: inner := by
  simp only [lines] at member
  split at member
  all_goals
    rcases mem_framed.1 member with rfl | inside | rfl
  · exact .inl ⟨_, by simp [Markers.all], rfl⟩
  · next recognized =>
      rcases mem_join_sections inside with rfl | ⟨_, listed, inside⟩
      · exact .inl ⟨_, by simp [Markers.all], rfl⟩
      · obtain ⟨filled, kept, rfl⟩ := List.mem_map.1 listed
        obtain ⟨inner, here, rfl⟩ := List.mem_map.1 inside
        exact .inr ⟨recognized, filled, (List.mem_filter.1 kept).1, inner, here, rfl⟩
  · exact .inl ⟨_, by simp [Markers.all], rfl⟩
  · exact .inl ⟨_, by simp [Markers.all], rfl⟩
  · obtain rfl := List.mem_singleton.1 inside
    exact .inl ⟨_, by simp [Markers.all], rfl⟩
  · exact .inl ⟨_, by simp [Markers.all], rfl⟩

theorem lines_cases {layout : Layout} {symbol : Symbol} {line : Line}
    (member : line ∈ layout.lines symbol) :
    (∃ marker ∈ layout.settings.markers.all, line = [.literal marker]) ∨
      ∃ inner, Content inner ∧ line = .literal layout.settings.markers.separator :: inner := by
  rcases lines_origin member with marker | ⟨_, lines, listed, inner, here, rfl⟩
  · exact .inl marker
  · exact .inr ⟨inner, layout.sections_content symbol lines listed inner here, rfl⟩

theorem visible_cons {line : Line} (visible : line.EndsVisibly) (piece : Piece) :
    EndsVisibly (piece :: line) := by
  obtain ⟨front, last, rfl, ends⟩ := visible
  exact ⟨piece :: front, last, rfl, ends⟩

theorem render_eq_snippet (layout : Layout) (symbol : Symbol) :
    layout.render symbol = (joined ((layout.lines symbol).map Line.trimmed)).snippet 1 := by
  apply written_eq_snippet
  intro line member
  rcases lines_cases member with ⟨marker, _, rfl⟩ | ⟨inner, content, rfl⟩
  · exact .inl ⟨marker, rfl⟩
  · exact .inr (visible_cons content.visible _)

theorem dollar_free_lines {layout : Layout} (symbol : Symbol)
    (free : ∀ marker ∈ layout.settings.markers.all, '$' ∉ marker.toList) :
    DollarFree (joined ((layout.lines symbol).map Line.trimmed)) := by
  apply dollar_free_joined
  intro line member
  obtain ⟨inner, inside, rfl⟩ := List.mem_map.1 member
  apply dollar_free_trimmed
  rcases lines_cases inside with ⟨marker, listed, rfl⟩ | ⟨inner, content, rfl⟩
  · simpa using free marker listed
  · have separator := free layout.settings.markers.separator (by simp [Markers.all])
    simpa using ⟨separator, content.free⟩

theorem map_join_sections {β : Type} (change : Line → β) (between : Line)
    (sections : List (List Line)) :
    (joinSections between sections).map change =
      [change between].intercalate (sections.map (·.map change)) := by
  fun_induction joinSections between sections with
  | case1 => rfl
  | case2 lines => simp
  | case3 lines rest more induction =>
      cases rest with
      | nil => exact absurd rfl more
      | cons next rest =>
          rw [List.map_append, List.map_cons, induction]
          simp [List.intercalate]

/-- The lines the reader sees. Markers that stand alone are trimmed; lines of a section are not. -/
def plainLines (layout : Layout) (symbol : Symbol) : List String :=
  let markers := layout.settings.markers
  let filled := (layout.sections symbol).filter fun lines => !lines.isEmpty
  let body :=
    if symbol.isRecognized then
      [Text.trimEnd markers.separator].intercalate
        (filled.map (·.map fun line => markers.separator ++ line.plain))
    else [Text.trimEnd markers.separator]
  Text.trimEnd markers.opening :: body ++ [Text.trimEnd markers.closing]

theorem plain_trimmed_content {layout : Layout} {symbol : Symbol} {lines : List Line}
    (listed : lines ∈ layout.sections symbol) (separator : String) :
    (lines.map (.literal separator :: ·)).map (fun line : Line => line.trimmed.plain) =
      lines.map fun line => separator ++ line.plain := by
  rw [List.map_map]
  apply List.map_congr_left
  intro line member
  have content := layout.sections_content symbol lines listed line member
  have whole := trimmed_visible (visible_cons content.visible (.literal separator))
  rw [Function.comp_apply, whole, plain, Piece.plain]

theorem plain_trimmed_lines (layout : Layout) (symbol : Symbol) :
    (layout.lines symbol).map (fun line => line.trimmed.plain) = layout.plainLines symbol := by
  simp only [lines, plainLines, framed]
  split
  · rw [List.map_append, List.map_cons, map_join_sections, List.map_map, List.map_singleton]
    simp only [plain_trimmed_marker]
    congr 3
    apply List.map_congr_left
    intro lines member
    exact plain_trimmed_content (List.mem_filter.1 member).1 _
  · simp [plain_trimmed_marker]

/-- Without its fields a comment is the same layout with the raw text of each field in its place. -/
theorem strip_render {layout : Layout} (symbol : Symbol)
    (free : ∀ marker ∈ layout.settings.markers.all, '$' ∉ marker.toList) :
    Field.strip (layout.render symbol) = Text.joinWith "\n" (layout.plainLines symbol) := by
  rw [render_eq_snippet, strip_snippet (dollar_free_lines symbol free), plain_joined,
    List.map_map, ← plain_trimmed_lines]
  rfl

theorem strip_render_var_in_braces :
    Field.strip (render ⟨{}, .php⟩
        { name := "a$\x7b1:b\x7d\\", kind := .var, varType := some "\x7d \n" }) =
      "/**\n * [a$\x7b1:b\x7d\\ description]\n *\n * @var  \x7b\x7d \n\x7d\n */" := by
  rw [strip_render _ (by decide)]
  decide

theorem field_texts_join_sections (between : Line) (blank : between.fieldTexts = [])
    (sections : List (List Line)) :
    (joinSections between sections).flatMap fieldTexts =
      sections.flatMap (·.flatMap fieldTexts) := by
  fun_induction joinSections between sections with
  | case1 => rfl
  | case2 lines => simp
  | case3 lines rest _ induction => simp [induction, blank]

theorem flat_map_filled {β : Type} (texts : Line → List β) (sections : List (List Line)) :
    (sections.filter fun lines => !lines.isEmpty).flatMap (·.flatMap texts) =
      sections.flatMap (·.flatMap texts) := by
  induction sections with
  | nil => rfl
  | cons lines sections induction =>
      cases lines with
      | nil => simpa using induction
      | cons line lines => simp [induction]

theorem field_texts_lines {layout : Layout} {symbol : Symbol}
    (recognized : symbol.isRecognized = true) :
    (layout.lines symbol).flatMap fieldTexts =
      (layout.sections symbol).flatMap (·.flatMap fieldTexts) := by
  simp only [lines, recognized, if_true, framed]
  rw [List.flatMap_append, List.flatMap_cons, field_texts_join_sections _ rfl, List.flatMap_map]
  simp [List.flatMap_map, flat_map_filled]

/-- What is left to fill in for a symbol, in order. -/
def blanks (settings : Settings) (symbol : Symbol) : List String :=
  let typeOr (type : Option String) := type.getD settings.typePlaceholder
  let ofParam (param : Symbol.Param) :=
    if param.name = "" then [typeOr param.type, "[name]", "[description]"]
    else [typeOr param.type, param.name, "[" ++ param.name ++ " description]"]
  let ofReturn (returns : Symbol.Return) :=
    if returns.present ∧ (settings.alwaysShowReturnTag ∨ returns.type ≠ none) then
      [typeOr returns.type, "[return description]"]
    else []
  ("[" ++ symbol.name ++ " description]") ::
    match symbol.kind with
    | .function => symbol.params.flatMap ofParam ++ ofReturn symbol.returns
    | .var => [typeOr symbol.varType]
    | .classLike | .unset => []

theorem field_texts_param_lines (layout : Layout) (symbol : Symbol) :
    (layout.paramLines symbol).flatMap fieldTexts = symbol.params.flatMap fun param =>
      [layout.typeText param.type, paramName param, paramDescription param] := by
  unfold paramLines
  split
  · simp [List.flatMap_map, alignedParam, braced]
  · simp [List.flatMap_assoc, wrappedParam]

theorem field_texts_return_lines (layout : Layout) (symbol : Symbol) :
    (layout.returnLines symbol).flatMap fieldTexts =
      if layout.showsReturn symbol then [layout.typeText symbol.returns.type, returnDescription]
      else [] := by
  unfold returnLines
  split
  · split
    · simp [alignedReturn, braced]
    · simp [wrappedReturn]
  · rfl

theorem field_texts_variable_lines (layout : Layout) (symbol : Symbol) :
    (layout.variableLines symbol).flatMap fieldTexts = [layout.typeText symbol.varType] := by
  simp only [variableLines]
  split
  · simp [braced]
  · simp

theorem blanks_param (layout : Layout) (param : Symbol.Param) :
    [layout.typeText param.type, paramName param, paramDescription param] =
      if param.name = "" then [layout.typeText param.type, "[name]", "[description]"]
      else [layout.typeText param.type, param.name, "[" ++ param.name ++ " description]"] := by
  by_cases unnamed : param.name = ""
  · simp [paramName, paramDescription, Symbol.Param.isNamed, unnamed]
  · simp [paramName, paramDescription, Symbol.Param.isNamed, unnamed]

theorem shows_return_iff (layout : Layout) (symbol : Symbol) :
    layout.showsReturn symbol = true ↔ symbol.returns.present = true ∧
      (layout.settings.alwaysShowReturnTag = true ∨ symbol.returns.type ≠ none) := by
  simp [showsReturn, Option.isSome_iff_ne_none]

theorem field_texts_sections (layout : Layout) (symbol : Symbol) :
    (layout.sections symbol).flatMap (·.flatMap fieldTexts) = blanks layout.settings symbol := by
  cases same : symbol.kind with
  | function =>
      simp only [sections, blanks, same, List.flatMap_cons, List.flatMap_nil, List.append_nil,
        field_texts_param_lines, field_texts_return_lines, shows_return_iff, field_texts_field,
        field_texts_nil, List.singleton_append, blanks_param]
      rfl
  | var =>
      simp only [sections, blanks, same, List.flatMap_cons, List.flatMap_nil, List.append_nil,
        field_texts_variable_lines, field_texts_field, field_texts_nil, List.singleton_append]
      rfl
  | classLike => simp [sections, blanks, same]
  | unset => simp [sections, blanks, same]

/-- The tab stops of a comment go through the blanks of its symbol. -/
theorem stops_render_eq_numbered {layout : Layout} {symbol : Symbol}
    (recognized : symbol.isRecognized = true)
    (free : ∀ marker ∈ layout.settings.markers.all, '$' ∉ marker.toList) :
    Field.stops (layout.render symbol) = numbered 1 (blanks layout.settings symbol) := by
  rw [render_eq_snippet, stops_snippet (dollar_free_lines symbol free), field_texts_joined,
    List.flatMap_map]
  simp only [field_texts_trimmed]
  rw [field_texts_lines recognized, field_texts_sections]

/-- The tab stops are numbered from one on and go through the blanks, in either style and at any
spacing. -/
theorem tab_stops_render {layout : Layout} {symbol : Symbol}
    (recognized : symbol.isRecognized = true)
    (free : ∀ marker ∈ layout.settings.markers.all, '$' ∉ marker.toList) :
    (Field.stops (layout.render symbol)).map Prod.snd = blanks layout.settings symbol ∧
      (Field.stops (layout.render symbol)).map Prod.fst =
        (List.range' 1 (blanks layout.settings symbol).length).map toString ∧
      ∀ style spacing, Field.stops (layout.render symbol) =
        Field.stops (render ⟨{ layout.settings with
          commentStyle := style, columnSpacing := spacing }, layout.language⟩ symbol) := by
  refine ⟨?_, ?_, ?_⟩
  · rw [stops_render_eq_numbered recognized free, texts_numbered]
  · rw [stops_render_eq_numbered recognized free, numbers_numbered]
  · intro style spacing
    rw [stops_render_eq_numbered recognized free]
    symm
    apply stops_render_eq_numbered recognized
    exact free

theorem tab_stops_render_unnamed_param :
    let symbol : Symbol :=
      { name := "f"
        kind := .function
        params := [{ name := "$a\x7d", type := some "\\" }, {}]
        returns := { present := true } }
    (Field.stops (render ⟨{}, .php⟩ symbol)).map Prod.snd =
        ["[f description]", "\\", "$a\x7d", "[$a\x7d description]", "[type]", "[name]",
          "[description]", "[type]", "[return description]"] ∧
      (Field.stops (render ⟨{}, .php⟩ symbol)).map Prod.fst =
        ["1", "2", "3", "4", "5", "6", "7", "8", "9"] ∧
      ∀ style spacing, Field.stops (render ⟨{}, .php⟩ symbol) =
        Field.stops
          (render ⟨{ commentStyle := style, columnSpacing := spacing }, .php⟩ symbol) := by
  intro symbol
  have named : symbol.isRecognized = true := by decide
  have free : ∀ marker ∈ (⟨{}, .php⟩ : Layout).settings.markers.all, '$' ∉ marker.toList := by
    decide
  obtain ⟨texts, numbers, styles⟩ := tab_stops_render named free
  rw [texts, numbers]
  exact ⟨by decide, by decide, styles⟩

end Layout

end Comment

end DocComment
