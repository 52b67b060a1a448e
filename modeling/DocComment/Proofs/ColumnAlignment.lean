import Mathlib.Data.List.Forall2
import DocComment.Proofs.PlainLines

/-!
The columns of the aligned style. Without its fields every tag line of a function has its type, its
name and its description where those of the other lines are: the widths are taken from what the
reader sees, so neither the numbers of the fields nor what is escaped in them shifts a column.
-/

namespace DocComment

namespace Text

theorem lines_unbroken {text : String} (unbroken : '\n' ∉ text.toList) : lines text = [text] := by
  rw [lines, List.splitOn_eq_singleton unbroken, List.map_singleton, String.ofList_toList]

theorem lines_append_line (first rest : String) :
    lines (first ++ "\n" ++ rest) = lines first ++ lines rest := by
  have spelled : (first ++ "\n" ++ rest).toList = first.toList ++ '\n' :: rest.toList := by simp
  rw [lines, spelled, List.splitOn_append_cons_self, List.map_append, lines, lines]

theorem lines_join {texts : List String} (some : texts ≠ []) :
    lines (joinWith "\n" texts) = texts.flatMap lines := by
  fun_induction joinWith "\n" texts with
  | case1 => exact absurd rfl some
  | case2 text => simp
  | case3 text texts more induction =>
      rw [lines_append_line, induction fun none => more none, List.flatMap_cons]

theorem flat_map_lines {texts : List String} (unbroken : ∀ text ∈ texts, '\n' ∉ text.toList) :
    texts.flatMap lines = texts := by
  induction texts with
  | nil => rfl
  | cons text texts induction =>
      rw [List.flatMap_cons, lines_unbroken (unbroken text (by simp)),
        induction fun other member => unbroken other (by simp [member]), List.singleton_append]

theorem trim_end_unbroken {text : String} (unbroken : '\n' ∉ text.toList) :
    '\n' ∉ (trimEnd text).toList := fun member => unbroken (mem_of_mem_trim_end member)

end Text

namespace Comment

def widest (texts : List String) : Nat := (texts.map String.length).max?.getD 0

theorem length_le_widest {text : String} {texts : List String} (member : text ∈ texts) :
    text.length ≤ widest texts :=
  List.le_max?_getD_of_mem (List.mem_map_of_mem member)

namespace Line

theorem width_eq_length (line : Line) : line.width = line.plain.length := by
  induction line with
  | nil => rfl
  | cons piece line induction => rw [width, plain, String.length_append, induction, Piece.width]

/-- In a column that is wide enough a text is padded up to the start of the next. -/
theorem plain_padded {line : Line} {text : String} (spelled : line.plain = text) {column gap : Nat}
    (positive : 0 < gap) (fits : text.length + gap ≤ column) :
    ∃ count, gap ≤ count ∧ text.length + count = column ∧
      (line.padded column).plain = text ++ Text.spaces count := by
  subst spelled
  refine ⟨column - line.plain.length, by omega, by omega, ?_⟩
  have wide : max (column - line.plain.length) 1 = column - line.plain.length := by omega
  rw [padded, plain_append, width_eq_length, wide]
  simp [plain, Piece.plain]

end Line

namespace Layout

theorem longest_eq_widest (texts : List String) : longest texts = widest texts := by
  rw [longest, List.foldl_max, Nat.zero_max, widest]

end Layout

/-- Where the columns behind the tags start, counted in characters from the start of a line. -/
structure Offsets where
  type : Nat
  name : Nat
  description : Nat
  deriving DecidableEq, Repr

namespace Layout

open Line

variable (layout : Layout)

def shownTags (symbol : Symbol) : List String :=
  (if symbol.params = [] then [] else [layout.language.paramTag]) ++
    if symbol.returns.present ∧ (layout.settings.alwaysShowReturnTag ∨ symbol.returns.type ≠ none)
    then [layout.language.returnTag] else []

def shownTypes (symbol : Symbol) : List String :=
  symbol.params.map (fun param => param.type.getD layout.settings.typePlaceholder) ++
    if symbol.returns.present ∧ (layout.settings.alwaysShowReturnTag ∨ symbol.returns.type ≠ none)
    then [symbol.returns.type.getD layout.settings.typePlaceholder] else []

def shownNames (symbol : Symbol) : List String :=
  symbol.params.map fun param => if param.name = "" then "[name]" else param.name

/-- Each column is as wide as the longest text in it and the gap, that of the types two wider for
their braces. There is no column for names without a parameter. -/
def offsets (symbol : Symbol) : Offsets :=
  let gap := max layout.settings.columnSpacing 1
  let start := layout.settings.markers.separator.length
  let maxTag := widest (layout.shownTags symbol)
  let maxType := widest (layout.shownTypes symbol)
  let maxName := widest (shownNames symbol)
  { type := start + maxTag + gap
    name := start + maxTag + gap + maxType + 2 + gap
    description := start + (maxTag + gap) + (maxType + 2 + gap) +
      if symbol.params = [] then 0 else maxName + gap }

/-- The row of a parameter. Each column starts at its offset, with nothing but spaces in front of it
and at least as many as the gap has. -/
def ParamRow (offsets : Offsets) (param : Symbol.Param) (row : String) : Prop :=
  let gap := max layout.settings.columnSpacing 1
  let type := param.type.getD layout.settings.typePlaceholder
  let name := if param.name = "" then "[name]" else param.name
  let description :=
    if param.name = "" then "[description]" else "[" ++ param.name ++ " description]"
  ∃ a b c : Nat, gap ≤ a ∧ gap ≤ b ∧ gap ≤ c ∧
    let tagged := layout.settings.markers.separator ++ layout.language.paramTag ++ Text.spaces a
    let typed := tagged ++ "\x7b" ++ type ++ "\x7d" ++ Text.spaces b
    let named := typed ++ name ++ Text.spaces c
    row = named ++ description ∧ tagged.length = offsets.type ∧ typed.length = offsets.name ∧
      named.length = offsets.description

/-- The row of a return, which has no name: its description starts where those of the parameters
do. -/
def ReturnRow (offsets : Offsets) (returns : Symbol.Return) (row : String) : Prop :=
  let gap := max layout.settings.columnSpacing 1
  let type := returns.type.getD layout.settings.typePlaceholder
  ∃ a b : Nat, gap ≤ a ∧ gap ≤ b ∧
    let tagged := layout.settings.markers.separator ++ layout.language.returnTag ++ Text.spaces a
    let typed := tagged ++ "\x7b" ++ type ++ "\x7d" ++ Text.spaces b
    row = typed ++ "[return description]" ∧ tagged.length = offsets.type ∧
      typed.length = offsets.description

theorem param_name_eq (param : Symbol.Param) :
    paramName param = if param.name = "" then "[name]" else param.name := by
  by_cases unnamed : param.name = "" <;> simp [paramName, Symbol.Param.isNamed, unnamed]

theorem param_description_eq (param : Symbol.Param) :
    paramDescription param =
      if param.name = "" then "[description]" else "[" ++ param.name ++ " description]" := by
  by_cases unnamed : param.name = "" <;> simp [paramDescription, Symbol.Param.isNamed, unnamed]

/-- The widths that the lines are padded to. -/
theorem columns_eq (symbol : Symbol) :
    (layout.columns symbol).tag = widest (layout.shownTags symbol) + layout.settings.gap ∧
      (layout.columns symbol).type =
        widest (layout.shownTypes symbol) + 2 + layout.settings.gap ∧
      (layout.columns symbol).name =
        if symbol.params = [] then 0 else widest (shownNames symbol) + layout.settings.gap := by
  refine ⟨?_, ?_, ?_⟩
  · simp only [columns, longest_eq_widest, shows_return_iff, List.isEmpty_iff, shownTags]
  · simp only [columns, longest_eq_widest, shows_return_iff, shownTypes, typeText]
  · simp only [columns, longest_eq_widest, List.isEmpty_iff, shownNames, ← param_name_eq]

theorem gap_positive (settings : Settings) : 0 < settings.gap :=
  Nat.lt_of_lt_of_le Nat.zero_lt_one (Nat.le_max_right _ _)

theorem plain_braced (type : String) : (braced type).plain = "\x7b" ++ type ++ "\x7d" := by
  simp [braced, plain, Piece.plain, String.append_assoc]

theorem length_braced (type : String) : ("\x7b" ++ type ++ "\x7d").length = type.length + 2 := by
  have brace : "\x7b".length = 1 ∧ "\x7d".length = 1 := ⟨rfl, rfl⟩
  simp only [String.length_append]
  omega

theorem plain_literal (text : String) : plain [.literal text] = text := by
  simp [plain, Piece.plain]

theorem plain_field (text : String) : plain [.field text] = text := by
  simp [plain, Piece.plain]

theorem length_spaces (count : Nat) : (Text.spaces count).length = count := by
  simp [Text.spaces]

variable {layout} {symbol : Symbol}

theorem param_row {param : Symbol.Param} (listed : param ∈ symbol.params) :
    layout.ParamRow (layout.offsets symbol) param
      (layout.settings.markers.separator ++
        (layout.alignedParam (layout.columns symbol) param).plain) := by
  have gap : layout.settings.gap = max layout.settings.columnSpacing 1 := rfl
  have positive := gap_positive layout.settings
  have some : symbol.params ≠ [] := List.ne_nil_of_mem listed
  obtain ⟨tags, types, names⟩ := layout.columns_eq symbol
  rw [if_neg some] at names
  have tagFits : layout.language.paramTag.length ≤ widest (layout.shownTags symbol) :=
    length_le_widest (by simp [shownTags, some])
  have typeFits : (layout.typeText param.type).length ≤ widest (layout.shownTypes symbol) :=
    length_le_widest (List.mem_append_left _ (List.mem_map_of_mem listed))
  have nameFits : (paramName param).length ≤ widest (shownNames symbol) := by
    rw [param_name_eq]
    exact length_le_widest (List.mem_map_of_mem listed)
  have braces := length_braced (layout.typeText param.type)
  obtain ⟨a, wideTag, tagEnd, tag⟩ := plain_padded (plain_literal layout.language.paramTag)
    positive (by omega : _ ≤ (layout.columns symbol).tag)
  obtain ⟨b, wideType, typeEnd, type⟩ := plain_padded (plain_braced (layout.typeText param.type))
    positive (by omega : _ ≤ (layout.columns symbol).type)
  obtain ⟨c, wideName, nameEnd, name⟩ := plain_padded (plain_field (paramName param))
    positive (by omega : _ ≤ (layout.columns symbol).name)
  simp only [String.length_append] at braces typeEnd
  refine ⟨a, b, c, wideTag, wideType, wideName, ?_⟩
  rw [← param_name_eq, ← param_description_eq, ← typeText]
  simp only [length_spaces, String.length_append, offsets, if_neg some]
  refine ⟨?_, by omega, by omega, by omega⟩
  rw [alignedParam, plain_append, plain_append, plain_append, tag, type, name, plain_field]
  simp only [String.append_assoc]

theorem return_row (shown : symbol.returns.present = true ∧
    (layout.settings.alwaysShowReturnTag = true ∨ symbol.returns.type ≠ none)) :
    layout.ReturnRow (layout.offsets symbol) symbol.returns
      (layout.settings.markers.separator ++
        (layout.alignedReturn (layout.columns symbol) symbol.returns).plain) := by
  have gap : layout.settings.gap = max layout.settings.columnSpacing 1 := rfl
  have positive := gap_positive layout.settings
  obtain ⟨tags, types, names⟩ := layout.columns_eq symbol
  rw [gap] at names
  have tagFits : layout.language.returnTag.length ≤ widest (layout.shownTags symbol) :=
    length_le_widest (by simp [shownTags, shown])
  have typeFits : (layout.typeText symbol.returns.type).length ≤
      widest (layout.shownTypes symbol) :=
    length_le_widest (by simp [shownTypes, shown, typeText])
  have braces := length_braced (layout.typeText symbol.returns.type)
  obtain ⟨a, wideTag, tagEnd, tag⟩ := plain_padded (plain_literal layout.language.returnTag)
    positive (by omega : _ ≤ (layout.columns symbol).tag)
  obtain ⟨b, wideType, typeEnd, type⟩ := plain_padded
    (plain_braced (layout.typeText symbol.returns.type)) positive
    (by omega : _ ≤ (layout.columns symbol).type + (layout.columns symbol).name)
  simp only [String.length_append] at braces typeEnd
  refine ⟨a, b, wideTag, wideType, ?_⟩
  rw [← typeText]
  simp only [length_spaces, String.length_append, offsets]
  refine ⟨?_, by omega, by omega⟩
  rw [alignedReturn, plain_append, plain_append, tag, type, plain_field]
  simp only [String.append_assoc, returnDescription]

theorem type_text_one_line (placeholder : '\n' ∉ layout.settings.typePlaceholder.toList)
    {type : Option String} (oneLine : ∀ text ∈ type, '\n' ∉ text.toList) :
    '\n' ∉ (layout.typeText type).toList := by
  cases type with
  | none => exact placeholder
  | some text => exact oneLine text rfl

theorem aligned_param_unbroken {param : Symbol.Param} (columns : Columns)
    (type : '\n' ∉ (layout.typeText param.type).toList) (name : '\n' ∉ param.name.toList) :
    (layout.alignedParam columns param).Unbroken := by
  have tags := tags_unbroken layout.language
  have shownName : '\n' ∉ (paramName param).toList := by
    rw [param_name_eq]
    split
    · decide
    · exact name
  have description : '\n' ∉ (paramDescription param).toList := by
    rw [param_description_eq]
    split
    · decide
    · exact description_unbroken name
  simp [alignedParam, braced, padded_unbroken, tags, type, shownName, description]

theorem aligned_return_unbroken {returns : Symbol.Return} (columns : Columns)
    (type : '\n' ∉ (layout.typeText returns.type).toList) :
    (layout.alignedReturn columns returns).Unbroken := by
  have tags := tags_unbroken layout.language
  simp [alignedReturn, braced, padded_unbroken, returnDescription, tags, type]

def separated (between : String) (rows : List String) : List String :=
  if rows = [] then [] else between :: rows

theorem intercalate_filled (between : String) {first : List String} (some : first ≠ [])
    (rest : List (List String)) :
    [between].intercalate ((first :: rest).filter fun rows => !rows.isEmpty) =
      first ++ rest.flatMap (separated between) := by
  induction rest generalizing first with
  | nil => simp [some]
  | cons rows rest induction =>
      rw [List.filter_cons_of_pos (by simpa using some), List.flatMap_cons]
      by_cases empty : rows = []
      · rw [List.filter_cons_of_neg (by simp [empty]), separated, if_pos empty, List.nil_append,
          ← induction some, List.filter_cons_of_pos (by simpa using some)]
      · have filled : ∀ kept : List (List String),
            [between].intercalate (first :: rows :: kept) =
              first ++ between :: [between].intercalate (rows :: kept) := by
          intro kept
          simp [List.intercalate]
        rw [List.filter_cons_of_pos (by simpa using empty), filled, separated, if_neg empty,
          ← List.filter_cons_of_pos (by simpa using empty), induction empty]
        simp

theorem map_filled {β : Type} (change : Line → β) (sections : List (List Line)) :
    (sections.filter fun lines => !lines.isEmpty).map (·.map change) =
      (sections.map (·.map change)).filter fun rows => !rows.isEmpty := by
  rw [List.filter_map]
  congr 2
  funext lines
  simp

def tagRows (layout : Layout) (lines : List Line) : List String :=
  lines.map fun line => layout.settings.markers.separator ++ line.plain

theorem plain_lines_function (recognized : symbol.isRecognized = true)
    (function : symbol.kind = .function) :
    let between := Text.trimEnd layout.settings.markers.separator
    layout.plainLines symbol =
      [Text.trimEnd layout.settings.markers.opening] ++
        [layout.settings.markers.separator ++ ("[" ++ symbol.name ++ " description]")] ++
        separated between (layout.tagRows (layout.paramLines symbol)) ++
        separated between (layout.tagRows (layout.returnLines symbol)) ++
        [Text.trimEnd layout.settings.markers.closing] := by
  intro between
  have sections : layout.sections symbol =
      [[[.field ("[" ++ symbol.name ++ " description]")]], layout.paramLines symbol,
        layout.returnLines symbol] := by
    simp only [Layout.sections, function]
  simp only [plainLines, recognized, if_true, map_filled, sections, List.map_cons, List.map_nil]
  rw [intercalate_filled _ (by simp), plain_field]
  simp [tagRows, between]

theorem separated_unbroken {between : String} (unbroken : '\n' ∉ between.toList)
    {rows : List String} (inside : ∀ row ∈ rows, '\n' ∉ row.toList) :
    ∀ row ∈ separated between rows, '\n' ∉ row.toList := by
  unfold separated
  split
  · simp
  · simpa [unbroken] using inside

section

variable (markers : ∀ marker ∈ layout.settings.markers.all, '\n' ∉ marker.toList)
include markers

theorem tag_rows_unbroken {lines : List Line} (unbroken : ∀ line ∈ lines, line.Unbroken) :
    ∀ row ∈ layout.tagRows lines, '\n' ∉ row.toList := by
  intro row member
  obtain ⟨line, listed, rfl⟩ := List.mem_map.1 member
  have separator := markers layout.settings.markers.separator (by simp [Markers.all])
  simp [separator, plain_unbroken (unbroken line listed)]

/-- The plain text of a comment for a function, line by line. The name of the function may have line
feeds of its own. -/
theorem lines_strip_function (recognized : symbol.isRecognized = true)
    (function : symbol.kind = .function)
    (free : ∀ marker ∈ layout.settings.markers.all, '$' ∉ marker.toList)
    (params : ∀ line ∈ layout.paramLines symbol, line.Unbroken)
    (returns : ∀ line ∈ layout.returnLines symbol, line.Unbroken) :
    let between := Text.trimEnd layout.settings.markers.separator
    Text.lines (Field.strip (layout.render symbol)) =
      [Text.trimEnd layout.settings.markers.opening] ++
        Text.lines (layout.settings.markers.separator ++
          ("[" ++ symbol.name ++ " description]")) ++
        separated between (layout.tagRows (layout.paramLines symbol)) ++
        separated between (layout.tagRows (layout.returnLines symbol)) ++
        [Text.trimEnd layout.settings.markers.closing] := by
  intro between
  have opening := Text.trim_end_unbroken
    (markers layout.settings.markers.opening (by simp [Markers.all]))
  have separator := Text.trim_end_unbroken
    (markers layout.settings.markers.separator (by simp [Markers.all]))
  have closing := Text.trim_end_unbroken
    (markers layout.settings.markers.closing (by simp [Markers.all]))
  have paramRows := separated_unbroken separator (tag_rows_unbroken markers params)
  have returnRows := separated_unbroken separator (tag_rows_unbroken markers returns)
  have stripped : Field.strip (layout.render symbol) =
      Text.joinWith "\n" (layout.plainLines symbol) := by
    rw [render_eq_snippet, strip_snippet (dollar_free_lines symbol free), plain_joined,
      List.map_map, ← plain_trimmed_lines]
    rfl
  rw [stripped, Text.lines_join (by simp [plainLines]), plain_lines_function recognized function]
  simp only [List.flatMap_append, List.flatMap_singleton, Text.lines_unbroken opening,
    Text.lines_unbroken closing, Text.flat_map_lines paramRows, Text.flat_map_lines returnRows,
    between]

end

/-- In the plain text of a comment for a function the types, the names and the descriptions of all
tag lines stand in columns of their own, at least the gap apart. -/
theorem tag_columns_aligned (aligned : layout.settings.commentStyle = .aligned)
    (recognized : symbol.isRecognized = true) (function : symbol.kind = .function)
    (params : ∀ param ∈ symbol.params,
      '\n' ∉ param.name.toList ∧ ∀ type ∈ param.type, '\n' ∉ type.toList)
    (returns : ∀ type ∈ symbol.returns.type, '\n' ∉ type.toList)
    (free : ∀ marker ∈ layout.settings.markers.all, '$' ∉ marker.toList)
    (markers : ∀ marker ∈ layout.settings.markers.all, '\n' ∉ marker.toList)
    (placeholder : '\n' ∉ layout.settings.typePlaceholder.toList) :
    ∃ paramRows returnRows,
      (let between := Text.trimEnd layout.settings.markers.separator
      Text.lines (Field.strip (layout.render symbol)) =
        [Text.trimEnd layout.settings.markers.opening] ++
          Text.lines (layout.settings.markers.separator ++
            ("[" ++ symbol.name ++ " description]")) ++
          separated between paramRows ++ separated between returnRows ++
          [Text.trimEnd layout.settings.markers.closing]) ∧
      List.Forall₂ (layout.ParamRow (layout.offsets symbol)) symbol.params paramRows ∧
      if symbol.returns.present ∧
        (layout.settings.alwaysShowReturnTag ∨ symbol.returns.type ≠ none)
      then ∃ row, returnRows = [row] ∧
        layout.ReturnRow (layout.offsets symbol) symbol.returns row
      else returnRows = [] := by
  have paramLines : layout.paramLines symbol =
      symbol.params.map (layout.alignedParam (layout.columns symbol)) := by
    simp only [Layout.paramLines, aligned]
  have returnLines : layout.returnLines symbol =
      if layout.showsReturn symbol then
        [layout.alignedReturn (layout.columns symbol) symbol.returns]
      else [] := by
    simp only [Layout.returnLines, aligned]
  refine ⟨_, _, lines_strip_function markers recognized function free ?_ ?_, ?_, ?_⟩
  · rw [paramLines]
    intro line member
    obtain ⟨param, listed, rfl⟩ := List.mem_map.1 member
    obtain ⟨name, type⟩ := params param listed
    exact aligned_param_unbroken _ (type_text_one_line placeholder type) name
  · rw [returnLines]
    intro line member
    split at member
    · obtain rfl := List.mem_singleton.1 member
      exact aligned_return_unbroken _ (type_text_one_line placeholder returns)
    · simp at member
  · rw [paramLines, tagRows, List.map_map, List.forall₂_map_right_iff, List.forall₂_same]
    intro param listed
    exact param_row listed
  · split
    · next shown =>
        rw [returnLines, if_pos ((layout.shows_return_iff symbol).2 shown)]
        exact ⟨_, rfl, return_row shown⟩
    · next hidden =>
        rw [returnLines, if_neg fun shown => hidden ((layout.shows_return_iff symbol).1 shown)]
        rfl

/-- A name with a brace in it, a parameter without one and a spacing of zero, which counts as one. -/
theorem tag_columns_aligned_in_php :
    let layout : Layout :=
      { settings := { columnSpacing := 0, markers := { separator := "# " } }, language := .php }
    let symbol : Symbol :=
      { name := "f"
        kind := .function
        params := [{ name := "$a\x7d", type := some "\\Foo" }, {}]
        returns := { present := true, type := some "array" } }
    layout.settings.commentStyle = .aligned ∧ symbol.isRecognized = true ∧
      symbol.kind = .function ∧
      (∀ param ∈ symbol.params,
        '\n' ∉ param.name.toList ∧ ∀ type ∈ param.type, '\n' ∉ type.toList) ∧
      (∀ type ∈ symbol.returns.type, '\n' ∉ type.toList) ∧
      (∀ marker ∈ layout.settings.markers.all, '$' ∉ marker.toList ∧ '\n' ∉ marker.toList) ∧
      layout.offsets symbol = ⟨10, 19, 26⟩ ∧
      ∃ paramRows returnRows,
        (Text.lines (Field.strip (layout.render symbol)) =
          ["/**"] ++ Text.lines ("# " ++ ("[" ++ "f" ++ " description]")) ++
            separated "#" paramRows ++ separated "#" returnRows ++ [" */"]) ∧
        List.Forall₂ (layout.ParamRow ⟨10, 19, 26⟩) symbol.params paramRows ∧
        ∃ row, returnRows = [row] ∧ layout.ReturnRow ⟨10, 19, 26⟩ symbol.returns row := by
  intro layout symbol
  have offsets : layout.offsets symbol = ⟨10, 19, 26⟩ := by decide
  have params : ∀ param ∈ symbol.params,
      '\n' ∉ param.name.toList ∧ ∀ type ∈ param.type, '\n' ∉ type.toList := by decide
  have markers : ∀ marker ∈ layout.settings.markers.all,
      '$' ∉ marker.toList ∧ '\n' ∉ marker.toList := by decide
  have trimmed : Text.trimEnd layout.settings.markers.opening = "/**" ∧
      Text.trimEnd layout.settings.markers.separator = "#" ∧
      Text.trimEnd layout.settings.markers.closing = " */" := by decide
  obtain ⟨paramRows, returnRows, rows, listed, shown⟩ :=
    @tag_columns_aligned layout symbol rfl rfl rfl params (by decide)
      (fun marker listed => (markers marker listed).1)
      (fun marker listed => (markers marker listed).2) (by decide)
  rw [offsets] at listed shown
  simp only [trimmed] at rows
  rw [if_pos (by decide)] at shown
  exact ⟨rfl, rfl, rfl, params, by decide, markers, offsets, paramRows, returnRows, rows, listed,
    shown⟩

end Layout

end Comment

end DocComment
