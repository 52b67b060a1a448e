import DocComment.Proofs.CommentLines

/-!
The stages of a line agree. Tokens and symbol fail together and for the same reason, the comment
never fails, and it is the empty one exactly when there is no symbol to be had: with a name in it a
comment is always the longer one.
-/

namespace DocComment

namespace Text

theorem length_trim_end_le (text : String) : (trimEnd text).length ≤ text.length := by
  have shorter := (List.dropWhile_sublist isBlank (l := text.toList.reverse)).length_le
  rw [trimEnd, String.length_ofList, trimEndChars, List.length_reverse, ← String.length_toList]
  simpa using shorter

theorem join_with_cons (text : String) {texts : List String} (more : texts ≠ []) :
    joinWith "\n" (text :: texts) = text ++ "\n" ++ joinWith "\n" texts := by
  cases texts with
  | nil => exact absurd rfl more
  | cons next rest => rfl

theorem length_le_join_with_snoc (texts : List String) (last : String) :
    last.length ≤ (joinWith "\n" (texts ++ [last])).length := by
  induction texts with
  | nil => exact Nat.le_refl _
  | cons text texts induction =>
      rw [List.cons_append, join_with_cons text (by simp), String.length_append]
      omega

end Text

namespace Comment

theorem snippets_snoc_literal (lines : List Line) (stop : Nat) (text : String) :
    ∃ texts, snippets stop (lines ++ [[.literal text]]) = texts ++ [text] := by
  induction lines generalizing stop with
  | nil => exact ⟨[], by simp [snippets, Line.snippet]⟩
  | cons line lines induction =>
      obtain ⟨texts, same⟩ := induction (stop + line.fields)
      exact ⟨line.snippet stop :: texts, by rw [List.cons_append, snippets, same, List.cons_append]⟩

namespace Layout

open Line

variable {layout : Layout} {symbol : Symbol}

theorem sections_description (layout : Layout) (symbol : Symbol) :
    ∃ others, layout.sections symbol =
      [[.field ("[" ++ symbol.name ++ " description]")]] :: others := by
  unfold sections
  dsimp only
  split
  all_goals exact ⟨_, rfl⟩

theorem join_sections_line (between line : Line) (rest : List (List Line)) :
    ∃ more, joinSections between ([line] :: rest) = line :: more := by
  cases rest with
  | nil => exact ⟨[], rfl⟩
  | cons next rest => exact ⟨between :: joinSections between (next :: rest), rfl⟩

theorem lines_recognized (recognized : symbol.isRecognized = true) :
    ∃ more, layout.lines symbol =
      [.literal layout.settings.markers.opening] ::
        [.literal layout.settings.markers.separator,
          .field ("[" ++ symbol.name ++ " description]")] ::
        (more ++ [[.literal layout.settings.markers.closing]]) := by
  obtain ⟨others, described⟩ := layout.sections_description symbol
  obtain ⟨more, joined⟩ := join_sections_line [.literal layout.settings.markers.separator]
    [.literal layout.settings.markers.separator, .field ("[" ++ symbol.name ++ " description]")]
    ((others.filter fun lines => !lines.isEmpty).map
      (·.map (.literal layout.settings.markers.separator :: ·)))
  refine ⟨more, ?_⟩
  simp only [lines, recognized, if_true, described, framed]
  rw [List.filter_cons_of_pos (by rfl), List.map_cons, List.map_singleton, joined]
  rfl

/-- The comment for a symbol starts with the description and ends in the closing marker. -/
theorem render_recognized (recognized : symbol.isRecognized = true) :
    ∃ texts, layout.render symbol = Text.trimEnd layout.settings.markers.opening ++ "\n" ++
      (layout.settings.markers.separator ++
        Field.written 1 ("[" ++ symbol.name ++ " description]") ++ "\n" ++
          Text.joinWith "\n" (texts ++ [Text.trimEnd layout.settings.markers.closing])) := by
  obtain ⟨more, whole⟩ := layout.lines_recognized recognized
  rw [render, whole]
  generalize layout.settings.markers = markers
  let description : Line :=
    [.literal markers.separator, .field ("[" ++ symbol.name ++ " description]")]
  have visible : description.EndsVisibly := ends_in_field [_] _
  have described : Text.trimEnd (description.snippet 1) = description.snippet 1 := by
    rw [trim_end_snippet (.inr visible), trimmed_visible visible]
  obtain ⟨texts, rest⟩ := snippets_snoc_literal more 2 markers.closing
  have snipped : snippets 1 ([.literal markers.opening] :: description ::
      (more ++ [[.literal markers.closing]])) =
        markers.opening :: description.snippet 1 :: (texts ++ [markers.closing]) := by
    rw [← rest]
    simp [snippets, Line.snippet, description, Line.fields]
  refine ⟨texts.map Text.trimEnd, ?_⟩
  rw [written, snipped, List.map_cons, List.map_cons, described, List.map_append,
    List.map_singleton, Text.join_with_cons _ (by simp), Text.join_with_cons _ (by simp)]
  simp [description, Line.snippet]

theorem empty_block_eq (layout : Layout) :
    layout.emptyBlock = Text.trimEnd layout.settings.markers.opening ++ "\n" ++
      (Text.trimEnd layout.settings.markers.separator ++ "\n" ++
        Text.trimEnd layout.settings.markers.closing) := by
  simp [emptyBlock, render, lines, Symbol.isRecognized, framed, written, snippets, Line.snippet,
    Text.joinWith]

/-- A comment with a name in it is longer than the empty one, whatever frames them. -/
theorem length_empty_block_lt (recognized : symbol.isRecognized = true) :
    layout.emptyBlock.length < (layout.render symbol).length := by
  obtain ⟨texts, rendered⟩ := layout.render_recognized recognized
  have separator := Text.length_trim_end_le layout.settings.markers.separator
  have closing := Text.length_le_join_with_snoc texts
    (Text.trimEnd layout.settings.markers.closing)
  have braced : "$\x7b".length = 2 := rfl
  rw [rendered, empty_block_eq]
  simp only [String.length_append, Field.written]
  omega

theorem render_eq_empty_block_iff :
    layout.render symbol = layout.emptyBlock ↔ symbol.name = "" ∨ symbol.kind = .unset := by
  have unrecognized : symbol.isRecognized = false ↔ symbol.name = "" ∨ symbol.kind = .unset := by
    simp [Symbol.isRecognized, ← Bool.not_eq_true, imp_iff_not_or]
  rw [← unrecognized]
  constructor
  · intro same
    rw [← Bool.not_eq_true]
    intro recognized
    have longer := layout.length_empty_block_lt recognized
    rw [same] at longer
    exact Nat.lt_irrefl _ longer
  · intro nothing
    have none : ({} : Symbol).isRecognized = false := rfl
    simp only [emptyBlock, render, lines, nothing, none, Bool.false_eq_true, if_false]

end Layout

end Comment

namespace Language

variable (language : Language) (settings : Settings) {spec : OutputSpec} {line : String}

theorem parse_of_tokens {tokens : List Token} (scanned : language.tokens line = .ok tokens) :
    language.parse line = .ok (language.recognize tokens) := by
  rw [parse, scanned]
  rfl

/-- The formats that go with tokens and symbols can write them. -/
theorem available_format_writes (available : spec ∈ OutputSpec.available)
    (data : spec.stage ≠ .comment) :
    (∀ tokens, ∃ text, formatTokens tokens spec.format = .ok text) ∧
      ∀ symbol, ∃ text, formatSymbol symbol spec.format = .ok text := by
  have format : spec.format = .simple ∨ spec.format = .json ∨ spec.format = .yaml := by
    revert data
    revert spec
    decide
  rcases format with same | same | same
  all_goals
    rw [same]
    exact ⟨fun tokens => ⟨_, rfl⟩, fun symbol => ⟨_, rfl⟩⟩

theorem output_of_listing (stage : spec.stage = .token) {tokens : List Token}
    (scanned : language.tokens line = .ok tokens) :
    language.output settings spec line =
      (formatTokens tokens spec.format).mapError .format := by
  simp only [output, stage, scanned]
  rfl

theorem output_of_symbol (stage : spec.stage = .symbol) {symbol : Symbol}
    (parsed : language.parse line = .ok symbol) :
    language.output settings spec line =
      (formatSymbol symbol spec.format).mapError .format := by
  simp only [output, stage, parsed]
  rfl

theorem output_of_scan_error (data : spec.stage ≠ .comment) {cause : Token.ScanError}
    (failed : language.tokens line = .error cause) :
    language.output settings spec line = .error (.scan cause) := by
  cases stage : spec.stage with
  | token =>
      simp only [output, stage, failed]
      rfl
  | symbol =>
      simp only [output, stage, parse, failed]
      rfl
  | comment => exact absurd stage data

theorem output_of_tokens (available : spec ∈ OutputSpec.available) (data : spec.stage ≠ .comment)
    {tokens : List Token} (scanned : language.tokens line = .ok tokens) :
    ∃ text, language.output settings spec line = .ok text := by
  obtain ⟨listed, reported⟩ := available_format_writes available data
  cases stage : spec.stage with
  | token =>
      obtain ⟨text, written⟩ := listed tokens
      exact ⟨text, by rw [language.output_of_listing settings stage scanned, written]; rfl⟩
  | symbol =>
      obtain ⟨text, written⟩ := reported (language.recognize tokens)
      have parsed := language.parse_of_tokens scanned
      exact ⟨text, by rw [language.output_of_symbol settings stage parsed, written]; rfl⟩
  | comment => exact absurd stage data

/-- Tokens and symbol are refused only for what could not be scanned. -/
theorem output_error_iff (available : spec ∈ OutputSpec.available) (data : spec.stage ≠ .comment)
    (line : String) (error : Error) :
    language.output settings spec line = .error error ↔
      ∃ cause, language.tokens line = .error cause ∧ error = .scan cause := by
  cases scanned : language.tokens line with
  | error cause =>
      rw [language.output_of_scan_error settings data scanned]
      simp [eq_comm]
  | ok tokens =>
      obtain ⟨text, written⟩ := language.output_of_tokens settings available data scanned
      simp [written]

theorem output_of_comment (stage : spec.stage = .comment) :
    language.output settings spec line =
      .ok (if spec.format = .plain then Field.strip (language.comment settings line)
        else language.comment settings line) := by
  simp only [output, stage]

theorem comment_eq_empty_block_iff :
    language.comment settings line = Comment.Layout.emptyBlock { settings, language } ↔
      (∃ cause, language.tokens line = .error cause) ∨
        ∃ symbol, language.parse line = .ok symbol ∧ (symbol.name = "" ∨ symbol.kind = .unset) := by
  cases scanned : language.tokens line with
  | error cause =>
      have failed : language.parse line = .error cause := by
        rw [parse, scanned]
        rfl
      exact iff_of_true (comment_of_error settings failed) (.inl ⟨cause, rfl⟩)
  | ok tokens =>
      have parsed := language.parse_of_tokens scanned
      rw [comment_of_symbol settings parsed, Comment.Layout.render_eq_empty_block_iff]
      simp [parsed]

/-- Tokens and symbol fail together and for the same reason. A comment never fails; it is the empty
one exactly if there is no symbol or only one without a name or a kind, and the one for the symbol
otherwise. Its plain text is the snippet without its fields. -/
theorem stages_agree (language : Language) (settings : Settings) (line : String) :
    (∀ listing ∈ OutputSpec.available, ∀ report ∈ OutputSpec.available,
      listing.stage = .token → report.stage = .symbol → ∀ error,
        (language.output settings listing line = .error error ↔
          language.output settings report line = .error error) ∧
        (language.output settings report line = .error error → ∃ cause, error = .scan cause)) ∧
    (∀ spec : OutputSpec, spec.stage = .comment →
      ∃ text, language.output settings spec line = .ok text) ∧
    ∃ snippet, language.output settings ⟨.comment, .snippet⟩ line = .ok snippet ∧
      language.output settings ⟨.comment, .plain⟩ line = .ok (Field.strip snippet) ∧
      ∀ report ∈ OutputSpec.available, report.stage = .symbol →
        (snippet = Comment.Layout.emptyBlock { settings, language } ↔
          (∃ error, language.output settings report line = .error error) ∨
            ∃ symbol, language.parse line = .ok symbol ∧
              (symbol.name = "" ∨ symbol.kind = .unset)) ∧
        ∀ symbol, language.parse line = .ok symbol →
          language.output settings report line =
            (formatSymbol symbol report.format).mapError .format ∧
          snippet = Comment.Layout.render { settings, language } symbol := by
  refine ⟨?_, ?_, language.comment settings line, rfl, rfl, ?_⟩
  · intro listing listed report reported token symbol error
    have tokens := language.output_error_iff settings listed (by simp [token]) line error
    have symbols := language.output_error_iff settings reported (by simp [symbol]) line error
    refine ⟨tokens.trans symbols.symm, fun failed => ?_⟩
    obtain ⟨cause, _, same⟩ := symbols.1 failed
    exact ⟨cause, same⟩
  · intro spec stage
    exact ⟨_, language.output_of_comment settings stage⟩
  · intro report reported stage
    have failed : (∃ error, language.output settings report line = .error error) ↔
        ∃ cause, language.tokens line = .error cause := by
      simp [language.output_error_iff settings reported (by simp [stage])]
    refine ⟨?_, fun symbol parsed => ⟨language.output_of_symbol settings stage parsed, ?_⟩⟩
    · rw [failed]
      exact language.comment_eq_empty_block_iff settings
    · exact comment_of_symbol settings parsed

end Language

end DocComment
