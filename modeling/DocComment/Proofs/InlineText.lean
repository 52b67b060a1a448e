import DocComment.Proofs.Spacing

/-!
The texts that a symbol is made of. Names and types are put together from words and signs alone, so
the only white space in them is the space after a comma, whatever the line holds in its strings and
comments. Names of parameters have no white space at all.
-/

namespace DocComment

namespace Text

def Solid (text : String) : Prop := ∀ c ∈ text.toList, isBlank c = false

def Inline (text : String) : Prop := ∀ c ∈ text.toList, isBlank c = true → c = ' '

instance (text : String) : Decidable (Inline text) := List.decidableBAll _ text.toList

theorem solid_empty : Solid "" := by
  simp [Solid]

theorem Solid.inline {text : String} (solid : Solid text) : Inline text := by
  intro c member blank
  exact absurd (blank.symm.trans (solid c member)) (by decide)

theorem inline_get {text : Option String} (inline : ∀ given ∈ text, Inline given) :
    Inline (text.getD "") := by
  cases text with
  | none => decide
  | some given => exact inline given rfl

theorem Inline.append {front back : String} (left : Inline front) (right : Inline back) :
    Inline (front ++ back) := by
  intro c member
  rw [String.toList_append] at member
  rcases List.mem_append.1 member with inFront | inBack
  · exact left c inFront
  · exact right c inBack

theorem Inline.of_subset {text part : String} (inline : Inline text)
    (subset : part.toList ⊆ text.toList) : Inline part :=
  fun c member => inline c (subset member)

theorem Inline.no_line_feed {text : String} (inline : Inline text) : '\n' ∉ text.toList := by
  intro member
  exact absurd (inline '\n' member (by decide)) (by decide)

theorem drop_last_run_subset (c : Char) (text : String) :
    (dropLastRun c text).toList ⊆ text.toList := by
  intro d member
  rw [dropLastRun, String.toList_ofList, List.mem_reverse] at member
  exact List.mem_reverse.1 (List.dropWhile_subset _ member)

theorem until_colons_subset (cs : List Char) : untilColons cs ⊆ cs := by
  fun_induction untilColons cs with
  | case1 => exact List.Subset.refl _
  | case2 => exact List.nil_subset _
  | case3 c cs _ induction => exact List.cons_subset_cons c induction

theorem after_last_colons_subset (text : String) :
    (afterLastColons text).toList ⊆ text.toList := by
  intro c member
  rw [afterLastColons, String.toList_ofList, List.mem_reverse] at member
  exact List.mem_reverse.1 (until_colons_subset _ member)

def blanks : List Char :=
  blankRanges.flatMap fun (low, high) => (List.range' low (high + 1 - low)).map Char.ofNat

theorem mem_blanks {c : Char} (blank : isBlank c = true) : c ∈ blanks := by
  obtain ⟨⟨low, high⟩, range, within⟩ := List.any_eq_true.1 blank
  simp only [Bool.and_eq_true, decide_eq_true_eq] at within
  refine List.mem_flatMap.2 ⟨(low, high), range, List.mem_map.2 ⟨c.toNat, ?_, Char.ofNat_toNat c⟩⟩
  rw [List.mem_range'_1]
  omega

end Text

namespace Token

def Solid (token : Token) : Prop := token.kind ≠ .string → token.text ≠ "" ∧ Text.Solid token.text

theorem Solid.word {token : Token} (solid : token.Solid) (word : token.kind.isWord = true) :
    token.text ≠ "" ∧ Text.Solid token.text := by
  apply solid
  intro string
  simp [string, Kind.isWord] at word

theorem Stands.solid {token : Token} (stands : Stands token.kind token.text.toList) :
    token.Solid := by
  intro plain
  have each : ∀ kind ∈ Kind.all, kind.isTrivia = false → kind ≠ .string →
      kind.pattern.avoids Text.blanks = true := by decide
  have avoiding := each token.kind (Kind.mem_all _) stands.significant plain
  constructor
  · intro empty
    obtain ⟨c, cs, spelled, _⟩ := stands.cons
    simp [empty] at spelled
  · intro c member
    rw [Bool.eq_false_iff]
    intro blank
    exact Pattern.not_mem_of_avoids (Text.mem_blanks blank) avoiding stands.described member

end Token

namespace TypeText

structure Spelled (type : String) : Prop where
  nonempty : type ≠ ""
  inline : Text.Inline type

theorem spelled_of_word {token : Token} (solid : token.Solid) (word : token.kind.isWord = true) :
    Spelled token.text :=
  ⟨(solid.word word).1, (solid.word word).2.inline⟩

theorem Spelled.append {type : String} (spelled : Spelled type) {added : String}
    (inline : Text.Inline added) : Spelled (type ++ added) := by
  refine ⟨?_, spelled.inline.append inline⟩
  intro empty
  exact spelled.nonempty (String.append_eq_empty_iff.1 empty).1

theorem Spelled.to_array {type : String} (spelled : Spelled type) : Spelled (toArray type) := by
  unfold toArray
  split
  · exact spelled
  · exact spelled.append (by decide)

theorem to_array_inline {type : String} (inline : Text.Inline type) :
    Text.Inline (toArray type) := by
  unfold toArray
  split
  · exact inline
  · exact inline.append (by decide)

def signTexts : List String := ["?", "<", ">", ", ", "[]", "|", ".", "::", "..."]

/-- A type grows by a word or by a sign; only a bracket that is part of it already adds nothing. -/
theorem addition_cases {type added : String} {depth after : Nat} {token : Token}
    (found : addition? type depth token = some (added, after)) :
    (token.kind = .identifier ∧ added = token.text) ∨
      added ∈ signTexts ∨ (added = "" ∧ type ≠ "") := by
  cases kind : token.kind <;>
    simp only [addition?, kind, Option.ite_none_right_eq_some, Option.ite_none_left_eq_some,
      Option.some.injEq, Prod.mk.injEq, reduceCtorEq] at found
  case closeBracket =>
    obtain ⟨closes, rfl, _⟩ := found
    refine .inr (.inr ⟨rfl, ?_⟩)
    rintro rfl
    exact absurd closes (by decide)
  all_goals
    obtain ⟨_, rfl, _⟩ := found
    simp [signTexts]

section

variable {token : Token} (solid : token.Solid) {type : Option String} {depth after : Nat}
  {extended : String} (found : extend? type depth token = some (extended, after))
include solid found

theorem extend_inline (inline : ∀ text ∈ type, Text.Inline text) : Text.Inline extended := by
  obtain ⟨⟨added, _⟩, addition, same⟩ := Option.map_eq_some_iff.1 found
  obtain ⟨rfl, _⟩ := Prod.mk.inj same
  refine (Text.inline_get inline).append ?_
  rcases addition_cases addition with ⟨word, rfl⟩ | sign | ⟨rfl, _⟩
  · exact (solid.word (by rw [word]; rfl)).2.inline
  · have signs : ∀ sign ∈ signTexts, Text.Inline sign := by decide
    exact signs added sign
  · decide

theorem extend_nonempty : extended ≠ "" := by
  obtain ⟨⟨added, _⟩, addition, same⟩ := Option.map_eq_some_iff.1 found
  obtain ⟨rfl, _⟩ := Prod.mk.inj same
  intro empty
  obtain ⟨untyped, rfl⟩ := String.append_eq_empty_iff.1 empty
  rcases addition_cases addition with ⟨word, unspelled⟩ | sign | ⟨_, typed⟩
  · exact (solid.word (by rw [word]; rfl)).1 unspelled.symm
  · exact absurd sign (by decide)
  · exact typed untyped

theorem extend_spelled (spelled : ∀ text ∈ type, Spelled text) : Spelled extended :=
  ⟨extend_nonempty solid found, extend_inline solid found fun text member =>
    (spelled text member).inline⟩

end

end TypeText

namespace Symbol

/-- A parameter whose texts fit on a line; its name has no white space at all. -/
structure Param.Inline (param : Param) : Prop where
  name : Text.Solid param.name
  type : ∀ type ∈ param.type, Text.Inline type

structure Inline (symbol : Symbol) : Prop where
  name : Text.Inline symbol.name
  params : ∀ param ∈ symbol.params, param.Inline
  returnType : ∀ type ∈ symbol.returns.type, TypeText.Spelled type
  varType : ∀ type ∈ symbol.varType, TypeText.Spelled type

theorem inline_empty : Inline {} := ⟨by decide, nofun, nofun, nofun⟩

namespace Inline

variable {symbol : Symbol} (inline : symbol.Inline)
include inline

theorem push_param {param : Param} (pushed : param.Inline) : (symbol.pushParam param).Inline := by
  refine { inline with params := ?_ }
  intro other member
  rcases List.mem_append.1 member with earlier | last
  · exact inline.params other earlier
  · rw [List.mem_singleton.1 last]
    exact pushed

theorem drop_last_param : symbol.dropLastParam.Inline :=
  { inline with params := fun param member => inline.params param (List.dropLast_subset _ member) }

theorem modify_last_param {change : Param → Param}
    (keeps : ∀ param, param.Inline → (change param).Inline) :
    (symbol.modifyLastParam change).Inline := by
  unfold modifyLastParam
  split
  · next last found =>
      refine { inline with params := ?_ }
      intro param member
      rcases List.mem_append.1 member with earlier | changed
      · exact inline.params param (List.dropLast_subset _ earlier)
      · rw [List.mem_singleton.1 changed]
        exact keeps last (inline.params last (List.mem_of_getLast? found))
  · exact inline

theorem rename {name : String} (renamed : Text.Inline name) : Inline { symbol with name } :=
  { inline with name := renamed }

theorem to_function (returns : Bool) : (symbol.toFunction returns).Inline :=
  { inline with varType := nofun }

theorem to_variable {type : Option String} (typed : ∀ text ∈ type, TypeText.Spelled text) :
    (symbol.toVariable type).Inline :=
  { inline with params := nofun, returnType := nofun, varType := typed }

end Inline

end Symbol

theorem is_word_of_admits {grammar : Grammar} {token : Token} {property : Grammar.Property}
    (admitted : grammar.admits token property = true) : token.kind.isWord = true :=
  (Bool.and_eq_true_iff.1 admitted).1

theorem is_word_of_is_name {grammar : Grammar} {token : Token}
    (accepted : grammar.isName token = true) : token.kind.isWord = true := by
  simp only [Grammar.isName, Bool.and_eq_true] at accepted
  exact accepted.1.1.1

/-- A reading whose symbol, and whatever waits to become part of it, fits on a line. -/
structure Reading.Inline (reading : Reading) : Prop where
  symbol : reading.symbol.Inline
  -- The type of a pattern is read into an empty text, so this one need not be spelled.
  pendingType : ∀ type ∈ reading.expects.pendingType, Text.Inline type
  heldType : ∀ type ∈ reading.expects.heldType, TypeText.Spelled type
  heldName : ∀ name ∈ reading.expects.heldName, Text.Inline name

theorem forall_mem_some {α : Type} {holds : α → Prop} {a : α} (known : holds a) :
    ∀ b ∈ some a, holds b := by
  rintro _ ⟨⟩
  exact known

section

variable {reading extended : Reading} {token : Token} (inline : reading.Inline)
include inline

theorem expected_value_inline (found : DefaultValue.expected? reading token = some extended) :
    extended.Inline := by
  obtain ⟨_, collected⟩ := Option.ite_none_right_eq_some.1 found
  obtain ⟨nesting, _, rfl⟩ := Option.map_eq_some_iff.1 collected
  exact { inline with symbol := inline.symbol.modify_last_param fun _ param => { param with } }

theorem expected_value_get_inline {otherwise : Reading} (other : otherwise.Inline) :
    ((DefaultValue.expected? reading token).getD otherwise).Inline := by
  cases found : DefaultValue.expected? reading token with
  | none => exact other
  | some taken => exact expected_value_inline inline found

theorem Reading.Inline.named {name : String} (fits : Text.Inline name) :
    (reading.named name).Inline :=
  { inline with symbol := inline.symbol.rename fits }

variable (solid : token.Solid)
include solid

namespace TypeText

theorem extend_return_inline (found : extendReturn? reading token = some extended) :
    extended.Inline := by
  obtain ⟨⟨type, depth⟩, longer, rfl⟩ := Option.map_eq_some_iff.1 found
  have spelled := extend_spelled solid longer inline.symbol.returnType
  exact { inline with symbol := { inline.symbol with returnType := forall_mem_some spelled } }

theorem extend_variable_inline (found : extendVariable? reading token = some extended) :
    extended.Inline := by
  obtain ⟨⟨type, depth⟩, longer, rfl⟩ := Option.map_eq_some_iff.1 found
  have spelled := extend_spelled solid longer inline.symbol.varType
  exact { inline with symbol := { inline.symbol with varType := forall_mem_some spelled } }

theorem extend_pending_inline (found : extendPending? reading token = some extended) :
    extended.Inline := by
  obtain ⟨⟨type, depth⟩, longer, rfl⟩ := Option.map_eq_some_iff.1 found
  have fits := extend_inline solid longer inline.pendingType
  exact { inline with pendingType := forall_mem_some fits }

theorem extend_last_param_inline (found : extendLastParam? reading token = some extended) :
    extended.Inline := by
  obtain ⟨last, ends, taken⟩ := Option.bind_eq_some_iff.1 found
  obtain ⟨⟨type, depth⟩, longer, rfl⟩ := Option.map_eq_some_iff.1 taken
  have before := inline.symbol.params last (List.mem_of_getLast? ends)
  have fits := extend_inline solid longer before.type
  exact { inline with
    symbol := inline.symbol.modify_last_param fun _ param =>
      { param with type := forall_mem_some fits } }

end TypeText

end

end DocComment
