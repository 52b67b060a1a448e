import DocComment.Output

/-!
Data written as JSON can be told from all other data. A written value is told from any other by the
text from where it starts, whatever follows it, so that lists and records of such values can be told
apart line by line. The main statement is that no two symbols and no two lists of tokens have the
same dump.
-/

namespace DocComment.Node.Json

variable {α : Type}

/-- What may follow a written value: nothing that adds a digit to it. -/
def Closed (rest : List Char) : Prop := ∀ c ∈ rest.head?, c.isDigit = false

/-- Where it is closed, the written value cannot be taken for any other. -/
def Unambiguous (write : α → List Char) (value : α) : Prop :=
  ∀ ⦃other : α⦄ ⦃rest rest' : List Char⦄, Closed rest → Closed rest' →
    write value ++ rest = write other ++ rest' → value = other ∧ rest = rest'

theorem closed_cons {c : Char} (other : c.isDigit = false) (rest : List Char) :
    Closed (c :: rest) := by
  intro d same
  obtain rfl : c = d := by simpa using same
  exact other

def escapedChar? : List Char → Option (Char × List Char)
  | '\x22' :: rest => some ('\x22', rest)
  | '\\' :: rest => some ('\\', rest)
  | 'b' :: rest => some ('\x08', rest)
  | 't' :: rest => some ('\t', rest)
  | 'n' :: rest => some ('\n', rest)
  | 'f' :: rest => some ('\x0c', rest)
  | 'r' :: rest => some ('\r', rest)
  | 'u' :: '0' :: '0' :: high :: low :: rest =>
      (Decimal.natural? 16 [high, low]).map fun code => (Char.ofNat code, rest)
  | _ => none

def readChar? : List Char → Option (Char × List Char)
  | [] => none
  | c :: rest => if c = '\\' then escapedChar? rest else some (c, rest)

def namedEscapes : List Char := ['\x22', '\\', '\x08', '\t', '\n', '\x0c', '\r']

theorem escape_char_named {c : Char} (named : c ∈ namedEscapes) (rest : List Char) :
    ∃ name, escapeChar c = ['\\', name] ∧ escapedChar? (name :: rest) = some (c, rest) := by
  simp only [namedEscapes, List.mem_cons, List.not_mem_nil, or_false] at named
  rcases named with rfl | rfl | rfl | rfl | rfl | rfl | rfl <;> exact ⟨_, rfl, rfl⟩

theorem escape_char_unnamed {c : Char} (unnamed : c ∉ namedEscapes) :
    escapeChar c =
      if c.toNat < 0x20 then ['\\', 'u', '0', '0', hexDigit (c.toNat / 16), hexDigit c.toNat]
      else [c] := by
  simp only [namedEscapes, List.mem_cons, List.not_mem_nil, or_false, not_or] at unnamed
  simp only [escapeChar, unnamed, if_false]

theorem control_code {c : Char} (control : c.toNat < 0x20) :
    Decimal.natural? 16 [hexDigit (c.toNat / 16), hexDigit c.toNat] = some c.toNat := by
  have each : ∀ code < 0x20,
      Decimal.natural? 16 [hexDigit (code / 16), hexDigit code] = some code := by decide
  exact each c.toNat control

theorem read_char_escape (c : Char) (rest : List Char) :
    readChar? (escapeChar c ++ rest) = some (c, rest) := by
  by_cases named : c ∈ namedEscapes
  · obtain ⟨name, escaped, read⟩ := escape_char_named named rest
    rw [escaped, List.cons_append, readChar?, if_pos rfl]
    exact read
  · rw [escape_char_unnamed named]
    split
    · next control =>
        have code : escapedChar?
            ('u' :: '0' :: '0' :: hexDigit (c.toNat / 16) :: hexDigit c.toNat :: rest) =
            some (Char.ofNat c.toNat, rest) := by
          rw [escapedChar?, control_code control]
          rfl
        rw [Char.ofNat_toNat] at code
        rw [List.cons_append, readChar?, if_pos rfl]
        exact code
    · have plain : c ≠ '\\' := by
        rintro rfl
        exact named (by decide)
      rw [List.singleton_append, readChar?, if_neg plain]

theorem escape_char_no_quote (c : Char) (rest : List Char) :
    (escapeChar c ++ rest).head? ≠ some '\x22' := by
  by_cases named : c ∈ namedEscapes
  · obtain ⟨name, escaped, _⟩ := escape_char_named named rest
    simp [escaped]
  · rw [escape_char_unnamed named]
    split
    · simp
    · intro same
      obtain rfl : c = '\x22' := by simpa using same
      exact named (by decide)

/-- A text ends at its closing quote, whatever it holds. -/
theorem escaped_unambiguous {left right rest rest' : List Char}
    (same : left.flatMap escapeChar ++ '\x22' :: rest =
      right.flatMap escapeChar ++ '\x22' :: rest') : left = right ∧ rest = rest' := by
  induction left generalizing right with
  | nil =>
      cases right with
      | nil => exact ⟨rfl, (List.cons.inj same).2⟩
      | cons d right =>
          rw [List.flatMap_cons, List.append_assoc] at same
          exact absurd (congrArg List.head? same.symm) (escape_char_no_quote d _)
  | cons c left induction =>
      rw [List.flatMap_cons, List.append_assoc] at same
      cases right with
      | nil => exact absurd (congrArg List.head? same) (escape_char_no_quote c _)
      | cons d right =>
          rw [List.flatMap_cons, List.append_assoc] at same
          have read := congrArg readChar? same
          rw [read_char_escape, read_char_escape] at read
          obtain ⟨rfl, further⟩ := Prod.mk.inj (Option.some.inj read)
          obtain ⟨rfl, behind⟩ := induction further
          exact ⟨rfl, behind⟩

theorem quoted_unambiguous {left right : String} {rest rest' : List Char}
    (same : (quoted left).toList ++ rest = (quoted right).toList ++ rest') :
    left = right ∧ rest = rest' := by
  have inner : left.toList.flatMap escapeChar ++ '\x22' :: rest =
      right.toList.flatMap escapeChar ++ '\x22' :: rest' := by
    simpa [quoted] using same
  obtain ⟨texts, behind⟩ := escaped_unambiguous inner
  exact ⟨String.toList_inj.1 texts, behind⟩

theorem number_digits (number : Nat) : ∀ c ∈ Nat.toDigits 10 number, c.isDigit = true :=
  fun _ member => Nat.isDigit_of_mem_toDigits (by decide) (by decide) member

theorem number_span (number : Nat) {rest : List Char} (closed : Closed rest) :
    (Nat.toDigits 10 number ++ rest).takeWhile Char.isDigit = Nat.toDigits 10 number ∧
      (Nat.toDigits 10 number ++ rest).dropWhile Char.isDigit = rest := by
  have digits := number_digits number
  rw [List.takeWhile_append_of_pos digits, List.dropWhile_append_of_pos digits]
  cases rest with
  | nil => simp
  | cons c rest => simp [closed c rfl]

theorem number_unambiguous {left right : Nat} {rest rest' : List Char} (closed : Closed rest)
    (closed' : Closed rest')
    (same : (toString left).toList ++ rest = (toString right).toList ++ rest') :
    left = right ∧ rest = rest' := by
  simp only [Nat.toString_eq_ofList_toDigits, String.toList_ofList] at same
  obtain ⟨digits, behind⟩ := number_span left closed
  obtain ⟨digits', behind'⟩ := number_span right closed'
  rw [same] at digits behind
  constructor
  · calc
      left = Nat.ofDigitChars 10 (Nat.toDigits 10 left) 0 :=
        (Nat.ofDigitChars_toDigits (by decide) (by decide)).symm
      _ = Nat.ofDigitChars 10 (Nat.toDigits 10 right) 0 := by rw [← digits, digits']
      _ = right := Nat.ofDigitChars_toDigits (by decide) (by decide)
  · rw [← behind, behind']

def lines (indent : Nat) (write : α → List Char) : List α → List Char
  | [] => []
  | value :: values =>
      (newline indent).toList ++ (write value ++
        if values.isEmpty then [] else ',' :: lines indent write values)

theorem lines_unambiguous {indent : Nat} {write : α → List Char} {values others : List α}
    (each : ∀ value ∈ values, Unambiguous write value) {rest rest' : List Char}
    (nonempty : values ≠ []) (nonempty' : others ≠ [])
    (same : lines indent write values ++ '\n' :: rest =
      lines indent write others ++ '\n' :: rest') : values = others ∧ rest = rest' := by
  induction values generalizing others with
  | nil => exact absurd rfl nonempty
  | cons value values induction =>
      cases others with
      | nil => exact absurd rfl nonempty'
      | cons other others =>
          simp only [lines, List.append_assoc, List.append_cancel_left_eq] at same
          -- A comma or a line feed closes the first value.
          have closed : ∀ (further : List α) (behind : List Char),
              Closed ((if further.isEmpty then [] else ',' :: lines indent write further) ++
                '\n' :: behind) := by
            intro further behind
            split
            · exact closed_cons (by decide) _
            · exact closed_cons (by decide) _
          obtain ⟨rfl, behind⟩ := each value (by simp) (closed values rest) (closed others rest') same
          cases values with
          | nil =>
              cases others with
              | nil => exact ⟨rfl, by simpa using behind⟩
              | cons next others => simp at behind
          | cons next values =>
              cases others with
              | nil => simp at behind
              | cons next' others =>
                  have more : lines indent write (next :: values) ++ '\n' :: rest =
                      lines indent write (next' :: others) ++ '\n' :: rest' := by
                    simpa using behind
                  have further := induction (fun value member => each value (by simp [member]))
                    (by simp) (by simp) more
                  exact ⟨congrArg (value :: ·) further.1, further.2⟩

/-- Lines between brackets, which stand close together if there is no line. -/
def enclosed (opening closing : Char) (indent : Nat) (write : α → List Char) (values : List α) :
    List Char :=
  opening ::
    if values.isEmpty then [closing]
    else lines (indent + 2) write values ++ (newline indent).toList ++ [closing]

theorem enclosed_nil (opening closing : Char) (indent : Nat) (write : α → List Char)
    (rest : List Char) :
    enclosed opening closing indent write [] ++ rest = opening :: closing :: rest := rfl

theorem enclosed_cons (opening closing : Char) (indent : Nat) (write : α → List Char) (value : α)
    (values : List α) (rest : List Char) :
    enclosed opening closing indent write (value :: values) ++ rest =
      opening :: (lines (indent + 2) write (value :: values) ++
        '\n' :: ((Text.spaces indent).toList ++ closing :: rest)) := by
  simp [enclosed, newline]

theorem lines_start (indent : Nat) (write : α → List Char) (value : α) (values : List α)
    (rest : List Char) : (lines indent write (value :: values) ++ rest).head? = some '\n' := by
  simp [lines, newline]

theorem enclosed_unambiguous {opening closing : Char} (sign : closing ≠ '\n') {indent : Nat}
    {write : α → List Char} {values others : List α}
    (each : ∀ value ∈ values, Unambiguous write value) {rest rest' : List Char}
    (same : enclosed opening closing indent write values ++ rest =
      enclosed opening closing indent write others ++ rest') : values = others ∧ rest = rest' := by
  cases values with
  | nil =>
      cases others with
      | nil => exact ⟨rfl, by simpa [enclosed_nil] using same⟩
      | cons other others =>
          rw [enclosed_nil, enclosed_cons] at same
          have heads := congrArg List.head? (List.cons.inj same).2
          rw [lines_start] at heads
          exact absurd (Option.some.inj heads) sign
  | cons value values =>
      cases others with
      | nil =>
          rw [enclosed_cons, enclosed_nil] at same
          have heads := congrArg List.head? (List.cons.inj same).2
          rw [lines_start] at heads
          exact absurd (Option.some.inj heads).symm sign
      | cons other others =>
          rw [enclosed_cons, enclosed_cons] at same
          obtain ⟨equal, behind⟩ :=
            lines_unambiguous each (by simp) (by simp) (List.cons.inj same).2
          exact ⟨equal, (List.cons.inj (List.append_cancel_left behind)).2⟩

def chars (indent : Nat) (node : Node) : List Char := (render indent node).toList

def fieldChars (indent : Nat) (field : String × Node) : List Char :=
  (quoted field.1).toList ++ ':' :: ' ' :: chars indent field.2

theorem render_items_lines (indent : Nat) (items : List Node) :
    (renderItems indent items).toList = lines indent (chars indent) items := by
  induction items with
  | nil => rfl
  | cons item items induction =>
      cases items with
      | nil => simp [renderItems, lines, chars]
      | cons next items =>
          rw [renderItems, String.toList_append, induction]
          · simp [lines, chars]
          · simp

theorem render_fields_lines (indent : Nat) (fields : List (String × Node)) :
    (renderFields indent fields).toList = lines indent (fieldChars indent) fields := by
  induction fields with
  | nil => rfl
  | cons field fields induction =>
      cases fields with
      | nil => simp [renderFields, lines, fieldChars, chars]
      | cons next fields =>
          rw [renderFields, String.toList_append, induction]
          · simp [lines, fieldChars, chars]
          · simp

theorem chars_text (indent : Nat) (value : String) :
    chars indent (.text value) = (quoted value).toList := by
  rw [chars, render]

theorem chars_number (indent value : Nat) :
    chars indent (.number value) = (toString value).toList := by
  rw [chars, render]

theorem chars_list (indent : Nat) (items : List Node) :
    chars indent (.list items) = enclosed '[' ']' indent (chars (indent + 2)) items := by
  rw [chars, render, enclosed, ← render_items_lines]
  split <;> simp

theorem chars_record (indent : Nat) (fields : List (String × Node)) :
    chars indent (.record fields) =
      enclosed '\x7b' '\x7d' indent (fieldChars (indent + 2)) fields := by
  rw [chars, render, enclosed, ← render_fields_lines]
  split <;> simp

/-- What a node can be told by at its first character. -/
inductive Shape where
  | text | number | flag | list | record
  deriving DecidableEq, Repr

def Shape.of : Node → Shape
  | .text _ => .text
  | .number _ => .number
  | .flag _ => .flag
  | .list _ => .list
  | .record _ => .record

def Shape.startingWith (c : Char) : Shape :=
  if c = '\x22' then .text
  else if c = 't' ∨ c = 'f' then .flag
  else if c = '[' then .list
  else if c = '\x7b' then .record
  else .number

theorem shape_of_digit {c : Char} (digit : c.isDigit = true) : Shape.startingWith c = .number := by
  have other : ∀ d : Char, d.isDigit = false → c ≠ d := by
    rintro d notDigit rfl
    rw [digit] at notDigit
    contradiction
  simp [Shape.startingWith, other '\x22' (by decide), other 't' (by decide), other 'f' (by decide),
    other '[' (by decide), other '\x7b' (by decide)]

theorem chars_start (indent : Nat) (node : Node) :
    ∃ c cs, chars indent node = c :: cs ∧ Shape.startingWith c = Shape.of node := by
  cases node with
  | text value => exact ⟨'\x22', _, by simp [chars_text, quoted]; rfl, rfl⟩
  | number value =>
      have digits := number_digits value
      have spelled : chars indent (.number value) = Nat.toDigits 10 value := by
        rw [chars_number, Nat.toString_eq_ofList_toDigits, String.toList_ofList]
      rw [spelled]
      cases found : Nat.toDigits 10 value with
      | nil => exact absurd found Nat.toDigits_ne_nil
      | cons c cs => exact ⟨c, cs, rfl, shape_of_digit (digits c (by simp [found]))⟩
  | flag value =>
      cases value with
      | false => exact ⟨'f', "alse".toList, by simp [chars, render], rfl⟩
      | true => exact ⟨'t', "rue".toList, by simp [chars, render], rfl⟩
  | list items => exact ⟨'[', _, chars_list indent items, rfl⟩
  | record fields => exact ⟨'\x7b', _, chars_record indent fields, rfl⟩

theorem same_shape {indent : Nat} {left right : Node} {rest rest' : List Char}
    (same : chars indent left ++ rest = chars indent right ++ rest') :
    Shape.of left = Shape.of right := by
  obtain ⟨c, cs, spelled, shape⟩ := chars_start indent left
  obtain ⟨d, ds, spelled', shape'⟩ := chars_start indent right
  rw [spelled, spelled'] at same
  rw [← shape, ← shape', (List.cons.inj same).1]

theorem field_unambiguous {indent : Nat} {field : String × Node}
    (value : Unambiguous (chars indent) field.2) : Unambiguous (fieldChars indent) field := by
  intro other rest rest' closed closed' same
  rw [fieldChars, fieldChars, List.append_assoc, List.append_assoc] at same
  obtain ⟨names, behind⟩ := quoted_unambiguous same
  have values : chars indent field.2 ++ rest = chars indent other.2 ++ rest' := by
    simpa using behind
  obtain ⟨nodes, rests⟩ := value closed closed' values
  exact ⟨Prod.ext names nodes, rests⟩

theorem unambiguous_text (indent : Nat) (value : String) :
    Unambiguous (chars indent) (.text value) := by
  intro other rest rest' closed closed' same
  have shape := same_shape same
  cases other with
  | text value' =>
      rw [chars_text, chars_text] at same
      obtain ⟨rfl, rests⟩ := quoted_unambiguous same
      exact ⟨rfl, rests⟩
  | _ => exact nomatch shape

theorem unambiguous_number (indent value : Nat) : Unambiguous (chars indent) (.number value) := by
  intro other rest rest' closed closed' same
  have shape := same_shape same
  cases other with
  | number value' =>
      rw [chars_number, chars_number] at same
      obtain ⟨rfl, rests⟩ := number_unambiguous closed closed' same
      exact ⟨rfl, rests⟩
  | _ => exact nomatch shape

theorem unambiguous_flag (indent : Nat) (value : Bool) :
    Unambiguous (chars indent) (.flag value) := by
  intro other rest rest' closed closed' same
  have shape := same_shape same
  cases other with
  | flag value' => cases value <;> cases value' <;> simp_all [chars, render]
  | _ => exact nomatch shape

theorem unambiguous_list {indent : Nat} {items : List Node}
    (each : ∀ item ∈ items, Unambiguous (chars (indent + 2)) item) :
    Unambiguous (chars indent) (.list items) := by
  intro other rest rest' closed closed' same
  have shape := same_shape same
  cases other with
  | list items' =>
      rw [chars_list, chars_list] at same
      obtain ⟨rfl, rests⟩ := enclosed_unambiguous (by decide) each same
      exact ⟨rfl, rests⟩
  | _ => exact nomatch shape

theorem unambiguous_record {indent : Nat} {fields : List (String × Node)}
    (each : ∀ field ∈ fields, Unambiguous (fieldChars (indent + 2)) field) :
    Unambiguous (chars indent) (.record fields) := by
  intro other rest rest' closed closed' same
  have shape := same_shape same
  cases other with
  | record fields' =>
      rw [chars_record, chars_record] at same
      obtain ⟨rfl, rests⟩ := enclosed_unambiguous (by decide) each same
      exact ⟨rfl, rests⟩
  | _ => exact nomatch shape

theorem node_unambiguous (indent : Nat) (node : Node) : Unambiguous (chars indent) node := by
  match node with
  | .text value => exact unambiguous_text indent value
  | .number value => exact unambiguous_number indent value
  | .flag value => exact unambiguous_flag indent value
  | .list items =>
      apply unambiguous_list
      intro item member
      exact node_unambiguous (indent + 2) item
  | .record fields =>
      apply unambiguous_record
      intro field member
      exact field_unambiguous (node_unambiguous (indent + 2) field.2)
termination_by sizeOf node
decreasing_by
  · have smaller := List.sizeOf_lt_of_mem member
    simp only [Node.list.sizeOf_spec]
    omega
  · have smaller := List.sizeOf_lt_of_mem member
    obtain ⟨name, value⟩ := field
    simp only [Prod.mk.sizeOf_spec, Node.record.sizeOf_spec] at smaller ⊢
    omega

end DocComment.Node.Json

namespace DocComment

theorem Node.json_injective : Function.Injective Node.json := by
  intro left right same
  have closed : Node.Json.Closed [] := by simp [Node.Json.Closed]
  have texts : Node.Json.chars 0 left ++ [] = Node.Json.chars 0 right ++ [] := by
    rw [List.append_nil, List.append_nil]
    exact congrArg String.toList same
  exact (Node.Json.node_unambiguous 0 left closed closed texts).1

/-- A field that is absent is told from one with an empty text. -/
theorem Node.optional_injective (name : String) : Function.Injective (Node.optional name) := by
  intro left right same
  cases left <;> cases right <;> simp_all [Node.optional]

theorem Symbol.Kind.name_injective : Function.Injective Symbol.Kind.name := by
  intro left right same
  have named : ∀ kind : Symbol.Kind, Symbol.Kind.ofName? kind.name = some kind := by
    intro kind
    cases kind <;> decide
  exact Option.some.inj (by rw [← named left, ← named right, same])

theorem Token.Kind.name_injective : Function.Injective Token.Kind.name := by
  intro left right same
  exact Option.some.inj (by rw [← Token.Kind.of_name_name left, ← Token.Kind.of_name_name right, same])

theorem Symbol.Param.node_injective : Function.Injective Symbol.Param.node := by
  rintro ⟨name, type, value⟩ ⟨name', type', value'⟩ same
  cases type <;> cases value <;> cases type' <;> cases value' <;>
    simp_all [Symbol.Param.node, Node.optional]

theorem Symbol.Return.node_injective : Function.Injective Symbol.Return.node := by
  rintro ⟨present, type⟩ ⟨present', type'⟩ same
  have parts : present = present' ∧ Node.optional "type" type = Node.optional "type" type' := by
    simpa [Symbol.Return.node] using same
  rw [parts.1, Node.optional_injective "type" parts.2]

theorem Symbol.node_injective : Function.Injective Symbol.node := by
  rintro ⟨name, kind, params, returns, varType⟩ ⟨name', kind', params', returns', varType'⟩ same
  have parts : name = name' ∧ kind.name = kind'.name ∧
      params.map (·.node) = params'.map (·.node) ∧ returns.node = returns'.node ∧
        Node.optional "var_type" varType = Node.optional "var_type" varType' := by
    simpa [Symbol.node] using same
  obtain ⟨names, kinds, lists, results, types⟩ := parts
  have sameParams : params = params' :=
    (List.map_inj_right fun _ _ equal => Symbol.Param.node_injective equal).1 lists
  rw [names, Symbol.Kind.name_injective kinds, sameParams, Symbol.Return.node_injective results,
    Node.optional_injective "var_type" types]

theorem Token.node_injective : Function.Injective Token.node := by
  rintro ⟨kind, text, start, stop⟩ ⟨kind', text', start', stop'⟩ same
  have parts : kind.name = kind'.name ∧ text = text' ∧ start = start' ∧ stop = stop' := by
    simpa [Token.node, Token.Span.node] using same
  obtain ⟨kinds, rfl, rfl, rfl⟩ := parts
  rw [Token.Kind.name_injective kinds]

/-- Every symbol and every list of tokens has a dump in JSON, and no other has the same one. So a part
that is absent can be told from an empty text. -/
theorem json_dumps_injective :
    (∃ dump : Symbol → String,
        (∀ symbol, formatSymbol symbol .json = .ok (dump symbol)) ∧ Function.Injective dump) ∧
      ∃ dump : List Token → String,
        (∀ tokens, formatTokens tokens .json = .ok (dump tokens)) ∧ Function.Injective dump := by
  constructor
  · refine ⟨fun symbol => symbol.node.json, fun _ => rfl, ?_⟩
    intro left right same
    exact Symbol.node_injective (Node.json_injective same)
  · refine ⟨fun tokens => (Node.list (tokens.map (·.node))).json, fun _ => rfl, ?_⟩
    intro left right same
    have lists := Node.list.inj (Node.json_injective same)
    exact (List.map_inj_right fun _ _ equal => Token.node_injective equal).1 lists

end DocComment
