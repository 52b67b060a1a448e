import Mathlib.Data.Option.Basic
import DocComment.Proofs.QuotedText
import DocComment.Proofs.SettingsKey

/-!
A file for every choice of settings. Each chosen setting is written on a line of its own, texts in
quotes of any kind that can hold them and numbers in hexadecimal, and reading the lines gives the
choice back.
-/

namespace DocComment.Settings

namespace Toml

def writtenNumber (number : Nat) : List Char := '0' :: 'x' :: Nat.toDigits 16 number

theorem digit_value_digit_char : ∀ digit < 16,
    Decimal.digitValue? (Nat.digitChar digit) = some digit := by
  decide

theorem natural_digits (number : Nat) :
    Decimal.natural? 16 (Nat.toDigits 16 number) = some number := by
  have step (value digit : Nat) (bound : digit < 16) :
      ((Decimal.digitValue? (Nat.digitChar digit)).bind fun digit =>
        if digit < 16 then some (value * 16 + digit) else none) = some (value * 16 + digit) := by
    rw [digit_value_digit_char digit bound, Option.bind_some, if_pos bound]
  rw [Decimal.natural?, if_neg (by simp [Nat.toDigits_ne_nil])]
  induction number using Nat.strongRecOn with
  | ind number induction =>
      by_cases small : number < 16
      · rw [Nat.toDigits_of_lt_base small, List.foldlM_cons, step 0 number small]
        simp
      · rw [Nat.toDigits_of_base_le (by decide) (Nat.le_of_not_lt small), List.foldlM_append,
          induction (number / 16) (by omega)]
        have last := step (number / 16) (number % 16) (Nat.mod_lt _ (by decide))
        simp only [List.foldlM_cons, List.foldlM_nil, Option.bind_eq_bind, Option.bind_some, last,
          Option.pure_def]
        rw [Nat.mul_comm, Nat.div_add_mod]

theorem digits_of_digits {number : Nat} {c : Char} (member : c ∈ Nat.toDigits 16 number) :
    ∃ digit < 16, c = Nat.digitChar digit := by
  induction number using Nat.strongRecOn with
  | ind number induction =>
      by_cases small : number < 16
      · rw [Nat.toDigits_of_lt_base small, List.mem_singleton] at member
        exact ⟨number, small, member⟩
      · rw [Nat.toDigits_of_base_le (by decide) (Nat.le_of_not_lt small), List.mem_append,
          List.mem_singleton] at member
        rcases member with higher | last
        · exact induction (number / 16) (by omega) higher
        · exact ⟨number % 16, Nat.mod_lt _ (by decide), last⟩

theorem without_underscores_of_digits {isDigit : Char → Bool} {cs : List Char}
    (digits : ∀ c ∈ cs, isDigit c = true ∧ c ≠ '_') : withoutUnderscores? isDigit cs = some cs := by
  induction cs with
  | nil => rfl
  | cons c cs induction =>
      have rest := induction fun d member => digits d (List.mem_cons_of_mem c member)
      have first := (digits c List.mem_cons_self).1
      cases cs with
      | nil => simp [withoutUnderscores?, first]
      | cons d cs =>
          have separate : d ≠ '_' := (digits d (by simp)).2
          simp [withoutUnderscores?, first, separate, rest]

theorem integer_written {number : Nat} (fits : number < Nat.pow 2 63) :
    integer? (writtenNumber number) = some (number : Int) := by
  have digits : digits? 16 (Nat.toDigits 16 number) = some number := by
    have kinds : ∀ digit < 16,
        (Decimal.digitValue? (Nat.digitChar digit)).any (· < 16) = true ∧
          Nat.digitChar digit ≠ '_' := by
      decide
    rw [digits?, without_underscores_of_digits, Option.bind_some, natural_digits]
    intro c member
    obtain ⟨digit, bound, rfl⟩ := digits_of_digits member
    exact kinds digit bound
  have lower : -((Nat.pow 2 63 : Nat) : Int) ≤ number :=
    Int.le_trans (Int.neg_nonpos_of_nonneg (Int.natCast_nonneg _)) (Int.natCast_nonneg number)
  have upper : (number : Int) < (Nat.pow 2 63 : Nat) := Int.ofNat_lt.mpr fits
  rw [writtenNumber, integer?, digits, Option.bind_some]
  exact if_pos ⟨lower, upper⟩

theorem moment_number_none {c d : Char} (foreign : Decimal.natural? 10 [c, d] = none)
    (more least greatest : Nat) (cs : List Char) :
    Moment.number? (more + 2) least greatest (c :: d :: cs) = none := by
  have spelled : Decimal.natural? 10 (c :: d :: cs.take more) = none := by
    rw [Decimal.natural?, if_neg (by simp)] at foreign ⊢
    change List.foldlM _ 0 ([c, d] ++ cs.take more) = none
    rw [List.foldlM_append, foreign]
    rfl
  simp [Moment.number?, spelled]

/-- Days and times start with two digits. -/
theorem moment_none {c d : Char} (foreign : Decimal.natural? 10 [c, d] = none) (cs : List Char) :
    Moment.read? (c :: d :: cs) = none := by
  have noDate : Moment.date? (c :: d :: cs) = none := by
    rw [Moment.date?, moment_number_none foreign 2]
    rfl
  have noTime : Moment.timeOfDay? (c :: d :: cs) = none := by
    rw [Moment.timeOfDay?, moment_number_none foreign 0]
    rfl
  rw [Moment.read?, noDate, noTime]
  rfl

theorem string_none {c : Char} (cs : List Char) (double : c ≠ '\x22') (single : c ≠ '\x27') :
    string? (c :: cs) = none := by
  unfold string?
  split <;> simp_all

theorem value_scalar {c : Char} (cs : List Char) (list : c ≠ '[') (table : c ≠ '\x7b')
    (fuel depth : Nat) : value? (fuel + 1) depth (c :: cs) = scalar? (c :: cs) := by
  rw [value?]
  · exact fun _ same => list (List.cons.inj same).1
  · exact fun _ same => table (List.cons.inj same).1

theorem value_text {quoting : Quoting} {text : String} (admits : quoting.Admits text.toList)
    (fuel depth : Nat) (rest : List Char) :
    value? (fuel + 1) depth (quoting.written text.toList ++ '\n' :: rest) =
      some (.text text, '\n' :: rest) := by
  have read := string_written admits rest
  obtain ⟨cs, spelled⟩ : ∃ cs, quoting.written text.toList ++ '\n' :: rest =
      quoting.quote :: cs := by
    cases quoting <;> exact ⟨_, rfl⟩
  rw [spelled] at read ⊢
  rw [value_scalar cs (by cases quoting <;> decide) (by cases quoting <;> decide), scalar?, read]
  simp

theorem value_word {c d : Char} {word : List Char} {value : Value} (fuel depth : Nat)
    (rest : List Char) (words : ∀ e ∈ c :: d :: word, isWordChar e = true)
    (foreign : Decimal.natural? 10 [c, d] = none) (read : word? (c :: d :: word) = some value) :
    value? (fuel + 1) depth (c :: d :: word ++ '\n' :: rest) = some (value, '\n' :: rest) := by
  have taken : (c :: d :: word ++ '\n' :: rest).takeWhile isWordChar = c :: d :: word := by
    rw [List.takeWhile_append_of_pos words, List.takeWhile_cons_of_neg (by decide), List.append_nil]
  have dropped : (c :: d :: word ++ '\n' :: rest).dropWhile isWordChar = '\n' :: rest := by
    rw [List.dropWhile_append_of_pos words, List.dropWhile_cons_of_neg (by decide)]
  have starts := words c List.mem_cons_self
  have marks : c ≠ '\x22' ∧ c ≠ '\x27' ∧ c ≠ '[' ∧ c ≠ '\x7b' := by
    refine ⟨?_, ?_, ?_, ?_⟩ <;> (rintro rfl; revert starts; decide)
  simp only [List.cons_append] at taken dropped ⊢
  rw [value_scalar _ marks.2.2.1 marks.2.2.2, scalar?, string_none _ marks.1 marks.2.1,
    moment_none foreign, taken, dropped, read, Option.map_some]

theorem word_written {number : Nat} (fits : number < Nat.pow 2 63) :
    word? (writtenNumber number) = some (.integer number) := by
  have notTrue : writtenNumber number ≠ "true".toList := by simp [writtenNumber]
  have notFalse : writtenNumber number ≠ "false".toList := by simp [writtenNumber]
  rw [word?, if_neg notTrue, if_neg notFalse, integer_written fits, Option.map_some, Option.some_or]

theorem word_char_written {number : Nat} : ∀ c ∈ writtenNumber number, isWordChar c = true := by
  have kinds : ∀ digit < 16, isWordChar (Nat.digitChar digit) = true := by decide
  intro c member
  rw [writtenNumber, List.mem_cons, List.mem_cons] at member
  rcases member with rfl | rfl | member
  · decide
  · decide
  · obtain ⟨digit, bound, rfl⟩ := digits_of_digits member
    exact kinds digit bound

def writtenValue (quoting : Quoting) : Value → List Char
  | .flag value => (if value then "true" else "false").toList
  | .integer value => writtenNumber value.toNat
  | .text text => quoting.written text.toList
  | _ => []

/-- The value can be written like this. A number in a file is one of 64 bits with a sign. -/
def Writes (quoting : Quoting) : Value → Prop
  | .flag _ => True
  | .integer value => 0 ≤ value ∧ value < Nat.pow 2 63
  | .text text => quoting.Admits text.toList
  | _ => False

theorem value_written {quoting : Quoting} {value : Value} (writes : Writes quoting value)
    (fuel depth : Nat) (rest : List Char) :
    value? (fuel + 1) depth (writtenValue quoting value ++ '\n' :: rest) =
      some (value, '\n' :: rest) := by
  cases value with
  | flag value =>
      cases value with
      | true => exact value_word fuel depth rest (List.all_eq_true.mp (by decide)) (by decide) rfl
      | false => exact value_word fuel depth rest (List.all_eq_true.mp (by decide)) (by decide) rfl
  | integer value =>
      obtain ⟨number, rfl⟩ := Int.eq_ofNat_of_zero_le writes.1
      exact value_word fuel depth rest word_char_written (by decide)
        (word_written (Int.ofNat_lt.mp writes.2))
  | text text => exact value_text writes fuel depth rest
  | _ => exact writes.elim

theorem skip_blanks_written {quoting : Quoting} {value : Value} (writes : Writes quoting value)
    (rest : List Char) :
    skipBlanks (' ' :: (writtenValue quoting value ++ rest)) =
      writtenValue quoting value ++ rest := by
  cases value with
  | flag value => cases value <;> rfl
  | integer => rfl
  | text => cases quoting <;> rfl
  | _ => exact writes.elim

end Toml

namespace Assignment

def value : Assignment → Value
  | ⟨.columnSpacing, content⟩ => .integer content
  | ⟨.commentStyle, content⟩ => .text content.name
  | ⟨.alwaysShowReturnTag, content⟩ => .flag content
  | ⟨.typePlaceholder, content⟩ => .text content
  | ⟨.opening, content⟩ => .text content
  | ⟨.separator, content⟩ => .text content
  | ⟨.closing, content⟩ => .text content

def Fits (quoting : Key → Toml.Quoting) (assignment : Assignment) : Prop :=
  Toml.Writes (quoting assignment.key) assignment.value

def line (quoting : Key → Toml.Quoting) (assignment : Assignment) : List Char :=
  assignment.key.name.toList ++ ' ' :: '=' :: ' ' ::
    Toml.writtenValue (quoting assignment.key) assignment.value ++ ['\n']

theorem typed_number {number : Nat} (fits : number < Nat.pow 2 63) :
    Key.columnSpacing.typed? (.integer number) = some number := by
  have least : Nat.pow 2 63 ≤ Value.greatestInteger := by decide
  have bounds : 0 ≤ (number : Int) ∧ (number : Int) ≤ Value.greatestInteger := by omega
  exact if_pos bounds

theorem of_value_value {quoting : Key → Toml.Quoting} {assignment : Assignment}
    (fits : assignment.Fits quoting) :
    ofValue? assignment.key.path assignment.value = some assignment := by
  rw [ofValue?, Key.of_path_path, Option.bind_some]
  obtain ⟨key, content⟩ := assignment
  cases key with
  | columnSpacing =>
      rw [value, typed_number (Int.ofNat_lt.mp fits.2), Option.map_some]
  | commentStyle => cases content <;> rfl
  | _ => rfl

end Assignment

namespace Toml

variable {quoting : Key → Quoting}

theorem skip_lines_name (key : Key) (fuel : Nat) (rest : List Char) :
    skipLines (fuel + 1) (key.name.toList ++ rest) = key.name.toList ++ rest := by
  cases key <;> rfl

theorem key_name (key : Key) (rest : List Char) :
    key? (key.name.toList ++ ' ' :: '=' :: rest) = some (key.path, '=' :: rest) := by
  cases key <;> rfl

theorem name_starts (key : Key) :
    ∃ c cs, key.name.toList = c :: cs ∧ c ≠ '[' ∧ c ≠ '\uFEFF' := by
  cases key <;> exact ⟨_, _, rfl, by decide, by decide⟩

theorem entries_line {assignment : Assignment} (fits : assignment.Fits quoting) (fuel : Nat)
    (entries : Tree.Entries) (rest : List Char) :
    entries? (fuel + 1) [] entries (assignment.line quoting ++ rest) =
      (Tree.insert? assignment.value assignment.key.path entries).bind fun entries =>
        entries? fuel [] entries rest := by
  have blanks := skip_blanks_written fits ('\n' :: rest)
  have value := fun fuel => value_written fits fuel deepest rest
  generalize shown : writtenValue (quoting assignment.key) assignment.value = written
    at blanks value
  have spelled : assignment.line quoting ++ rest = assignment.key.name.toList ++
      (' ' :: '=' :: ' ' :: (written ++ '\n' :: rest)) := by
    simp [Assignment.line, shown]
  have named := key_name assignment.key (' ' :: (written ++ '\n' :: rest))
  have ended : restOfLine? ('\n' :: rest) = some rest := rfl
  obtain ⟨c, cs, starts, plain, -⟩ := name_starts assignment.key
  rw [spelled, entries?, skip_lines_name]
  split
  next empty =>
      rw [starts] at empty
      cases empty
  next bracket =>
      rw [starts] at bracket
      exact absurd (List.cons.inj bracket).1 plain
  next =>
      simp only [named, Option.bind_eq_bind, Option.bind_some, blanks, value, Tree.insertUnder?,
        ended]

theorem entries_lines {assignments : List Assignment}
    (fits : ∀ assignment ∈ assignments, assignment.Fits quoting) {fuel : Nat}
    (enough : (assignments.flatMap (Assignment.line quoting)).length < fuel)
    (entries : Tree.Entries) :
    entries? fuel [] entries (assignments.flatMap (Assignment.line quoting)) =
      assignments.foldlM (fun entries assignment =>
        Tree.insert? assignment.value assignment.key.path entries) entries := by
  induction assignments generalizing fuel entries with
  | nil =>
      cases fuel with
      | zero => cases enough
      | succ fuel => rfl
  | cons assignment rest induction =>
      cases fuel with
      | zero => cases enough
      | succ fuel =>
          have longer : 0 < (assignment.line quoting).length := by
            rw [Assignment.line, List.length_append]
            exact Nat.succ_pos _
          rw [List.flatMap_cons, List.length_append] at enough
          rw [List.flatMap_cons, entries_line (fits assignment List.mem_cons_self),
            List.foldlM_cons]
          refine congrArg _ (funext fun entries => ?_)
          exact induction (fun other member => fits other (List.mem_cons_of_mem _ member))
            (by omega) entries

end Toml

namespace Key

def ownName (key : Key) : String := key.path.getLast key.path_nonempty

theorem own_name_injective {key other : Key} (same : key.ownName = other.ownName) :
    key = other := by
  cases key <;> cases other <;> first | rfl | exact absurd same (by decide)

theorem own_name_ne_markers (key : Key) : key.ownName ≠ "markers" := by
  cases key <;> decide

end Key

namespace Toml.Tree

def ofAssignment (assignment : Assignment) : String × Tree :=
  (assignment.key.ownName, .leaf assignment.value)

theorem get_append (name : String) (entries more : Entries) :
    get? name (entries ++ more) = (get? name entries).or (get? name more) := by
  simp only [get?, List.find?_append, Option.map_or]

theorem get_of_assignments {name : String} {assignments : List Assignment}
    (fresh : ∀ assignment ∈ assignments, assignment.key.ownName ≠ name) :
    get? name (assignments.map ofAssignment) = none := by
  simpa [get?, ofAssignment] using fresh

theorem insert_own {assignment : Assignment} {before : List Assignment}
    (fresh : assignment.key ∉ before.map Assignment.key) :
    insert? assignment.value [assignment.key.ownName] (before.map ofAssignment) =
      some ((before ++ [assignment]).map ofAssignment) := by
  have absent : get? assignment.key.ownName (before.map ofAssignment) = none :=
    get_of_assignments fun other member same =>
      fresh (Key.own_name_injective same ▸ List.mem_map_of_mem member)
  rw [insert?, absent, List.map_append]
  rfl

/-- Settings outside of tables, and then those of the table of markers if there are any. -/
def ofChoice (outer marks : List Assignment) : Entries :=
  outer.map ofAssignment ++
    if marks.isEmpty then [] else [("markers", .table .dotted (marks.map ofAssignment))]

theorem insert_outer {assignment : Assignment} {outer : List Assignment}
    (single : assignment.key.path = [assignment.key.ownName])
    (fresh : assignment.key ∉ outer.map Assignment.key) :
    insert? assignment.value assignment.key.path (ofChoice outer []) =
      some (ofChoice (outer ++ [assignment]) []) := by
  simpa [ofChoice, single] using insert_own fresh

theorem insert_mark {assignment : Assignment} {marks : List Assignment} (outer : List Assignment)
    (below : assignment.key.path = ["markers", assignment.key.ownName])
    (fresh : assignment.key ∉ marks.map Assignment.key) :
    insert? assignment.value assignment.key.path (ofChoice outer marks) =
      some (ofChoice outer (marks ++ [assignment])) := by
  have inserted := insert_own fresh
  have outside : get? "markers" (outer.map ofAssignment) = none :=
    get_of_assignments fun other _ => other.key.own_name_ne_markers
  cases marks with
  | nil =>
      have absent : get? "markers" (ofChoice outer []) = none := by
        simpa [ofChoice] using outside
      rw [below, insert?, absent]
      · simpa [ofChoice] using inserted
      · simp
  | cons mark marks =>
      have present : get? "markers" (ofChoice outer (mark :: marks)) =
          some (.table .dotted ((mark :: marks).map ofAssignment)) := by
        simp [ofChoice, get_append, outside]
        rfl
      have replaced (inner : Entries) :
          replace "markers" (.table .dotted inner) (ofChoice outer (mark :: marks)) =
            outer.map ofAssignment ++ [("markers", .table .dotted inner)] := by
        simp [ofChoice, replace, ofAssignment, Key.own_name_ne_markers]
      rw [below, insert?, present]
      · simp only
        rw [if_neg (by simp), inserted, Option.map_some, replaced]
        rfl
      · simp

/-- Assignments to different keys can be inserted one after another, if each can. -/
theorem insert_all (tree : List Assignment → Entries) (before : List Assignment)
    {assignments : List Assignment}
    (step : ∀ assignment ∈ assignments, ∀ before, assignment.key ∉ before.map Assignment.key →
      insert? assignment.value assignment.key.path (tree before) =
        some (tree (before ++ [assignment])))
    (distinct : ((before ++ assignments).map Assignment.key).Nodup) :
    assignments.foldlM (fun entries assignment =>
        insert? assignment.value assignment.key.path entries) (tree before) =
      some (tree (before ++ assignments)) := by
  induction assignments generalizing before with
  | nil => simp
  | cons assignment rest induction =>
      have fresh : assignment.key ∉ before.map Assignment.key := by
        rw [List.map_append, List.nodup_append] at distinct
        exact fun member => distinct.2.2 _ member _ (by simp) rfl
      rw [List.append_cons] at distinct ⊢
      rw [List.foldlM_cons, step assignment List.mem_cons_self before fresh]
      exact induction _ (fun other member => step other (List.mem_cons_of_mem _ member)) distinct

theorem to_values_eq (entries : Entries) :
    toValues entries = entries.map fun entry => (entry.1, entry.2.toValue) := by
  induction entries with
  | nil => rfl
  | cons entry rest induction => rw [toValues, induction, List.map_cons]

theorem to_values_append (entries more : Entries) :
    toValues (entries ++ more) = toValues entries ++ toValues more := by
  simp only [to_values_eq, List.map_append]

theorem values_of_assignments (assignments : List Assignment) :
    toValues (assignments.map ofAssignment) =
      assignments.map fun assignment => (assignment.key.ownName, assignment.value) := by
  rw [to_values_eq, List.map_map]
  rfl

variable {quoting : Key → Quoting}

theorem entry_assignments_outer {assignment : Assignment} (fits : assignment.Fits quoting)
    (single : assignment.key.path = [assignment.key.ownName]) :
    entryAssignments? (assignment.key.ownName, assignment.value) = some [assignment] := by
  have made := Assignment.of_value_value fits
  have scalar : entryAssignments? (assignment.key.ownName, assignment.value) =
      (Assignment.ofValue? [assignment.key.ownName] assignment.value).map ([·]) := by
    obtain ⟨key, content⟩ := assignment
    cases key <;> rfl
  rw [scalar, ← single, made, Option.map_some]

theorem entry_assignments_marks {marks : List Assignment}
    (fits : ∀ assignment ∈ marks, assignment.Fits quoting)
    (below : ∀ assignment ∈ marks, assignment.key.path = ["markers", assignment.key.ownName]) :
    entryAssignments? ("markers", .table (toValues (marks.map ofAssignment))) = some marks := by
  have each : ∀ assignment ∈ marks,
      Assignment.ofValue? ["markers", assignment.key.ownName] assignment.value =
        some (id assignment) := by
    intro assignment member
    rw [← below assignment member]
    exact Assignment.of_value_value (fits assignment member)
  rw [values_of_assignments, entryAssignments?, if_pos rfl, List.mapM_map]
  exact (map_eq_some each).trans (by rw [List.map_id])

theorem assignments_of_choice {outer marks : List Assignment}
    (fits : ∀ assignment ∈ outer ++ marks, assignment.Fits quoting)
    (single : ∀ assignment ∈ outer, assignment.key.path = [assignment.key.ownName])
    (below : ∀ assignment ∈ marks, assignment.key.path = ["markers", assignment.key.ownName]) :
    ((toValues (ofChoice outer marks)).mapM entryAssignments?).map List.flatten =
      some (outer ++ marks) := by
  have outside : (toValues (outer.map ofAssignment)).mapM entryAssignments? =
      some (outer.map ([·])) := by
    rw [values_of_assignments, List.mapM_map]
    exact map_eq_some fun assignment member => entry_assignments_outer
      (fits assignment (List.mem_append_left _ member)) (single assignment member)
  have inside := entry_assignments_marks
    (fun assignment member => fits assignment (List.mem_append_right _ member)) below
  have flat : (outer.map ([·])).flatten = outer := by
    rw [← List.flatMap_def, List.flatMap_singleton']
  cases marks with
  | nil => simp [ofChoice, outside, flat]
  | cons mark marks =>
      have table : (toValues [("markers", .table .dotted ((mark :: marks).map ofAssignment))]).mapM
          entryAssignments? = some [mark :: marks] := by
        rw [toValues, toValue, toValues, List.mapM_cons, inside]
        rfl
      rw [ofChoice, if_neg (by simp), to_values_append, List.mapM_append, outside, table]
      simp [flat]

end Toml.Tree

namespace Assignment

def chosen (choice : (key : Key) → Option key.Content) (keys : List Key) : List Assignment :=
  keys.filterMap fun key => (choice key).map (⟨key, ·⟩)

theorem mem_chosen {choice : (key : Key) → Option key.Content} {keys : List Key}
    {assignment : Assignment} (member : assignment ∈ chosen choice keys) :
    assignment.key ∈ keys ∧ choice assignment.key = some assignment.content := by
  obtain ⟨key, listed, made⟩ := List.mem_filterMap.mp member
  obtain ⟨content, picked, rfl⟩ := Option.map_eq_some_iff.mp made
  exact ⟨listed, picked⟩

theorem chosen_cons (choice : (key : Key) → Option key.Content) (key : Key) (keys : List Key) :
    chosen choice (key :: keys) = ((choice key).map (⟨key, ·⟩)).toList ++ chosen choice keys := by
  cases picked : choice key <;> simp [chosen, picked]

theorem keys_chosen (choice : (key : Key) → Option key.Content) (keys : List Key) :
    ((chosen choice keys).map key).Sublist keys := by
  induction keys with
  | nil => exact List.Sublist.slnil
  | cons first rest induction =>
      rw [chosen_cons]
      cases choice first with
      | none => exact induction.cons first
      | some content => exact induction.cons_cons first

theorem last_chosen (choice : (key : Key) → Option key.Content) {keys : List Key}
    (distinct : keys.Nodup) {key : Key} (listed : key ∈ keys) :
    last? key (chosen choice keys) = choice key := by
  induction keys with
  | nil => cases listed
  | cons first rest induction =>
      rw [List.nodup_cons] at distinct
      rw [chosen_cons, last_append]
      by_cases same : first = key
      · subst same
        rw [last_eq_none fun member => distinct.1 ((keys_chosen choice rest).subset member),
          Option.none_or]
        cases choice first with
        | none => rfl
        | some content => exact (last_singleton first _).trans (to_key_same ⟨first, content⟩)
      · rw [induction distinct.2 ((List.mem_cons.mp listed).resolve_left (Ne.symm same))]
        cases choice first with
        | none => exact Option.or_none
        | some content =>
            rw [Option.map_some, Option.toList_some, last_singleton, to_key_other same,
              Option.or_none]

end Assignment

section

variable {quoting : Key → Toml.Quoting}

/-- A file of lines is read as its assignments, those of markers last. -/
theorem assignments_of_lines {outer marks : List Assignment}
    (fits : ∀ assignment ∈ outer ++ marks, assignment.Fits quoting)
    (single : ∀ assignment ∈ outer, assignment.key.path = [assignment.key.ownName])
    (below : ∀ assignment ∈ marks, assignment.key.path = ["markers", assignment.key.ownName])
    (distinct : ((outer ++ marks).map Assignment.key).Nodup) :
    assignments? (String.ofList ((outer ++ marks).flatMap (Assignment.line quoting))) =
      some (outer ++ marks) := by
  have unmarked : ∀ cs, (outer ++ marks).flatMap (Assignment.line quoting) ≠ '\uFEFF' :: cs := by
    intro cs marked
    cases all : outer ++ marks with
    | nil => simp [all] at marked
    | cons assignment rest =>
        obtain ⟨c, more, starts, -, plain⟩ := Toml.name_starts assignment.key
        rw [all, List.flatMap_cons, Assignment.line, starts] at marked
        exact plain (List.cons.inj marked).1
  have entries : (outer ++ marks).foldlM (fun entries assignment =>
      Toml.Tree.insert? assignment.value assignment.key.path entries) [] =
        some (Toml.Tree.ofChoice outer marks) := by
    rw [List.map_append, List.nodup_append] at distinct
    have first := Toml.Tree.insert_all (Toml.Tree.ofChoice · []) []
      (fun assignment member _ => Toml.Tree.insert_outer (single assignment member)) distinct.1
    have second := Toml.Tree.insert_all (Toml.Tree.ofChoice outer) []
      (fun assignment member _ => Toml.Tree.insert_mark outer (below assignment member)) distinct.2.1
    rw [List.foldlM_append]
    exact (congrArg (· >>= _) first).trans second
  rw [assignments?, Toml.parse?, String.toList_ofList]
  split
  next marked => exact absurd marked (unmarked _)
  next =>
      rw [Toml.entries_lines fits (Nat.lt_succ_self _), entries, Option.map_some, Option.bind_some]
      exact Toml.Tree.assignments_of_choice fits single below

/-- The file with a line for each chosen setting. -/
def fileOf (quoting : Key → Toml.Quoting) (choice : (key : Key) → Option key.Content) : String :=
  String.ofList ((Assignment.chosen choice Key.all).flatMap (Assignment.line quoting))

theorem assignments_of_file {choice : (key : Key) → Option key.Content}
    (fits : ∀ key content, choice key = some content → Assignment.Fits quoting ⟨key, content⟩) :
    assignments? (fileOf quoting choice) = some (Assignment.chosen choice Key.all) := by
  let outer := Assignment.chosen choice
    [.columnSpacing, .commentStyle, .alwaysShowReturnTag, .typePlaceholder]
  let marks := Assignment.chosen choice [.opening, .separator, .closing]
  have together : Assignment.chosen choice Key.all = outer ++ marks := by
    simp only [outer, marks, Assignment.chosen, ← List.filterMap_append]
    rfl
  have fitting : ∀ assignment ∈ outer ++ marks, assignment.Fits quoting := by
    rw [← together]
    exact fun assignment member => fits _ _ (Assignment.mem_chosen member).2
  have single : ∀ assignment ∈ outer, assignment.key.path = [assignment.key.ownName] := by
    intro assignment member
    have listed := (Assignment.mem_chosen member).1
    revert listed
    cases assignment.key <;> decide
  have below : ∀ assignment ∈ marks,
      assignment.key.path = ["markers", assignment.key.ownName] := by
    intro assignment member
    have listed := (Assignment.mem_chosen member).1
    revert listed
    cases assignment.key <;> decide
  have distinct : ((outer ++ marks).map Assignment.key).Nodup := by
    rw [← together]
    exact (Assignment.keys_chosen choice Key.all).nodup (by decide)
  rw [fileOf, together]
  exact assignments_of_lines fitting single below distinct

end

end DocComment.Settings
