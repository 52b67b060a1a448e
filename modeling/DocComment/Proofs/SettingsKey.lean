import DocComment.Settings.Layers

/-!
The settings one by one: where each stands in a file, which values it takes, and what a file or a
list of assignments gives to it. In a list the last assignment to a key counts.
-/

namespace DocComment.Settings

/-- The text of a value that is one; values of other types are not turned into texts. -/
def Value.asText? : Value → Option String
  | .text value => some value
  | _ => none

inductive Key where
  | columnSpacing
  | commentStyle
  | alwaysShowReturnTag
  | typePlaceholder
  | opening
  | separator
  | closing
  deriving DecidableEq, Repr

namespace Key

def all : List Key :=
  [.columnSpacing, .commentStyle, .alwaysShowReturnTag, .typePlaceholder, .opening, .separator,
    .closing]

def path : Key → List String
  | .columnSpacing => ["column_spacing"]
  | .commentStyle => ["comment_style"]
  | .alwaysShowReturnTag => ["always_show_return_tag"]
  | .typePlaceholder => ["type_placeholder"]
  | .opening => ["markers", "open"]
  | .separator => ["markers", "separator"]
  | .closing => ["markers", "close"]

/-- The path as a single override spells it. -/
def name : Key → String
  | .columnSpacing => "column_spacing"
  | .commentStyle => "comment_style"
  | .alwaysShowReturnTag => "always_show_return_tag"
  | .typePlaceholder => "type_placeholder"
  | .opening => "markers.open"
  | .separator => "markers.separator"
  | .closing => "markers.close"

def ofPath? (path : List String) : Option Key := all.find? fun key => key.path = path

abbrev Content : Key → Type
  | .columnSpacing => Nat
  | .commentStyle => CommentStyle
  | .alwaysShowReturnTag => Bool
  | .typePlaceholder => String
  | .opening => String
  | .separator => String
  | .closing => String

instance : (key : Key) → DecidableEq key.Content
  | .columnSpacing => inferInstanceAs (DecidableEq Nat)
  | .commentStyle => inferInstanceAs (DecidableEq CommentStyle)
  | .alwaysShowReturnTag => inferInstanceAs (DecidableEq Bool)
  | .typePlaceholder => inferInstanceAs (DecidableEq String)
  | .opening => inferInstanceAs (DecidableEq String)
  | .separator => inferInstanceAs (DecidableEq String)
  | .closing => inferInstanceAs (DecidableEq String)

def of (settings : Settings) : (key : Key) → key.Content
  | .columnSpacing => settings.columnSpacing
  | .commentStyle => settings.commentStyle
  | .alwaysShowReturnTag => settings.alwaysShowReturnTag
  | .typePlaceholder => settings.typePlaceholder
  | .opening => settings.markers.opening
  | .separator => settings.markers.separator
  | .closing => settings.markers.closing

/-- What a value of the type that a key asks for stands for; nothing for values of other types. -/
def typed? : (key : Key) → Value → Option key.Content
  | .columnSpacing, .integer value =>
      if 0 ≤ value ∧ value ≤ Value.greatestInteger then some value.toNat else none
  | .commentStyle, .text value => CommentStyle.ofName? value
  | .alwaysShowReturnTag, .flag value => some value
  | .typePlaceholder, value => value.asText?
  | .opening, value => value.asText?
  | .separator, value => value.asText?
  | .closing, value => value.asText?
  | _, _ => none

theorem path_of_path {path : List String} {key : Key} (found : ofPath? path = some key) :
    key.path = path := by
  simpa using List.find?_some found

theorem of_path_path (key : Key) : ofPath? key.path = some key := by
  cases key <;> decide

theorem path_of_name (key : Key) : path? key.name = some key.path := by
  cases key <;> decide

theorem path_of_single {key : Key} {name : String} (single : key.path = [name]) :
    path? name = some [name] := by
  have spelled : key.name = name := by
    cases key <;> first | exact List.head_eq_of_cons_eq single | cases single
  rw [← spelled, key.path_of_name, single, spelled]

theorem lower_path (key : Key) : key.path.map Value.lower = key.path := by
  cases key <;> decide

theorem path_nonempty (key : Key) : key.path ≠ [] := by
  cases key <;> decide

theorem path_injective {key other : Key} (same : key.path = other.path) : key = other := by
  have found := key.of_path_path
  rw [same, other.of_path_path] at found
  exact (Option.some.inj found).symm

/-- No setting stands on the way to another. -/
theorem path_apart {key other : Key} (different : key ≠ other) : ¬ key.path <+: other.path := by
  cases key <;> cases other <;> first | exact absurd rfl different | decide

theorem typed_scalar {key : Key} {value : Value} {content : key.Content}
    (typed : key.typed? value = some content) (inner : List (String × Value)) :
    value ≠ .table inner := by
  rintro rfl
  cases key <;> cases typed

theorem settings_eq {settings other : Settings}
    (same : ∀ key : Key, key.of settings = key.of other) : settings = other := by
  obtain ⟨_, _, _, _, _, _, _⟩ := settings
  obtain ⟨_, _, _, _, _, _, _⟩ := other
  have spacing := same .columnSpacing
  have style := same .commentStyle
  have shown := same .alwaysShowReturnTag
  have placeholder := same .typePlaceholder
  have opening := same .opening
  have separator := same .separator
  have closing := same .closing
  simp only [of] at spacing style shown placeholder opening separator closing
  subst spacing style shown placeholder opening separator closing
  rfl

end Key

structure Assignment where
  key : Key
  content : key.Content
  deriving DecidableEq

namespace Assignment

def ofValue? (path : List String) (value : Value) : Option Assignment :=
  (Key.ofPath? path).bind fun key => (key.typed? value).map (⟨key, ·⟩)

def ofValues? (values : List (List String × Value)) : Option (List Assignment) :=
  values.mapM fun given => ofValue? given.1 given.2

def toKey? (key : Key) (assignment : Assignment) : Option key.Content :=
  if same : assignment.key = key then some (same ▸ assignment.content) else none

def apply (settings : Settings) : Assignment → Settings
  | ⟨.columnSpacing, content⟩ => { settings with columnSpacing := content }
  | ⟨.commentStyle, content⟩ => { settings with commentStyle := content }
  | ⟨.alwaysShowReturnTag, content⟩ => { settings with alwaysShowReturnTag := content }
  | ⟨.typePlaceholder, content⟩ => { settings with typePlaceholder := content }
  | ⟨.opening, content⟩ =>
      { settings with markers := { settings.markers with opening := content } }
  | ⟨.separator, content⟩ =>
      { settings with markers := { settings.markers with separator := content } }
  | ⟨.closing, content⟩ =>
      { settings with markers := { settings.markers with closing := content } }

/-- What the last of the assignments to a key gives to it. -/
def last? (key : Key) (assignments : List Assignment) : Option key.Content :=
  assignments.reverse.findSome? (toKey? key)

theorem of_value_eq_some {path : List String} {value : Value} {assignment : Assignment}
    (made : ofValue? path value = some assignment) :
    ∃ key, Key.ofPath? path = some key ∧
      ∃ content, key.typed? value = some content ∧ assignment = ⟨key, content⟩ := by
  obtain ⟨key, found, typed⟩ := Option.bind_eq_some_iff.mp made
  obtain ⟨content, typed, same⟩ := Option.map_eq_some_iff.mp typed
  exact ⟨key, found, content, typed, same.symm⟩

theorem path_of_value {path : List String} {value : Value} {assignment : Assignment}
    (made : ofValue? path value = some assignment) : assignment.key.path = path := by
  obtain ⟨key, found, _, -, rfl⟩ := of_value_eq_some made
  exact Key.path_of_path found

theorem to_key_same (assignment : Assignment) :
    assignment.toKey? assignment.key = some assignment.content := dif_pos rfl

theorem to_key_other {key : Key} {assignment : Assignment} (different : assignment.key ≠ key) :
    assignment.toKey? key = none := dif_neg different

theorem of_apply (key : Key) (settings : Settings) (assignment : Assignment) :
    key.of (assignment.apply settings) = (assignment.toKey? key).getD (key.of settings) := by
  obtain ⟨assigned, content⟩ := assignment
  by_cases same : assigned = key
  · subst same
    rw [to_key_same ⟨assigned, content⟩]
    cases assigned <;> rfl
  · rw [to_key_other same]
    cases assigned <;> cases key <;> first | rfl | exact absurd rfl same

theorem last_append (key : Key) (before after : List Assignment) :
    last? key (before ++ after) = (last? key after).or (last? key before) := by
  simp only [last?, List.reverse_append, List.findSome?_append]

theorem last_singleton (key : Key) (assignment : Assignment) :
    last? key [assignment] = assignment.toKey? key := by
  simp only [last?, List.reverse_singleton, List.findSome?_singleton]

theorem last_cons (key : Key) (assignment : Assignment) (after : List Assignment) :
    last? key (assignment :: after) = (last? key after).or (assignment.toKey? key) := by
  rw [← List.singleton_append, last_append, last_singleton]

theorem of_apply_all (key : Key) (settings : Settings) (assignments : List Assignment) :
    key.of (assignments.foldl apply settings) =
      (last? key assignments).getD (key.of settings) := by
  induction assignments generalizing settings with
  | nil => rfl
  | cons assignment after induction =>
      rw [List.foldl_cons, induction, of_apply, last_cons, Option.getD_or]

theorem last_eq_none {key : Key} {assignments : List Assignment}
    (unassigned : key ∉ assignments.map Assignment.key) : last? key assignments = none := by
  rw [last?, List.findSome?_eq_none_iff]
  intro assignment member
  refine to_key_other ?_
  rintro rfl
  exact unassigned (List.mem_map_of_mem (List.mem_reverse.mp member))

end Assignment

theorem map_cons_eq_some {α β : Type} {f : α → Option β} {first : α} {rest : List α}
    {made : List β} (all : (first :: rest).mapM f = some made) :
    ∃ one, f first = some one ∧ ∃ more, rest.mapM f = some more ∧ one :: more = made := by
  simpa [List.mapM_cons, Option.bind_eq_some_iff] using all

theorem map_eq_some {α β : Type} {f : α → Option β} {g : α → β} {l : List α}
    (each : ∀ item ∈ l, f item = some (g item)) : l.mapM f = some (l.map g) := by
  induction l with
  | nil => rfl
  | cons first rest induction =>
      simp [each first List.mem_cons_self,
        induction fun item member => each item (List.mem_cons_of_mem _ member)]

/-- The assignments that an entry of a file makes, if it makes no others. -/
def entryAssignments? : String × Value → Option (List Assignment)
  | (name, .table inner) =>
      if name = "markers" then
        inner.mapM fun (below, value) => Assignment.ofValue? [name, below] value
      else none
  | (name, value) => (Assignment.ofValue? [name] value).map ([·])

/-- The assignments that a file makes, in their order; nothing if the file is malformed, has a name
that is no setting's or a value that has not the type of its setting. -/
def assignments? (text : String) : Option (List Assignment) :=
  (Toml.parse? text).bind fun entries => (entries.mapM entryAssignments?).map List.flatten

end DocComment.Settings
