import DocComment.Proofs.SettingsFile

/-!
What settings come out of layers. A value is looked at through the paths of the settings: an
assignment at one path leaves every path apart from it as it was, so that each key sees only the
assignments made to it. Main statement: each setting is the one given by the last override of its
key, or else by the last file with the key, or else the built-in one.
-/

namespace DocComment.Settings

namespace Value

def at? : List String → Value → Option Value
  | [], root => some root
  | name :: path, root => (get? name root.entries).bind (at? path)

theorem get_cons (name known : String) (value : Value) (rest : List (String × Value)) :
    get? name ((known, value) :: rest) = if known = name then some value else get? name rest := by
  by_cases same : known = name <;> simp [get?, same]

theorem get_put (name other : String) (value : Value) (entries : List (String × Value)) :
    get? other (put name value entries) =
      if other = name then some value else get? other entries := by
  induction entries with
  | nil => simp only [put, get_cons, eq_comm (a := name)]
  | cons entry rest induction =>
      obtain ⟨known, old⟩ := entry
      by_cases same : known = name
      · subst same
        by_cases found : other = known
        · simp only [put, if_true, get_cons, found]
        · simp only [put, if_true, get_cons, if_neg (Ne.symm found), if_neg found]
      · by_cases found : known = other
        · subst found
          simp only [put, if_neg same, get_cons, if_true]
        · simp only [put, if_neg same, get_cons, if_neg found, induction]

theorem put_put (name : String) (value old : Value) (entries : List (String × Value)) :
    put name value (put name old entries) = put name value entries := by
  induction entries with
  | nil => simp [put]
  | cons entry rest induction =>
      obtain ⟨known, _⟩ := entry
      by_cases same : known = name <;> simp [put, same, induction]

theorem put_of_get {name : String} {value : Value} {entries : List (String × Value)}
    (found : get? name entries = some value) : put name value entries = entries := by
  induction entries with
  | nil => simp [get?] at found
  | cons entry rest induction =>
      obtain ⟨known, old⟩ := entry
      by_cases same : known = name
      · rw [get_cons, if_pos same] at found
        rw [put, if_pos same, Option.some.inj found]
      · rw [get_cons, if_neg same] at found
        rw [put, if_neg same, induction found]

theorem at_put_same (name : String) (path : List String) (value : Value)
    (entries : List (String × Value)) :
    at? (name :: path) (.table (put name value entries)) = at? path value := by
  rw [at?, Value.entries, get_put, if_pos rfl, Option.bind_some]

theorem at_put_other {name other : String} (different : other ≠ name) (path : List String)
    (value root : Value) :
    at? (other :: path) (.table (put name value root.entries)) = at? (other :: path) root := by
  rw [at?, at?, Value.entries, get_put, if_neg different]

theorem assign_scalar {name : String} {value : Value} (root : Value)
    (scalar : ∀ inner, value ≠ .table inner) :
    assign name value root = .table (put (lower name) value root.entries) := by
  unfold assign
  split
  next inner => exact absurd rfl (scalar inner)
  next => rfl

/-- An assignment touches only the entry of its name. -/
theorem assign_entry (name : String) (value root : Value) :
    ∃ given, assign name value root = .table (put (lower name) given root.entries) := by
  unfold assign
  split <;> exact ⟨_, rfl⟩

theorem at_assign_at_same {path : List String} {value : Value} (root : Value)
    (nonempty : path ≠ []) (scalar : ∀ inner, value ≠ .table inner) :
    at? (path.map lower) (assignAt path value root) = some value := by
  induction path generalizing root with
  | nil => exact absurd rfl nonempty
  | cons name rest induction =>
      cases rest with
      | nil => rw [assignAt, assign_scalar root scalar, List.map_singleton, at_put_same, at?]
      | cons next rest =>
          rw [assignAt, List.map_cons, at_put_same]
          · exact induction _ (by simp)
          · simp

theorem at_assign_at_other {path other : List String} (value root : Value)
    (above : ¬ path.map lower <+: other) (below : ¬ other <+: path.map lower) :
    at? other (assignAt path value root) = at? other root := by
  induction path generalizing other root with
  | nil => exact absurd List.nil_prefix above
  | cons name rest induction =>
      cases other with
      | nil => exact absurd List.nil_prefix below
      | cons first after =>
          rw [List.map_cons, List.cons_prefix_cons] at above below
          cases rest with
          | nil =>
              obtain ⟨given, assigned⟩ := assign_entry name value root
              rw [assignAt, assigned]
              exact at_put_other (fun same => above ⟨same.symm, List.nil_prefix⟩) after given root
          | cons next rest =>
              rw [assignAt]
              · by_cases same : first = lower name
                · subst same
                  have above : ¬ (next :: rest).map lower <+: after := fun is => above ⟨rfl, is⟩
                  have below : ¬ after <+: (next :: rest).map lower := fun is => below ⟨rfl, is⟩
                  rw [at_put_same, induction _ above below, at?]
                  -- A table that is made on the way has nothing else in it.
                  cases get? (lower name) root.entries with
                  | some inner => rfl
                  | none =>
                      cases after with
                      | nil => exact absurd List.nil_prefix below
                      | cons => rfl
                · exact at_put_other same after _ root
              · simp

/-- A table given to a name that has one is the same as its entries given one after another. -/
theorem assign_table {name : String} {entries : List (String × Value)} {below : Value}
    (canonical : lower name = name) (found : get? name entries = some below)
    (added : List (String × Value)) :
    assign name (.table added) (.table entries) =
      added.foldl (fun root entry => assignAt [name, entry.1] entry.2 root) (.table entries) := by
  induction added generalizing entries below with
  | nil =>
      rw [assign, canonical, Value.entries, found, Option.getD_some, assignAll, put_of_get found,
        List.foldl_nil]
  | cons entry rest induction =>
      have first : assignAt [name, entry.1] entry.2 (.table entries) =
          .table (put name (assign entry.1 entry.2 below) entries) := by
        rw [assignAt, canonical, Value.entries, found, Option.getD_some, assignAt]
        simp
      have present : get? name (put name (assign entry.1 entry.2 below) entries) =
          some (assign entry.1 entry.2 below) := by
        rw [get_put, if_pos rfl]
      rw [List.foldl_cons, first, ← induction present, assign, assign, canonical, Value.entries,
        Value.entries, found, present, Option.getD_some, Option.getD_some, assignAll, put_put]

theorem at_singleton (name : String) (root : Value) : at? [name] root = get? name root.entries := by
  rw [at?, show at? [] = some from rfl, Option.bind_fun_some]

theorem at_pair (table name : String) (root : Value) :
    at? [table, name] root =
      (get? table root.entries).bind fun inner => get? name inner.entries := by
  rw [at?]
  exact congrArg _ (funext (at_singleton name))

/-- A table that has a value of its type at the path of each setting. -/
structure Holds (root : Value) (settings : Settings) : Prop where
  table : .table root.entries = root
  typed : ∀ key : Key, ∃ value,
    root.at? key.path = some value ∧ key.typed? value = some (key.of settings)

theorem holds_built_in : Holds (ofSettings {}) {} where
  table := rfl
  typed key := by cases key <;> exact ⟨_, rfl, rfl⟩

theorem assign_at_table {path : List String} (nonempty : path ≠ []) (value root : Value) :
    .table (assignAt path value root).entries = assignAt path value root := by
  match path with
  | [] => exact absurd rfl nonempty
  | [name] =>
      obtain ⟨given, assigned⟩ := assign_entry name value root
      rw [assignAt, assigned, Value.entries]
  | name :: next :: rest => rfl

theorem Holds.assign_at {root : Value} {settings : Settings} (holds : root.Holds settings)
    {path : List String} {value : Value} {assignment : Assignment}
    (made : Assignment.ofValue? path value = some assignment) :
    (assignAt path value root).Holds (assignment.apply settings) := by
  obtain ⟨key, found, content, typed, rfl⟩ := Assignment.of_value_eq_some made
  obtain rfl := Key.path_of_path found
  refine ⟨assign_at_table key.path_nonempty value root, fun other => ?_⟩
  rw [Assignment.of_apply]
  by_cases same : key = other
  · subst same
    have seen := at_assign_at_same root key.path_nonempty (Key.typed_scalar typed)
    rw [key.lower_path] at seen
    exact ⟨value, seen, by rw [Assignment.to_key_same ⟨key, content⟩, typed, Option.getD_some]⟩
  · obtain ⟨old, seen, kept⟩ := holds.typed other
    have above : ¬ key.path.map lower <+: other.path := by
      rw [key.lower_path]
      exact Key.path_apart same
    have below : ¬ other.path <+: key.path.map lower := by
      rw [key.lower_path]
      exact Key.path_apart (Ne.symm same)
    have unchanged := at_assign_at_other value root above below
    exact ⟨old, unchanged.trans seen, by rw [Assignment.to_key_other same, Option.getD_none, kept]⟩

theorem Holds.assign_each {root : Value} {settings : Settings} (holds : root.Holds settings)
    {values : List (List String × Value)} {assignments : List Assignment}
    (made : Assignment.ofValues? values = some assignments) :
    (values.foldl (fun root given => assignAt given.1 given.2 root) root).Holds
      (assignments.foldl Assignment.apply settings) := by
  induction values generalizing root settings assignments with
  | nil =>
      obtain rfl : [] = assignments := Option.some.inj made
      exact holds
  | cons given rest induction =>
      obtain ⟨one, assigned, others, more, rfl⟩ := map_cons_eq_some made
      exact induction (holds.assign_at assigned) more

theorem to_nat_of_typed {value : Value} {number : Nat}
    (typed : Key.columnSpacing.typed? value = some number) : value.toNat? = some number := by
  cases value with
  | integer value =>
      simp only [Key.typed?] at typed
      split at typed
      next bounds => rw [toNat?, if_pos bounds.1, typed]
      next => cases typed
  | _ => cases typed

theorem to_style_of_typed {value : Value} {style : CommentStyle}
    (typed : Key.commentStyle.typed? value = some style) : value.toStyle? = some style := by
  cases value with
  | text name =>
      -- The names of styles are in lower case.
      have known : name ∈ CommentStyle.names.map (·.1) := by
        obtain ⟨entry, found, -⟩ := Option.map_eq_some_iff.mp typed
        have same : entry.1 = name := by simpa using List.find?_some found
        exact same ▸ List.mem_map_of_mem (List.mem_of_find?_eq_some found)
      have canonical : ∀ name ∈ CommentStyle.names.map (·.1), lower name = name := by decide
      rw [toStyle?, canonical name known]
      exact typed
  | _ => cases typed

theorem to_bool_of_typed {value : Value} {flag : Bool}
    (typed : Key.alwaysShowReturnTag.typed? value = some flag) : value.toBool? = some flag := by
  cases value with
  | flag => exact typed
  | _ => cases typed

theorem to_text_of_text {value : Value} {text : String} (is : value.asText? = some text) :
    value.toText? = some text := by
  cases value with
  | text => exact is
  | _ => cases is

theorem to_markers_of_typed {value opening separator closing : Value} {markers : Markers}
    (hasOpening : get? "open" value.entries = some opening)
    (hasSeparator : get? "separator" value.entries = some separator)
    (hasClosing : get? "close" value.entries = some closing)
    (opens : Key.opening.typed? opening = some markers.opening)
    (separates : Key.separator.typed? separator = some markers.separator)
    (closes : Key.closing.typed? closing = some markers.closing) :
    value.toMarkers? = some markers := by
  cases value with
  | table entries =>
      rw [Value.entries] at hasOpening hasSeparator hasClosing
      simp [toMarkers?, hasOpening, hasSeparator, hasClosing, to_text_of_text opens,
        to_text_of_text separates, to_text_of_text closes]
  | _ => cases hasOpening

theorem Holds.to_settings {root : Value} {settings : Settings} (holds : root.Holds settings) :
    root.toSettings? = some settings := by
  obtain ⟨spacing, hasSpacing, spaces⟩ := holds.typed .columnSpacing
  obtain ⟨style, hasStyle, styles⟩ := holds.typed .commentStyle
  obtain ⟨flag, hasFlag, shows⟩ := holds.typed .alwaysShowReturnTag
  obtain ⟨placeholder, hasPlaceholder, holdsPlace⟩ := holds.typed .typePlaceholder
  obtain ⟨opening, hasOpening, opens⟩ := holds.typed .opening
  obtain ⟨separator, hasSeparator, separates⟩ := holds.typed .separator
  obtain ⟨closing, hasClosing, closes⟩ := holds.typed .closing
  simp only [Key.path, at_singleton] at hasSpacing hasStyle hasFlag hasPlaceholder
  simp only [Key.path, at_pair] at hasOpening hasSeparator hasClosing
  obtain ⟨markers, hasMarkers, hasOpening⟩ := Option.bind_eq_some_iff.mp hasOpening
  rw [hasMarkers, Option.bind_some] at hasSeparator hasClosing
  have marks := to_markers_of_typed hasOpening hasSeparator hasClosing opens separates closes
  simp [toSettings?, hasSpacing, hasStyle, hasFlag, hasPlaceholder, hasMarkers,
    to_nat_of_typed spaces, to_style_of_typed styles, to_bool_of_typed shows,
    to_text_of_text holdsPlace, marks, Key.of]

/-- A table of markers adds to the markers that are there. -/
theorem Holds.assign_markers {root : Value} {settings : Settings} (holds : root.Holds settings)
    {inner : List (String × Value)} {assignments : List Assignment}
    (made : inner.mapM (fun entry => Assignment.ofValue? ["markers", entry.1] entry.2) =
      some assignments) :
    (assign "markers" (.table inner) root).Holds
      (assignments.foldl Assignment.apply settings) := by
  obtain ⟨_, hasOpening, -⟩ := holds.typed .opening
  rw [Key.path, at_pair] at hasOpening
  obtain ⟨below, hasMarkers, -⟩ := Option.bind_eq_some_iff.mp hasOpening
  have each := assign_table (by decide : lower "markers" = "markers") hasMarkers inner
  rw [holds.table] at each
  have values : Assignment.ofValues?
      (inner.map fun entry => (["markers", entry.1], entry.2)) = some assignments := by
    rw [Assignment.ofValues?, List.mapM_map]
    exact made
  have assigned := holds.assign_each values
  rwa [List.foldl_map, ← each] at assigned

theorem Holds.file_entry {root : Value} {settings : Settings} (holds : root.Holds settings)
    {entry : String × Value} {assignments : List Assignment}
    (made : entryAssignments? entry = some assignments) :
    (Layers.fileEntry root entry).Holds (assignments.foldl Assignment.apply settings) := by
  unfold entryAssignments? at made
  split at made
  next name inner =>
      split at made
      next isMarkers =>
          subst isMarkers
          have spelled : path? "markers" = some ["markers"] := by decide
          rw [Layers.fileEntry, spelled, Option.getD_some, assignAt]
          exact holds.assign_markers made
      next => cases made
  next name value _ =>
      obtain ⟨assignment, one, rfl⟩ := Option.map_eq_some_iff.mp made
      have spelled := Key.path_of_single (Assignment.path_of_value one)
      rw [Layers.fileEntry, spelled, Option.getD_some]
      exact holds.assign_at one

theorem Holds.file_entries {root : Value} {settings : Settings} (holds : root.Holds settings)
    {entries : List (String × Value)} {made : List (List Assignment)}
    (read : entries.mapM entryAssignments? = some made) :
    (entries.foldl Layers.fileEntry root).Holds (made.flatten.foldl Assignment.apply settings) := by
  induction entries generalizing root settings made with
  | nil =>
      obtain rfl : [] = made := Option.some.inj read
      exact holds
  | cons entry rest induction =>
      obtain ⟨one, first, others, more, rfl⟩ := map_cons_eq_some read
      rw [List.foldl_cons, List.flatten_cons, List.foldl_append]
      exact induction (holds.file_entry first) more

end Value

namespace Layers

/-- A new override of a key takes the place of the one before, so that each key has one. -/
theorem put_override {stored : List (List String × Value)} {kept : List Assignment}
    (read : Assignment.ofValues? stored = some kept)
    (distinct : (kept.map Assignment.key).Nodup) {path : List String} {value : Value}
    {assignment : Assignment} (made : Assignment.ofValue? path value = some assignment) :
    ∃ next, Assignment.ofValues? (putOverride path value stored) = some next ∧
      (next.map Assignment.key).Nodup ∧
      (∀ key ∈ next.map Assignment.key, key = assignment.key ∨ key ∈ kept.map Assignment.key) ∧
      ∀ key, Assignment.last? key next =
        (assignment.toKey? key).or (Assignment.last? key kept) := by
  induction stored generalizing kept with
  | nil =>
      obtain rfl : [] = kept := Option.some.inj read
      refine ⟨[assignment], ?_, ?_, ?_, ?_⟩
      · simp [Assignment.ofValues?, putOverride, made]
      · simp
      · simp
      · intro key
        rw [Assignment.last_singleton, show Assignment.last? key [] = none from rfl, Option.or_none]
  | cons given rest induction =>
      obtain ⟨known, old⟩ := given
      obtain ⟨one, first, others, more, rfl⟩ := map_cons_eq_some read
      rw [List.map_cons, List.nodup_cons] at distinct
      by_cases same : known = path
      · have sameKey : one.key = assignment.key := Key.path_injective
          ((Assignment.path_of_value first).trans
            (same.trans (Assignment.path_of_value made).symm))
        rw [sameKey] at distinct
        refine ⟨assignment :: others, ?_, ?_, ?_, ?_⟩
        · simp [Assignment.ofValues?, putOverride, same, made, more]
        · exact List.nodup_cons.mpr distinct
        · simp [sameKey]
        · intro key
          rw [Assignment.last_cons, Assignment.last_cons]
          by_cases assigned : assignment.key = key
          · subst assigned
            rw [Assignment.last_eq_none distinct.1, Assignment.to_key_same, Option.none_or,
              Option.some_or]
          · rw [Assignment.to_key_other assigned, Assignment.to_key_other (sameKey ▸ assigned),
              Option.or_none, Option.none_or]
      · have differentKey : one.key ≠ assignment.key := fun sameKey => same
          ((Assignment.path_of_value first).symm.trans
            ((congrArg Key.path sameKey).trans (Assignment.path_of_value made)))
        obtain ⟨next, stored, apart, keys, lasts⟩ := induction more distinct.2
        refine ⟨one :: next, ?_, ?_, ?_, ?_⟩
        · rw [Assignment.ofValues?] at stored
          simp [Assignment.ofValues?, putOverride, same, first, stored]
        · refine List.nodup_cons.mpr ⟨fun member => ?_, apart⟩
          exact (keys one.key member).elim differentKey distinct.1
        · intro key member
          rcases List.mem_cons.mp member with rfl | member
          · exact .inr List.mem_cons_self
          · exact (keys key member).imp_right (List.mem_cons_of_mem _)
        · intro key
          rw [Assignment.last_cons, Assignment.last_cons, lasts, Option.or_assoc]

/-- Layers whose files and overrides make the given assignments. -/
structure Records (layers : Layers) (filed overriding : List Assignment) : Prop where
  files : ∃ files made, layers.files.mapM id = some files ∧
    files.flatten.mapM entryAssignments? = some made ∧ made.flatten = filed
  overrides : ∃ kept, Assignment.ofValues? layers.overrides = some kept ∧
    (kept.map Assignment.key).Nodup ∧
    ∀ key, Assignment.last? key kept = Assignment.last? key overriding

theorem records_none : ({} : Layers).Records [] [] :=
  ⟨⟨[], [], rfl, rfl, rfl⟩, ⟨[], rfl, List.nodup_nil, fun _ => rfl⟩⟩

theorem Records.with_file {layers : Layers} {filed overriding given : List Assignment}
    {text : String} (records : layers.Records filed overriding)
    (read : assignments? text = some given) :
    (layers.withFile (some text)).Records (filed ++ given) overriding := by
  obtain ⟨entries, parsed, entered⟩ := Option.bind_eq_some_iff.mp read
  obtain ⟨more, each, rfl⟩ := Option.map_eq_some_iff.mp entered
  obtain ⟨files, made, present, assigned, rfl⟩ := records.files
  refine ⟨⟨files ++ [entries], made ++ more, ?_, ?_, List.flatten_append⟩, records.overrides⟩
  · simp [withFile, List.mapM_append, present, parsed]
  · simp [List.mapM_append, assigned, each]

theorem Records.with_override {layers : Layers} {filed overriding : List Assignment}
    (records : layers.Records filed overriding) {key : Key} {value : Value} {content : key.Content}
    (typed : key.typed? value = some content) :
    ∃ next, layers.withOverride? key.name value = some next ∧
      next.Records filed (overriding ++ [⟨key, content⟩]) := by
  obtain ⟨kept, stored, distinct, lasts⟩ := records.overrides
  have made : Assignment.ofValue? key.path value = some ⟨key, content⟩ := by
    rw [Assignment.ofValue?, key.of_path_path, Option.bind_some, typed, Option.map_some]
  obtain ⟨next, stored, distinct, -, put⟩ := put_override stored distinct made
  refine ⟨{ layers with overrides := putOverride key.path value layers.overrides }, ?_,
    records.files, next, stored, distinct, fun other => ?_⟩
  · rw [withOverride?, key.path_of_name, Option.map_some, key.lower_path]
  · rw [put, lasts, Assignment.last_append, Assignment.last_singleton]

theorem Records.build {layers : Layers} {filed overriding : List Assignment}
    (records : layers.Records filed overriding) :
    ∃ settings, layers.build? = some settings ∧
      ∀ key : Key, key.of settings =
        ((Assignment.last? key overriding).or (Assignment.last? key filed)).getD (key.of {}) := by
  obtain ⟨files, made, present, assigned, rfl⟩ := records.files
  obtain ⟨kept, stored, -, lasts⟩ := records.overrides
  have holds := (Value.holds_built_in.file_entries assigned).assign_each stored
  refine ⟨kept.foldl Assignment.apply (made.flatten.foldl Assignment.apply {}), ?_, fun key => ?_⟩
  · rw [build?, merged?, present, Option.map_some, Option.bind_some, ← List.foldl_flatten]
    exact holds.to_settings
  · rw [Assignment.of_apply_all, Assignment.of_apply_all, lasts, Option.getD_or]

end Layers

inductive Call where
  | file (text : String)
  | optionalFile (text : Option String)
  | override (key : Key) (value : Value)

namespace Call

def perform? (layers : Layers) : Call → Option Layers
  | .file text => some (layers.withFile (some text))
  | .optionalFile text => some (layers.withOptionalFile text)
  | .override key value => layers.withOverride? key.name value

def isOverride : Call → Bool
  | .override _ _ => true
  | _ => false

def filed : Call → List Assignment
  | .file text => (assignments? text).getD []
  | .optionalFile text => (text.bind assignments?).getD []
  | .override _ _ => []

def overriding : Call → List Assignment
  | .file _ => []
  | .optionalFile _ => []
  | .override key value => ((key.typed? value).map (⟨key, ·⟩)).toList

/-- Nothing but settings is given, each with a value of its type. -/
def isTyped : Call → Bool
  | .file text => (assignments? text).isSome
  | .optionalFile text => text.all fun present => (assignments? present).isSome
  | .override key value => (key.typed? value).isSome

theorem records_step {layers : Layers} {before overridden : List Assignment} {call : Call}
    (records : layers.Records before overridden) (typed : call.isTyped = true) :
    ∃ next, call.perform? layers = some next ∧
      next.Records (before ++ call.filed) (overridden ++ call.overriding) := by
  cases call with
  | file text =>
      obtain ⟨given, read⟩ := Option.isSome_iff_exists.mp typed
      refine ⟨_, rfl, ?_⟩
      rw [filed, read, Option.getD_some, overriding, List.append_nil]
      exact records.with_file read
  | optionalFile text =>
      cases text with
      | none =>
          refine ⟨layers, rfl, ?_⟩
          simpa [filed, overriding] using records
      | some text =>
          obtain ⟨given, read⟩ := Option.isSome_iff_exists.mp typed
          refine ⟨_, rfl, ?_⟩
          rw [filed, Option.bind_some, read, Option.getD_some, overriding, List.append_nil]
          exact records.with_file read
  | override key value =>
      obtain ⟨content, typed⟩ := Option.isSome_iff_exists.mp typed
      rw [filed, List.append_nil, overriding, typed, Option.map_some, Option.toList_some]
      exact records.with_override typed

theorem records_run {layers : Layers} {before overridden : List Assignment} {calls : List Call}
    (records : layers.Records before overridden) (typed : ∀ call ∈ calls, call.isTyped = true) :
    ∃ next, calls.foldlM perform? layers = some next ∧
      next.Records (before ++ calls.flatMap filed) (overridden ++ calls.flatMap overriding) := by
  induction calls generalizing layers before overridden with
  | nil => exact ⟨layers, rfl, by simpa using records⟩
  | cons call rest induction =>
      obtain ⟨after, applied, recorded⟩ := records_step records (typed call List.mem_cons_self)
      obtain ⟨next, run, recorded⟩ :=
        induction recorded fun call member => typed call (List.mem_cons_of_mem _ member)
      refine ⟨next, ?_, ?_⟩
      · rw [List.foldlM_cons, applied]
        exact run
      · simpa only [List.flatMap_cons, List.append_assoc] using recorded

end Call

def load? (calls : List Call) : Option Settings :=
  (calls.foldlM Call.perform? {}).bind Layers.build?

theorem load_typed {calls : List Call} (typed : ∀ call ∈ calls, call.isTyped = true) :
    ∃ settings, load? calls = some settings ∧
      ∀ key : Key, key.of settings =
        ((Assignment.last? key (calls.flatMap Call.overriding)).or
          (Assignment.last? key (calls.flatMap Call.filed))).getD (key.of {}) := by
  obtain ⟨layers, run, records⟩ := Call.records_run Layers.records_none typed
  rw [load?, run]
  exact records.build

theorem flat_map_filter {α β : Type} {keep : α → Bool} {f : α → List β}
    (silent : ∀ item, keep item = false → f item = []) (l : List α) :
    (l.filter keep).flatMap f = l.flatMap f := by
  induction l with
  | nil => rfl
  | cons item rest induction =>
      cases kept : keep item with
      | true => rw [List.filter_cons_of_pos kept, List.flatMap_cons, List.flatMap_cons, induction]
      | false =>
          rw [List.filter_cons_of_neg (by simp [kept]), List.flatMap_cons, silent item kept,
            induction, List.nil_append]

namespace Call

/-- Calls that differ only in how overrides stand among files. -/
structure Interleaved (calls other : List Call) : Prop where
  overrides : other.filter isOverride = calls.filter isOverride
  files : other.filter (!·.isOverride) = calls.filter (!·.isOverride)

theorem Interleaved.overriding {calls other : List Call} (same : Interleaved calls other) :
    other.flatMap overriding = calls.flatMap overriding := by
  have silent : ∀ call : Call, call.isOverride = false → call.overriding = [] := by
    rintro (_ | _ | _) file
    · rfl
    · rfl
    · cases file
  rw [← flat_map_filter silent other, same.overrides, flat_map_filter silent]

theorem Interleaved.filed {calls other : List Call} (same : Interleaved calls other) :
    other.flatMap filed = calls.flatMap filed := by
  have silent : ∀ call : Call, (!call.isOverride) = false → call.filed = [] := by
    rintro (_ | _ | _) override
    · cases override
    · cases override
    · rfl
  rw [← flat_map_filter silent other, same.files, flat_map_filter silent]

theorem Interleaved.typed {calls other : List Call} (same : Interleaved calls other)
    (typed : ∀ call ∈ calls, call.isTyped = true) : ∀ call ∈ other, call.isTyped = true := by
  intro call member
  cases kind : call.isOverride with
  | true =>
      have listed : call ∈ other.filter isOverride := List.mem_filter.mpr ⟨member, kind⟩
      rw [same.overrides] at listed
      exact typed call (List.mem_filter.mp listed).1
  | false =>
      have listed : call ∈ other.filter (!·.isOverride) :=
        List.mem_filter.mpr ⟨member, by simp [kind]⟩
      rw [same.files] at listed
      exact typed call (List.mem_filter.mp listed).1

end Call

/-- The last override of a key counts, or else the last file with the key, or else the built-in
setting; where overrides stand among files makes no difference, one more call changes only the keys
that it gives, and a file can give any choice of the keys, its texts in quotes of any kind. -/
theorem settings_of_layers (calls : List Call) (typed : ∀ call ∈ calls, call.isTyped = true) :
    (∃ settings, load? calls = some settings ∧
      (∀ key : Key, key.of settings =
        ((Assignment.last? key (calls.flatMap Call.overriding)).or
          (Assignment.last? key (calls.flatMap Call.filed))).getD (key.of {})) ∧
      (∀ other, Call.Interleaved calls other → load? other = some settings) ∧
      ∀ call : Call, call.isTyped = true → ∃ next, load? (calls ++ [call]) = some next ∧
        ∀ key : Key, Assignment.last? key (call.overriding ++ call.filed) = none →
          key.of next = key.of settings) ∧
    ∀ (quoting : Key → Toml.Quoting) (choice : (key : Key) → Option key.Content),
      (∀ key content, choice key = some content → Assignment.Fits quoting ⟨key, content⟩) →
      (Call.file (fileOf quoting choice)).isTyped = true ∧
        ∀ key, Assignment.last? key (Call.file (fileOf quoting choice)).filed = choice key := by
  obtain ⟨settings, loaded, given⟩ := load_typed typed
  refine ⟨⟨settings, loaded, given, fun other same => ?_, fun call one => ?_⟩,
    fun quoting choice fits => ?_⟩
  · obtain ⟨others, reloaded, regiven⟩ := load_typed (same.typed typed)
    rw [reloaded, Option.some.injEq]
    refine Key.settings_eq fun key => ?_
    rw [regiven, given, same.overriding, same.filed]
  · have all : ∀ other ∈ calls ++ [call], other.isTyped = true := by
      intro other member
      rcases List.mem_append.mp member with earlier | last
      · exact typed other earlier
      · rwa [List.mem_singleton.mp last]
    obtain ⟨next, reloaded, regiven⟩ := load_typed all
    refine ⟨next, reloaded, fun key silent => ?_⟩
    rw [Assignment.last_append, Option.or_eq_none_iff] at silent
    rw [regiven, given, List.flatMap_append, List.flatMap_append, List.flatMap_singleton,
      List.flatMap_singleton, Assignment.last_append, Assignment.last_append, silent.1, silent.2,
      Option.none_or, Option.none_or]
  · have read := assignments_of_file fits
    rw [Call.isTyped, Call.filed, read, Option.isSome_some, Option.getD_some]
    exact ⟨rfl, fun key => Assignment.last_chosen choice (by decide) (by cases key <;> decide)⟩

/-- Overrides in front of and between files, an absent file, markers from three layers and texts in
quotes of all kinds. -/
theorem settings_of_six_layers :
    let near := "column_spacing = 4\ntype_placeholder = \"mixed\"\n[markers]\n" ++
      "open = \"\"\"\n/*!\"\"\""
    let far := "column_spacing = 0x10 # wide\nmarkers.separator = '-'\n" ++
      "markers.close = '''**/'''"
    let calls : List Call :=
      [.override .separator (.text " # "), .file near, .optionalFile none,
        .override .commentStyle (.text "alternate"), .optionalFile (some far),
        .override .typePlaceholder (.text "any")]
    (∀ call ∈ calls, call.isTyped = true) ∧
      load? calls = some
        { columnSpacing := 16, commentStyle := .wrapped, alwaysShowReturnTag := true,
          typePlaceholder := "any",
          markers := { opening := "/*!", separator := " # ", closing := "**/" } } := by
  intro near far calls
  have hasNear : assignments? near =
      some [⟨.columnSpacing, 4⟩, ⟨.typePlaceholder, "mixed"⟩, ⟨.opening, "/*!"⟩] := by
    decide +kernel
  have hasFar : assignments? far =
      some [⟨.columnSpacing, 16⟩, ⟨.separator, "-"⟩, ⟨.closing, "**/"⟩] := by
    decide +kernel
  have typed : ∀ call ∈ calls, call.isTyped = true := by
    simp only [calls, List.forall_mem_cons, Call.isTyped, hasNear, hasFar, Option.all_some]
    decide
  refine ⟨typed, ?_⟩
  obtain ⟨⟨settings, loaded, given, -⟩, -⟩ := settings_of_layers calls typed
  rw [loaded, Option.some.injEq]
  refine Key.settings_eq fun key => (given key).trans ?_
  simp only [calls, List.flatMap_cons, Call.filed, Option.bind_some, hasNear, hasFar]
  cases key <;> decide

end DocComment.Settings
