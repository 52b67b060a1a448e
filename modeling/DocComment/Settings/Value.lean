import DocComment.Number.Binary64
import DocComment.Settings.Basic

/-!
Settings before they have their types: values in tables, as files and single overrides give them.
Names count without regard to case. Giving a table to a name adds its entries to those already there;
giving anything else replaces what was there.
-/

namespace DocComment.Settings

inductive Value where
  | null
  | flag (value : Bool)
  | integer (value : Int)
  | real (value : Binary64)
  | text (value : String)
  | list (items : List Value)
  | table (entries : List (String × Value))
  deriving Repr, Inhabited

namespace Value

/-- The lower case of a character as far as the names of settings can tell: besides the capitals `A`
to `Z` only the Kelvin sign has one of `a` to `z` as its lower case. -/
def lowerChar (c : Char) : Char := if c = '\u212A' then 'k' else c.toLower

def lower (text : String) : String := String.ofList (text.toList.map lowerChar)

def get? (name : String) (entries : List (String × Value)) : Option Value :=
  (entries.find? fun (known, _) => known == name).map (·.2)

def put (name : String) (value : Value) : List (String × Value) → List (String × Value)
  | [] => [(name, value)]
  | (known, old) :: rest =>
      if known = name then (known, value) :: rest else (known, old) :: put name value rest

def entries : Value → List (String × Value)
  | .table entries => entries
  | _ => []

mutual

/-- The value with another one given to a name in it. -/
def assign (name : String) (given : Value) (root : Value) : Value :=
  match given with
  | .table added =>
      let below := (get? (lower name) root.entries).getD (.table [])
      .table (put (lower name) (assignAll added below) root.entries)
  | _ => .table (put (lower name) given root.entries)

def assignAll (added : List (String × Value)) (root : Value) : Value :=
  match added with
  | [] => root
  | (name, given) :: rest => assignAll rest (assign name given root)

end

def assignAt (path : List String) (given : Value) (root : Value) : Value :=
  match path with
  | [] => root
  | [name] => assign name given root
  | name :: path =>
      let below := (get? (lower name) root.entries).getD .null
      .table (put (lower name) (assignAt path given below) root.entries)

def greatestInteger : Nat := Nat.pow 2 64 - 1

def truthWord? (text : String) : Option Bool :=
  let word := lower text
  if ["true", "on", "yes"].contains word then some true
  else if ["false", "off", "no"].contains word then some false
  else none

/-- Digits, with or without a plus sign, up to the greatest integer. -/
def naturalNumeral? (text : String) : Option Nat :=
  let digits := match text.toList with
    | '+' :: cs => cs
    | cs => cs
  (Decimal.natural? 10 digits).filter (· ≤ greatestInteger)

def toNat? : Value → Option Nat
  | .flag value => some value.toNat
  | .integer value => if 0 ≤ value then some value.toNat else none
  | .real value => some (value.toNatClamped greatestInteger)
  | .text value => ((truthWord? value).map (·.toNat)).or (naturalNumeral? value)
  | .null | .list _ | .table _ => none

def toBool? : Value → Option Bool
  | .flag value => some value
  | .integer value => some (value != 0)
  | .real value => some value.isNonzero
  | .text value =>
      if value = "1" then some true else if value = "0" then some false else truthWord? value
  | .null | .list _ | .table _ => none

def toText? : Value → Option String
  | .flag value => some (if value then "true" else "false")
  | .integer value => some (toString value)
  | .real value => some value.text
  | .text value => some value
  | .null | .list _ | .table _ => none

/-- The name of a style, or a table with that one name in it. -/
def toStyle? : Value → Option CommentStyle
  | .text value => CommentStyle.ofName? (lower value)
  | .table [(name, _)] => CommentStyle.ofName? (lower name)
  | _ => none

/-- The markers by their names, or the first three items of a list in their order. -/
def toMarkers? : Value → Option Markers
  | .table entries => do
      let opening ← (get? "open" entries).bind toText?
      let separator ← (get? "separator" entries).bind toText?
      let closing ← (get? "close" entries).bind toText?
      some { opening, separator, closing }
  | .list (opening :: separator :: closing :: _) => do
      some { opening := ← opening.toText?, separator := ← separator.toText?
             closing := ← closing.toText? }
  | _ => none

/-- The settings that a value holds; none if one is absent or has no value of its type. -/
def toSettings? (value : Value) : Option Settings := do
  let entries := value.entries
  let columnSpacing ← (get? "column_spacing" entries).bind toNat?
  let commentStyle ← (get? "comment_style" entries).bind toStyle?
  let alwaysShowReturnTag ← (get? "always_show_return_tag" entries).bind toBool?
  let typePlaceholder ← (get? "type_placeholder" entries).bind toText?
  let markers ← (get? "markers" entries).bind toMarkers?
  some { columnSpacing, commentStyle, alwaysShowReturnTag, typePlaceholder, markers }

def ofSettings (settings : Settings) : Value :=
  .table [("column_spacing", .integer settings.columnSpacing),
    ("comment_style", .text settings.commentStyle.name),
    ("always_show_return_tag", .flag settings.alwaysShowReturnTag),
    ("type_placeholder", .text settings.typePlaceholder),
    ("markers", .table [("open", .text settings.markers.opening),
      ("separator", .text settings.markers.separator),
      ("close", .text settings.markers.closing)])]

theorem to_settings_of_settings (settings : Settings) :
    toSettings? (ofSettings settings) = some settings := by
  obtain ⟨_, style, _, _, _⟩ := settings
  have readsBack : CommentStyle.ofName? (lower style.name) = some style := by
    cases style <;> decide
  simp [toSettings?, ofSettings, entries, get?, toNat?, toBool?, toText?, toStyle?, toMarkers?,
    readsBack]

end Value

end DocComment.Settings
