/-!
What the reader of comments wants them to look like.
-/

namespace DocComment

inductive CommentStyle where
  /-- Tag, type, name and description in columns of one line. -/
  | aligned
  /-- The description on a line of its own. -/
  | wrapped
  deriving DecidableEq, Repr, Inhabited

namespace CommentStyle

def name : CommentStyle → String
  | .aligned => "default"
  | .wrapped => "drupal"

def names : List (String × CommentStyle) :=
  [("default", .aligned), ("drupal", .wrapped), ("alternate", .wrapped)]

def ofName? (name : String) : Option CommentStyle :=
  (names.find? fun (known, _) => known == name).map (·.2)

end CommentStyle

structure Markers where
  opening : String := "/**"
  /-- Stands in front of every line between the first and the last. -/
  separator : String := " * "
  closing : String := " */"
  deriving DecidableEq, Repr, Inhabited

structure Settings where
  columnSpacing : Nat := 2
  commentStyle : CommentStyle := .aligned
  /-- Show the return tag even if the type is not known. -/
  alwaysShowReturnTag : Bool := true
  /-- Stands where a type is not known. -/
  typePlaceholder : String := "[type]"
  markers : Markers := {}
  deriving DecidableEq, Repr, Inhabited

/-- The gap between columns, one space at least. -/
def Settings.gap (settings : Settings) : Nat := max settings.columnSpacing 1

end DocComment
