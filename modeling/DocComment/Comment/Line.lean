import DocComment.Comment.Field
import DocComment.Text.Blank
import DocComment.Text.Ending

/-!
Lines of a comment before they are written: literal text and fields, in order. Fields get their
numbers when lines are written, from one on, in the order in which they stand.
-/

namespace DocComment.Comment

inductive Piece where
  | literal (text : String)
  | field (text : String)
  deriving DecidableEq, Repr, Inhabited

abbrev Line := List Piece

namespace Piece

/-- What the reader sees of a piece once its field is stripped. -/
def plain : Piece → String
  | .literal text => text
  | .field text => text

def width (piece : Piece) : Nat := piece.plain.length

end Piece

namespace Line

def width : Line → Nat
  | [] => 0
  | piece :: rest => piece.width + width rest

/-- The line with spaces after it, one at least, up to the given width. -/
def padded (line : Line) (column : Nat) : Line :=
  line ++ [.literal (Text.spaces (max (column - line.width) 1))]

def fields : Line → Nat
  | [] => 0
  | .literal _ :: rest => fields rest
  | .field _ :: rest => fields rest + 1

/-- The line with its fields numbered from the given stop on. -/
def snippet (stop : Nat) : Line → String
  | [] => ""
  | .literal text :: rest => text ++ snippet stop rest
  | .field text :: rest => Field.written stop text ++ snippet (stop + 1) rest

end Line

def snippets (stop : Nat) : List Line → List String
  | [] => []
  | line :: rest => line.snippet stop :: snippets (stop + line.fields) rest

/-- The text of a comment: its lines without white space at their ends. -/
def written (lines : List Line) : String :=
  Text.joinWith "\n" ((snippets 1 lines).map Text.trimEnd)

end DocComment.Comment
