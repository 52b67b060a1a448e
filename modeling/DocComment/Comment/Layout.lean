import DocComment.Comment.Line
import DocComment.Language.Basic
import DocComment.Settings.Basic
import DocComment.Symbol

/-!
The comment for a symbol. It has up to three sections: a description, the parameters or the type of
a variable, and the return. Columns are measured on what the reader sees, before fields are written,
so that the plain view lines up.
-/

namespace DocComment.Comment

structure Layout where
  settings : Settings
  language : Language

namespace Layout

def showsReturn (layout : Layout) (symbol : Symbol) : Bool :=
  symbol.returns.present &&
    (layout.settings.alwaysShowReturnTag || symbol.returns.type.isSome)

def typeText (layout : Layout) (type : Option String) : String :=
  type.getD layout.settings.typePlaceholder

def paramName (param : Symbol.Param) : String :=
  if param.isNamed then param.name else "[name]"

def paramDescription (param : Symbol.Param) : String :=
  if param.isNamed then "[" ++ param.name ++ " description]" else "[description]"

def returnDescription : String := "[return description]"

def braced (type : String) : Line := [.literal "\x7b", .field type, .literal "\x7d"]

/-- The widths of the columns in front of the descriptions, gaps included. -/
structure Columns where
  tag : Nat
  type : Nat
  name : Nat
  deriving DecidableEq, Repr, Inhabited

def longest (texts : List String) : Nat := (texts.map String.length).foldl max 0

def columns (layout : Layout) (symbol : Symbol) : Columns :=
  let gap := layout.settings.gap
  let params := symbol.params
  let shown := layout.showsReturn symbol
  let tags := (if params.isEmpty then [] else [layout.language.paramTag]) ++
    (if shown then [layout.language.returnTag] else [])
  let types := params.map (fun param => layout.typeText param.type) ++
    (if shown then [layout.typeText symbol.returns.type] else [])
  { tag := longest tags + gap
    type := longest types + 2 + gap
    name := if params.isEmpty then 0 else longest (params.map paramName) + gap }

def alignedParam (layout : Layout) (columns : Columns) (param : Symbol.Param) : Line :=
  Line.padded [.literal layout.language.paramTag] columns.tag ++
    Line.padded (braced (layout.typeText param.type)) columns.type ++
    Line.padded [.field (paramName param)] columns.name ++
    [.field (paramDescription param)]

def alignedReturn (layout : Layout) (columns : Columns) (returns : Symbol.Return) : Line :=
  Line.padded [.literal layout.language.returnTag] columns.tag ++
    Line.padded (braced (layout.typeText returns.type)) (columns.type + columns.name) ++
    [.field returnDescription]

def wrappedParam (layout : Layout) (param : Symbol.Param) : List Line :=
  [[.literal (layout.language.paramTag ++ " "), .field (layout.typeText param.type), .literal " ",
     .field (paramName param)],
   [.literal "  ", .field (paramDescription param)]]

def wrappedReturn (layout : Layout) (returns : Symbol.Return) : List Line :=
  [[.literal (layout.language.returnTag ++ " "), .field (layout.typeText returns.type)],
   [.literal "  ", .field returnDescription]]

def paramLines (layout : Layout) (symbol : Symbol) : List Line :=
  match layout.settings.commentStyle with
  | .aligned => symbol.params.map (layout.alignedParam (layout.columns symbol))
  | .wrapped => symbol.params.flatMap layout.wrappedParam

def returnLines (layout : Layout) (symbol : Symbol) : List Line :=
  if layout.showsReturn symbol then
    match layout.settings.commentStyle with
    | .aligned => [layout.alignedReturn (layout.columns symbol) symbol.returns]
    | .wrapped => layout.wrappedReturn symbol.returns
  else []

def variableLines (layout : Layout) (symbol : Symbol) : List Line :=
  let tag := layout.language.varTag
  let type := layout.typeText symbol.varType
  match layout.settings.commentStyle with
  | .aligned => [.literal (tag ++ Text.spaces layout.settings.gap) :: braced type]
  | .wrapped => [[.literal (tag ++ " "), .field type]]

def sections (layout : Layout) (symbol : Symbol) : List (List Line) :=
  let description : List Line := [[.field ("[" ++ symbol.name ++ " description]")]]
  match symbol.kind with
  | .function => [description, layout.paramLines symbol, layout.returnLines symbol]
  | .var => [description, layout.variableLines symbol]
  | .classLike | .unset => [description]

def joinSections (between : Line) : List (List Line) → List Line
  | [] => []
  | [lines] => lines
  | lines :: rest => lines ++ between :: joinSections between rest

def framed (layout : Layout) (body : List Line) : List Line :=
  let markers := layout.settings.markers
  [.literal markers.opening] :: body ++ [[.literal markers.closing]]

def lines (layout : Layout) (symbol : Symbol) : List Line :=
  let separator : Piece := .literal layout.settings.markers.separator
  if symbol.isRecognized then
    let filled := (layout.sections symbol).filter fun lines => !lines.isEmpty
    layout.framed (joinSections [separator] (filled.map (·.map (separator :: ·))))
  else layout.framed [[separator]]

/-- The comment for a symbol, as a snippet. -/
def render (layout : Layout) (symbol : Symbol) : String := written (layout.lines symbol)

/-- The comment when nothing was recognised. -/
def emptyBlock (layout : Layout) : String := layout.render {}

end Layout

end DocComment.Comment
