import DocComment.Symbol
import DocComment.Token.Basic

/-!
Data as it is dumped: texts, numbers and truth values in lists and records. A symbol and a token each
have one such form, in which a part that is absent is left out.
-/

namespace DocComment

inductive Node where
  | text (value : String)
  | number (value : Nat)
  | flag (value : Bool)
  | list (items : List Node)
  | record (fields : List (String × Node))
  deriving Repr, Inhabited

namespace Node

/-- A field that is left out when there is nothing to say. -/
def optional (name : String) (value : Option String) : List (String × Node) :=
  match value with
  | some value => [(name, .text value)]
  | none => []

end Node

def Symbol.Param.node (param : Symbol.Param) : Node :=
  .record ([("name", .text param.name)] ++ Node.optional "type" param.type ++
    Node.optional "value" param.value)

def Symbol.Return.node (returns : Symbol.Return) : Node :=
  .record ([("present", .flag returns.present)] ++ Node.optional "type" returns.type)

def Symbol.node (symbol : Symbol) : Node :=
  .record ([("name", .text symbol.name), ("kind", .text symbol.kind.name),
    ("params", .list (symbol.params.map (·.node))), ("return", symbol.returns.node)] ++
    Node.optional "var_type" symbol.varType)

def Token.Span.node (span : Token.Span) : Node :=
  .record [("start", .number span.start), ("end", .number span.stop)]

def Token.node (token : Token) : Node :=
  .record [("kind", .text token.kind.name), ("text", .text token.text), ("span", token.span.node)]

end DocComment
