/-!
Tokens of a declaration line: what kind each is, how it is spelled and where it stands.
-/

namespace DocComment

namespace Token

inductive Kind where
  | whitespace | lineComment | blockComment
  | identifier | number | string | hash
  | openParen | closeParen | openBracket | closeBracket | openBrace | closeBrace
  | lessThan | greaterThan
  | colon | doubleColon | semicolon | comma | dot | ellipsis
  | assign | fatArrow | thinArrow | star | ampersand | question | pipe | operator
  deriving DecidableEq, Repr, Inhabited

namespace Kind

def all : List Kind :=
  [.whitespace, .lineComment, .blockComment, .identifier, .number, .string, .hash,
   .openParen, .closeParen, .openBracket, .closeBracket, .openBrace, .closeBrace,
   .lessThan, .greaterThan, .colon, .doubleColon, .semicolon, .comma, .dot, .ellipsis,
   .assign, .fatArrow, .thinArrow, .star, .ampersand, .question, .pipe, .operator]

theorem mem_all (kind : Kind) : kind ∈ all := by
  cases kind <;> decide

def name : Kind → String
  | .whitespace => "whitespace"
  | .lineComment => "line-comment"
  | .blockComment => "block-comment"
  | .identifier => "identifier"
  | .number => "number"
  | .string => "string"
  | .hash => "hash"
  | .openParen => "open-paren"
  | .closeParen => "close-paren"
  | .openBracket => "open-bracket"
  | .closeBracket => "close-bracket"
  | .openBrace => "open-brace"
  | .closeBrace => "close-brace"
  | .lessThan => "less-than"
  | .greaterThan => "greater-than"
  | .colon => "colon"
  | .doubleColon => "double-colon"
  | .semicolon => "semicolon"
  | .comma => "comma"
  | .dot => "dot"
  | .ellipsis => "ellipsis"
  | .assign => "assign"
  | .fatArrow => "fat-arrow"
  | .thinArrow => "thin-arrow"
  | .star => "star"
  | .ampersand => "ampersand"
  | .question => "question"
  | .pipe => "pipe"
  | .operator => "operator"

/-- The words for a kind in listings made for people. -/
def label : Kind → String
  | .lineComment => "line comment"
  | .blockComment => "block comment"
  | .openParen => "open parenthesis"
  | .closeParen => "close parenthesis"
  | .openBracket => "open square bracket"
  | .closeBracket => "close square bracket"
  | .openBrace => "open curly brace"
  | .closeBrace => "close curly brace"
  | .lessThan => "less than"
  | .greaterThan => "greater than"
  | .doubleColon => "double colon"
  | .assign => "assignment"
  | .fatArrow => "fat arrow"
  | .thinArrow => "thin arrow"
  | .question => "question mark"
  | kind => kind.name

def ofName? (name : String) : Option Kind := all.find? (·.name == name)

theorem of_name_name (kind : Kind) : ofName? kind.name = some kind := by
  cases kind <;> decide

/-- Tokens that mean nothing for recognition. -/
def isTrivia : Kind → Bool
  | .whitespace | .lineComment | .blockComment => true
  | _ => false

def isWord : Kind → Bool
  | .identifier => true
  | _ => false

end Kind

/-- A half-open range of byte offsets. -/
structure Span where
  start : Nat
  stop : Nat
  deriving DecidableEq, Repr, Inhabited

end Token

structure Token where
  kind : Token.Kind
  text : String
  span : Token.Span
  deriving DecidableEq, Repr, Inhabited

namespace Token

def startingAt (start : Nat) (kind : Kind) (text : String) : Token :=
  ⟨kind, text, ⟨start, start + text.utf8ByteSize⟩⟩

def layOut (start : Nat) : List (Kind × String) → List Token
  | [] => []
  | (kind, text) :: rest =>
      let token := startingAt start kind text
      token :: layOut token.span.stop rest

/-- The token is a bare word spelled like this. -/
def isWord (token : Token) (text : String) : Bool :=
  token.kind.isWord && token.text == text

def shown (token : Token) : String :=
  "<" ++ token.kind.label ++ ":" ++ token.text ++ ">"

end Token

end DocComment
