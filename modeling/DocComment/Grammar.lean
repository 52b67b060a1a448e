import DocComment.Token.Basic

/-!
The vocabulary of one language: which words introduce a declaration, modify one, name a built-in
type or never name anything, and how a name is spelled. Words count exactly as written, in their
own case.
-/

namespace DocComment

namespace Grammar

inductive Property where
  | classWord | functionWord | identifier | modifier | variableWord | builtinType | reserved
  deriving DecidableEq, Repr, Inhabited

namespace Property

def all : List Property :=
  [.classWord, .functionWord, .identifier, .modifier, .variableWord, .builtinType, .reserved]

def name : Property → String
  | .classWord => "class"
  | .functionWord => "function"
  | .identifier => "identifier"
  | .modifier => "modifiers"
  | .variableWord => "variables"
  | .builtinType => "types"
  | .reserved => "reserved"

def ofName? (name : String) : Option Property := all.find? (·.name == name)

end Property

end Grammar

structure Grammar where
  /-- Words that introduce a class. -/
  classWords : List String
  /-- Words that introduce a function. -/
  functionWords : List String
  /-- How a name is spelled. -/
  isIdentifier : String → Bool
  /-- Words ahead of a declaration that can be skipped. -/
  modifiers : List String
  /-- Words that introduce a variable. -/
  variableWords : List String
  /-- Built-in types. -/
  types : List String
  /-- Words that never name a declaration. -/
  reserved : List String

namespace Grammar

def has (grammar : Grammar) (text : String) : Property → Bool
  | .classWord => grammar.classWords.contains text
  | .functionWord => grammar.functionWords.contains text
  | .identifier => grammar.isIdentifier text
  | .modifier => grammar.modifiers.contains text
  | .variableWord => grammar.variableWords.contains text
  | .builtinType => grammar.types.contains text
  | .reserved => grammar.reserved.contains text

/-- The token is a word and has the property. -/
def admits (grammar : Grammar) (token : Token) (property : Property) : Bool :=
  token.kind.isWord && grammar.has token.text property

/-- The text is one of the grammar's words other than its types. -/
def isKeyword (grammar : Grammar) (text : String) : Bool :=
  grammar.classWords.contains text || grammar.functionWords.contains text ||
    grammar.modifiers.contains text || grammar.variableWords.contains text ||
    grammar.reserved.contains text

/-- The token can name a declaration. -/
def isName (grammar : Grammar) (token : Token) : Bool :=
  token.kind.isWord && grammar.isIdentifier token.text && !grammar.isKeyword token.text &&
    !grammar.types.contains token.text

end Grammar

namespace Spelling

def isLetter (c : Char) : Bool := c.isAlpha || c == '_'

def isLetterOrDigit (c : Char) : Bool := c.isAlphanum || c == '_'

def startsThen (start more : Char → Bool) : List Char → Bool
  | [] => false
  | c :: cs => start c && cs.all more

/-- Letters, digits and underscores, no digit first. -/
def plain (text : String) : Bool :=
  startsThen isLetter isLetterOrDigit text.toList

def withDollar (text : String) : Bool :=
  startsThen (fun c => isLetter c || c == '$') (fun c => isLetterOrDigit c || c == '$') text.toList

def sigiled (text : String) : Bool :=
  match text.toList with
  | '$' :: cs => startsThen isLetter isLetterOrDigit cs
  | _ => false

/-- Hyphens are letters, and one dollar sign may come first. -/
def hyphenated (text : String) : Bool :=
  let name := startsThen (fun c => isLetter c || c == '-') (fun c => isLetterOrDigit c || c == '-')
  match text.toList with
  | '$' :: cs => name cs
  | cs => name cs

/-- Plain names with one backslash between them; `fresh` says that a name has to start here. -/
def segments (fresh : Bool) : List Char → Bool
  | [] => !fresh
  | c :: cs =>
      if fresh then isLetter c && segments false cs
      else if c = '\\' then segments true cs
      else isLetterOrDigit c && segments false cs

def qualified (text : String) : Bool :=
  match text.toList with
  | '\\' :: cs => segments true cs
  | cs => segments true cs

end Spelling

end DocComment
