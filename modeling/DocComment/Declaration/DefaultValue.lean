import DocComment.Declaration.Reading
import DocComment.Text.Ending

/-!
Default values, collected token by token up to a comma or a closing bracket of the parameter list.
-/

namespace DocComment.DefaultValue

def isWordChar (c : Char) : Bool :=
  c.isAlphanum || c == '_' || c == '$'

/-- The value with more source text; a space keeps two words apart. -/
def append (value : Option String) (text : String) : String :=
  let written := value.getD ""
  if (Text.lastChar? written).any isWordChar && (Text.firstChar? text).any isWordChar
  then written ++ " " ++ text
  else written ++ text

/-- How many brackets are open after a token of the value; nothing if the token ends the value. -/
def nestingAfter? (nesting : Nat) : Token.Kind → Option Nat
  | .openParen | .openBracket | .openBrace => some (nesting + 1)
  | .closeParen | .closeBracket | .closeBrace => if nesting = 0 then none else some (nesting - 1)
  | .comma => if nesting = 0 then none else some nesting
  | _ => some nesting

/-- The reading with the token added to the value of the last parameter, if it belongs there. -/
def collect? (reading : Reading) (token : Token) : Option Reading :=
  (nestingAfter? reading.expects.nesting token.kind).map fun nesting =>
    { symbol := reading.symbol.modifyLastParam fun param =>
        { param with value := some (append param.value token.text) }
      expects := { reading.expects with nesting := nesting } }

/-- The reading after a token of a value that is expected; nothing if none is expected or the token
ends it. -/
def expected? (reading : Reading) (token : Token) : Option Reading :=
  if reading.expects.value then collect? reading token else none

end DocComment.DefaultValue
