import DocComment.Grammar
import DocComment.Token.Scan

/-!
What can go wrong, and how it is told.
-/

namespace DocComment

inductive FormatError where
  /-- The text names no stage and format. -/
  | unknown (text : String)
  /-- Stage and format do not go together. -/
  | inapplicable (text stage : String)
  /-- The format is one of comments and something else is to be written. -/
  | commentOnly (format : String)
  deriving DecidableEq, Repr, Inhabited

def FormatError.message : FormatError → String
  | .unknown text => "invalid format: " ++ text
  | .inapplicable text stage =>
      "invalid format: format '" ++ text ++ "' does not apply to the " ++ stage ++ " stage"
  | .commentOnly format =>
      "invalid format: " ++ format ++ " output only works with the comment stage"

inductive Error where
  | scan (cause : Token.ScanError)
  | format (cause : FormatError)
  | unsupportedLanguage (id : String)
  | unknownProperty (name : String)
  | settings
  deriving DecidableEq, Repr, Inhabited

def Error.message : Error → String
  | .scan cause => cause.message
  | .format cause => cause.message
  | .unsupportedLanguage id => "unsupported language `" ++ id ++ "`"
  | .unknownProperty name => "unknown grammar property `" ++ name ++ "`"
  | .settings => "configuration error"

def Grammar.Property.named (name : String) : Except Error Grammar.Property :=
  match Grammar.Property.ofName? name with
  | some property => .ok property
  | none => .error (.unknownProperty name)

end DocComment
