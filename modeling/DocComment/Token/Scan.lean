import DocComment.Token.Lexeme

/-!
A line as tokens. The longest lexeme is cut off the front until nothing is left; a front without a
lexeme ends the scan with an error that says where it stands and what was read of it.
-/

namespace DocComment.Token

/-- The text that could not be read and the byte where it starts. -/
structure ScanError where
  text : String
  position : Nat
  deriving DecidableEq, Repr, Inhabited

def ScanError.message (error : ScanError) : String :=
  "cannot tokenize `" ++ error.text ++ "` at byte " ++ toString error.position

def scanFrom (position : Nat) (cs : List Char) : Except ScanError (List Token) :=
  match _found : lexeme? cs with
  | some (kind, count) =>
      let token := startingAt position kind (String.ofList (cs.take count))
      (scanFrom token.span.stop (cs.drop count)).map (token :: ·)
  | none =>
      match cs with
      | [] => .ok []
      | _ :: _ => .error ⟨String.ofList (cs.take (unreadable cs)), position⟩
termination_by cs.length
decreasing_by
  have positive := lexeme_positive _found
  cases cs with
  | nil => simp [lexeme?] at _found
  | cons c cs => simp only [List.length_drop, List.length_cons]; omega

/-- Every token of a line, white space and comments included. -/
def scan (line : String) : Except ScanError (List Token) :=
  scanFrom 0 line.toList

/-- The tokens that carry meaning. -/
def significant (tokens : List Token) : List Token :=
  tokens.filter fun token => !token.kind.isTrivia

def scanSignificant (line : String) : Except ScanError (List Token) :=
  (scan line).map significant

end DocComment.Token
