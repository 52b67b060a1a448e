import DocComment.Declaration.Reading
import DocComment.Text.Ending

/-!
Types as text, put together token by token. The first word starts a type and punctuation extends it,
so that `Array<number>` is one text however many tokens it takes. A type is open while it ends in
something that needs a continuation: an open type takes the next word and a closed one does not,
which tells `String name` from `String.Name`.
-/

namespace DocComment.TypeText

/-- The type has to go on. -/
def isOpen (type : String) : Bool :=
  match Text.lastChar? type with
  | none => true
  | some c => ['<', '|', '.', ' ', '?', ':'].contains c && !Text.endsIn type "..."

/-- What a token adds to a type, and how many angle brackets are open after it; nothing if the token
does not belong to the type. -/
def addition? (type : String) (depth : Nat) (token : Token) : Option (String × Nat) :=
  match token.kind with
  | .identifier => if isOpen type then some (token.text, depth) else none
  | .question => if type = "" then some ("?", depth) else none
  | .lessThan => if isOpen type then none else some ("<", depth + 1)
  | .greaterThan => if 0 < depth then some (">", depth - 1) else none
  | .comma => if 0 < depth then some (", ", depth) else none
  | .openBracket => if isOpen type then none else some ("[]", depth)
  | .closeBracket => if Text.endsIn type "[]" then some ("", depth) else none
  | .pipe => if isOpen type then none else some ("|", depth)
  | .dot => if isOpen type then none else some (".", depth)
  | .doubleColon => if isOpen type then none else some ("::", depth)
  | .ellipsis => if isOpen type then none else some ("...", depth)
  | _ => none

def extend? (type : Option String) (depth : Nat) (token : Token) : Option (String × Nat) :=
  let spelled := type.getD ""
  (addition? spelled depth token).map fun (added, depth) => (spelled ++ added, depth)

/-- The reading with the token added to the return type. A function that returns `void` returns
nothing. -/
def extendReturn? (reading : Reading) (token : Token) : Option Reading :=
  (extend? reading.symbol.returns.type reading.expects.genericDepth token).map
    fun (type, depth) =>
      { symbol := { reading.symbol with returns := { present := type != "void", type := some type } }
        expects := { reading.expects with genericDepth := depth } }

def extendVariable? (reading : Reading) (token : Token) : Option Reading :=
  (extend? reading.symbol.varType reading.expects.genericDepth token).map
    fun (type, depth) =>
      { symbol := { reading.symbol with varType := some type }
        expects := { reading.expects with genericDepth := depth } }

def extendPending? (reading : Reading) (token : Token) : Option Reading :=
  (extend? reading.expects.pendingType reading.expects.genericDepth token).map
    fun (type, depth) =>
      { reading with expects.pendingType := some type, expects.genericDepth := depth }

def extendLastParam? (reading : Reading) (token : Token) : Option Reading :=
  reading.symbol.params.getLast?.bind fun last =>
    (extend? last.type reading.expects.genericDepth token).map fun (type, depth) =>
      { symbol := reading.symbol.modifyLastParam fun param => { param with type := some type }
        expects := { reading.expects with genericDepth := depth } }

/-- An array of the type, unless it is one already. -/
def toArray (type : String) : String :=
  if Text.endsIn type "[]" then type else type ++ "[]"

end DocComment.TypeText
