import DocComment.Symbol
import DocComment.Token.Basic

/-!
The state of reading one line: the symbol so far and what is expected next. Every rule takes a
reading and a token to a reading.
-/

namespace DocComment

structure Expectations where
  /-- Nothing that follows matters. -/
  done : Bool := false
  /-- The next name is the symbol's. -/
  name : Bool := false
  /-- Tokens belong to the parameter list. -/
  parameter : Bool := false
  /-- Tokens belong to the type of the last parameter. -/
  parameterType : Bool := false
  /-- Tokens belong to the return type. -/
  returnType : Bool := false
  /-- Tokens belong to the type of the variable. -/
  variableType : Bool := false
  /-- Tokens belong to a value. -/
  value : Bool := false
  /-- The parameter list has been closed. -/
  listClosed : Bool := false
  /-- Angle brackets open in the type being read. -/
  genericDepth : Nat := 0
  /-- Brackets open in the value being read. -/
  nesting : Nat := 0
  /-- Brackets open in a destructuring pattern. -/
  patternDepth : Nat := 0
  /-- A parameter type that still waits for its name. -/
  pendingType : Option String := none
  /-- The list counts as one of arrow parameters until an arrow confirms it. -/
  tentativeArrow : Bool := false
  /-- The variable's type, set aside while the arrow is tentative. -/
  heldType : Option String := none
  /-- A modifier that names a method if a parameter list follows. -/
  heldName : Option String := none
  /-- The kind of the token before. -/
  previous : Option Token.Kind := none
  deriving DecidableEq, Repr, Inhabited

namespace Expectations

def openList (expects : Expectations) : Expectations :=
  { expects with parameter := true, name := false, value := false }

/-- Forgets what belongs to one parameter only. -/
def nextParameter (expects : Expectations) : Expectations :=
  { expects with
    parameterType := false, value := false, genericDepth := 0, nesting := 0, pendingType := none }

def closeList (expects : Expectations) : Expectations :=
  { expects.nextParameter with parameter := false, listClosed := true }

def inList (expects : Expectations) : Bool :=
  expects.parameter && !expects.listClosed

def follows (expects : Expectations) (kind : Token.Kind) : Bool :=
  expects.previous == some kind

end Expectations

structure Reading where
  symbol : Symbol := {}
  expects : Expectations := {}
  deriving DecidableEq, Repr, Inhabited

namespace Reading

def mapSymbol (reading : Reading) (change : Symbol → Symbol) : Reading :=
  { reading with symbol := change reading.symbol }

def mapExpects (reading : Reading) (change : Expectations → Expectations) : Reading :=
  { reading with expects := change reading.expects }

def finished (reading : Reading) : Reading :=
  { reading with expects.done := true }

def named (reading : Reading) (name : String) : Reading :=
  { reading with symbol.name := name }

end Reading

end DocComment
