/-!
What a line declares. A symbol starts empty and is filled in word by word; one without a name or a
kind means that nothing was recognised.
-/

namespace DocComment

namespace Symbol

inductive Kind where
  | unset | classLike | function | var
  deriving DecidableEq, Repr, Inhabited

def Kind.all : List Kind := [.unset, .classLike, .function, .var]

def Kind.name : Kind → String
  | .unset => "unset"
  | .classLike => "class"
  | .function => "function"
  | .var => "variable"

def Kind.ofName? (name : String) : Option Kind := Kind.all.find? (·.name == name)

/-- One parameter. A prototype may leave out its name. -/
structure Param where
  name : String := ""
  type : Option String := none
  value : Option String := none
  deriving DecidableEq, Repr, Inhabited

def Param.isNamed (param : Param) : Bool := param.name != ""

/-- Whether a function returns something, and of which type. -/
structure Return where
  present : Bool := false
  type : Option String := none
  deriving DecidableEq, Repr, Inhabited

end Symbol

structure Symbol where
  name : String := ""
  kind : Symbol.Kind := .unset
  params : List Symbol.Param := []
  returns : Symbol.Return := {}
  varType : Option String := none
  deriving DecidableEq, Repr, Inhabited

namespace Symbol

def isRecognized (symbol : Symbol) : Bool :=
  symbol.name != "" && symbol.kind != .unset

def pushParam (symbol : Symbol) (param : Param) : Symbol :=
  { symbol with params := symbol.params ++ [param] }

/-- Changes the last parameter, the only one that may still change. -/
def modifyLastParam (change : Param → Param) (symbol : Symbol) : Symbol :=
  match symbol.params.getLast? with
  | some last => { symbol with params := symbol.params.dropLast ++ [change last] }
  | none => symbol

def dropLastParam (symbol : Symbol) : Symbol :=
  { symbol with params := symbol.params.dropLast }

/-- Makes the symbol a function; what only a variable has is dropped. -/
def toFunction (returns : Bool) (symbol : Symbol) : Symbol :=
  { symbol with kind := .function, varType := none, returns.present := returns }

def toVariable (type : Option String) (symbol : Symbol) : Symbol :=
  { symbol with kind := .var, params := [], returns := {}, varType := type }

end Symbol

end DocComment
