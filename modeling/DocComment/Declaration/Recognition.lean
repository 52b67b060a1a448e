import DocComment.Declaration.Annotation
import DocComment.Declaration.AtRule
import DocComment.Declaration.NameFirst
import DocComment.Declaration.Sigil
import DocComment.Declaration.TypeFirst
import DocComment.Token.Scan

/-!
From a line to its symbol. Each token passes four rules in a fixed order: classes, functions,
parameters, variables. The order settles ties: a class ends the reading once it has its name, and the
rule for functions comes before the one for variables, so that a name in front of a parenthesis is
not left a variable.
-/

namespace DocComment.Language

def typeFirstRules : Language → TypeFirst.Rules
  | .c => { declarators := true, postfixArrays := true }
  | _ => {}

/-- The line as it is scanned. -/
def prepare : Language → String → String
  | .java, line => Annotation.removed line
  | .scss, line => AtRule.withoutAtSigns line
  | _, line => line

def isDeclaredName (language : Language) (token : Token) : Bool :=
  match language with
  | .php => Sigil.isDeclaredName token
  | _ => language.grammar.isName token

def classRule (language : Language) (reading : Reading) (token : Token) : Reading :=
  if reading.symbol.kind == .unset && language.grammar.admits token .classWord then
    { reading with symbol.kind := .classLike, expects.name := true }
  else if reading.symbol.kind == .classLike && reading.expects.name &&
      language.isDeclaredName token then
    { reading.named token.text with expects.name := false, expects.done := true }
  else reading

def functionRule : Language → Reading → Token → Reading
  | .c | .java => TypeFirst.function
  | .javascript => NameFirst.function
  | .php => Sigil.function
  | .scss => AtRule.function

def parameterRule (language : Language) : Reading → Token → Reading :=
  match language with
  | .c | .java => TypeFirst.parameters language.grammar language.typeFirstRules
  | .javascript => NameFirst.parameters
  | .php => Sigil.parameters
  | .scss => AtRule.parameters

def variableRule (language : Language) : Reading → Token → Reading :=
  match language with
  | .c | .java => TypeFirst.variableRule language.grammar language.typeFirstRules
  | .javascript => NameFirst.variableRule
  | .php => Sigil.variableRule
  | .scss => AtRule.variableRule

def step (language : Language) (reading : Reading) (token : Token) : Reading :=
  let afterClass := language.classRule reading token
  let afterFunction := language.functionRule afterClass token
  let afterParameters := language.parameterRule afterFunction token
  let afterVariable := language.variableRule afterParameters token
  { afterVariable with expects.previous := some token.kind }

/-- A reading that is done ignores what follows. -/
def stepUnlessDone (language : Language) (reading : Reading) (token : Token) : Reading :=
  if reading.expects.done then reading else language.step reading token

def finish : Language → Reading → Reading
  | .javascript, reading => NameFirst.finish reading
  | _, reading => reading

def recognize (language : Language) (tokens : List Token) : Symbol :=
  (language.finish (tokens.foldl language.stepUnlessDone {})).symbol

def tokens (language : Language) (line : String) : Except Token.ScanError (List Token) :=
  Token.scanSignificant (language.prepare line)

def parse (language : Language) (line : String) : Except Token.ScanError Symbol :=
  (language.tokens line).map language.recognize

end DocComment.Language

namespace DocComment.TypeFirst

/-- The reading after one more token when only the rules for types ahead of names apply. -/
def step (grammar : Grammar) (rules : Rules) (reading : Reading) (token : Token) : Reading :=
  let afterFunction := function reading token
  let afterParameters := parameters grammar rules afterFunction token
  let afterVariable := variableRule grammar rules afterParameters token
  { afterVariable with expects.previous := some token.kind }

end DocComment.TypeFirst
