import DocComment.Number.Decimal
import DocComment.Text.Ending

/-!
The words of a command line. A word that starts with a hyphen is an option, unless two bare hyphens
came before it. A value stands behind an equals sign, in the next word or, for a letter, right behind
it. Letters can be written together, the last of them with its value. Nothing may be given twice, and
the first fault ends the reading.
-/

namespace DocComment.CommandLine

/-- A whole number with or without a sign, from zero to the greatest of 32 bits. -/
def count? (text : String) : Option Nat :=
  let (negative, digits) := Decimal.sign text.toList
  (Decimal.natural? 10 digits).filter fun value =>
    value < Nat.pow 2 32 && (!negative || value == 0)

inductive Operand where
  | nothing | text | count
  deriving DecidableEq, Repr, Inhabited

def Operand.admits : Operand → String → Bool
  | .nothing, _ => false
  | .text, _ => true
  | .count, value => (count? value).isSome

structure OptionRule where
  name : String
  letter : Option Char := none
  operand : Operand := .nothing
  deriving DecidableEq, Repr, Inhabited

def OptionRule.takesValue (rule : OptionRule) : Bool := rule.operand != .nothing

inductive Stop where
  | misuse | version | help
  deriving DecidableEq, Repr, Inhabited

structure Given where
  flags : List String := []
  values : List (String × String) := []
  words : List String := []
  deriving DecidableEq, Repr, Inhabited

namespace Given

def value? (given : Given) (name : String) : Option String :=
  (given.values.find? fun (known, _) => known == name).map (·.2)

def withFlag (given : Given) (name : String) : Except Stop Given :=
  if name = "help" then .error .help
  else if name = "version" then .error .version
  else if given.flags.contains name then .error .misuse
  else .ok { given with flags := name :: given.flags }

def withValue (given : Given) (rule : OptionRule) (value : String) : Except Stop Given :=
  if (given.value? rule.name).isSome || !rule.operand.admits value then .error .misuse
  else .ok { given with values := (rule.name, value) :: given.values }

/-- Words that are no options, as many as `limit` in all. -/
def withWords (limit : Nat) (given : Given) (words : List String) : Except Stop Given :=
  let all := given.words ++ words
  if limit < all.length then .error .misuse else .ok { given with words := all }

end Given

abbrev Progress := Given × Option OptionRule

/-- An option by its name, with what stands behind the equals sign if there is one. -/
def readLong (rules : List OptionRule) (given : Given) (option : List Char) :
    Except Stop Progress :=
  let isBefore (c : Char) : Bool := c != '='
  let name := String.ofList (option.takeWhile isBefore)
  match rules.find? (·.name == name), option.dropWhile isBefore with
  | none, _ => .error .misuse
  | some rule, [] =>
      if rule.takesValue then .ok (given, some rule)
      else (given.withFlag name).map (·, none)
  | some rule, _ :: value =>
      if rule.takesValue then (given.withValue rule (String.ofList value)).map (·, none)
      else .error .misuse

def readShort (rules : List OptionRule) (given : Given) : List Char → Except Stop Progress
  | [] => .ok (given, none)
  | letter :: rest =>
      match rules.find? (·.letter == some letter) with
      | none => .error .misuse
      | some rule =>
          if rule.takesValue then
            match rest with
            | [] => .ok (given, some rule)
            | '=' :: value => (given.withValue rule (String.ofList value)).map (·, none)
            | value => (given.withValue rule (String.ofList value)).map (·, none)
          else
            match given.withFlag rule.name with
            | .ok given => readShort rules given rest
            | .error stop => .error stop

def isOption (word : String) : Bool :=
  match word.toList with
  | '-' :: _ :: _ => true
  | _ => false

def readOption (rules : List OptionRule) (given : Given) (word : String) : Except Stop Progress :=
  match word.toList with
  | '-' :: '-' :: option => readLong rules given option
  | '-' :: letters => readShort rules given letters
  | _ => .error .misuse

/-- All words of a command line, where `waiting` is the option that the next word is the value of. -/
def readAll (rules : List OptionRule) (limit : Nat) (given : Given) (waiting : Option OptionRule) :
    List String → Except Stop Given
  | [] => if waiting.isSome then .error .misuse else .ok given
  | word :: rest =>
      match waiting with
      | some rule =>
          if isOption word then .error .misuse
          else
            match given.withValue rule word with
            | .ok given => readAll rules limit given none rest
            | .error stop => .error stop
      | none =>
          if word = "--" then given.withWords limit rest
          else if isOption word then
            match readOption rules given word with
            | .ok (given, waiting) => readAll rules limit given waiting rest
            | .error stop => .error stop
          else
            match given.withWords limit [word] with
            | .ok given => readAll rules limit given none rest
            | .error stop => .error stop

def readWords (rules : List OptionRule) (limit : Nat) (words : List String) : Except Stop Given :=
  readAll rules limit {} none words

end DocComment.CommandLine
