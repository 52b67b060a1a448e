import DocComment.Number.Binary64
import DocComment.Text.Ending

/-!
Texts as YAML scalars. A text is written plain if that reads back as the same text, else in single
quotes, else in double quotes; a text of several lines is a literal block if its lines can stand as
they are.
-/

namespace DocComment.Node.Yaml

/-- Line feed, carriage return, next line, line separator and paragraph separator. -/
def isBreak (c : Char) : Bool :=
  ['\n', '\r', '\x85', '\u2028', '\u2029'].contains c

def isPrintable (c : Char) : Bool :=
  let code := c.toNat
  code = 0x0A || (0x20 ≤ code && code ≤ 0x7E) ||
    (0xA0 ≤ code && code ≠ 0xFEFF && code ≠ 0xFFFE && code ≠ 0xFFFF)

def isGap : Option Char → Bool
  | none => true
  | some c => c == ' ' || c == '\t' || c == '\x00' || isBreak c

/-- A number in base 16, 8 or 2 that fits 128 bits, one of them for the sign. -/
def isRadixNumeral (cs : List Char) : Bool :=
  let (negative, unsigned) := Decimal.sign cs
  let limit := if negative then Nat.pow 2 127 + 1 else Nat.pow 2 128
  let fits (base : Nat) (digits : List Char) : Bool :=
    (Decimal.natural? base digits).any (· < limit)
  match unsigned with
  | '0' :: 'x' :: digits => fits 16 digits
  | '0' :: 'o' :: digits => fits 8 digits
  | '0' :: 'b' :: digits => fits 2 digits
  | _ => false

def isFloatNumeral (cs : List Char) : Bool :=
  (Decimal.parse? cs).any fun number => (Binary64.ofDecimal number).isFinite

/-- A zero and more digits, which is neither a number nor safe as a text. -/
def isZeroLed (cs : List Char) : Bool :=
  match (Decimal.sign cs).2 with
  | '0' :: digit :: digits => (digit :: digits).all Char.isDigit
  | _ => false

def isInfinity (cs : List Char) : Bool :=
  [".inf", ".Inf", ".INF"].contains (String.ofList (Decimal.sign cs).2)

def reservedWords : List String :=
  ["~", "null", "Null", "NULL", "true", "True", "TRUE", "false", "False", "FALSE",
   ".nan", ".NaN", ".NAN"]

/-- Read plain, the text would not be a text. -/
def isMistakable (text : String) : Bool :=
  let cs := text.toList
  text == "" || reservedWords.contains text || isRadixNumeral cs || isFloatNumeral cs ||
    isInfinity cs || isZeroLed cs

/-- Characters that end a plain scalar after its start: a colon before a gap, a hash after one. -/
def hasInnerIndicator (previous : Char) : List Char → Bool
  | [] => false
  | c :: cs =>
      (c == ':' && isGap cs.head?) || (c == '#' && isGap (some previous)) || hasInnerIndicator c cs

def hasIndicator : List Char → Bool
  | [] => false
  | c :: cs =>
      "---".toList.isPrefixOf (c :: cs) || "...".toList.isPrefixOf (c :: cs) ||
        "#,[]\x7b\x7d&*!|>'\"%@`".toList.contains c ||
        ("?:-".toList.contains c && isGap cs.head?) || hasInnerIndicator c cs

def hasNeighbours (first second : Char → Bool) : List Char → Bool
  | c :: d :: cs => (first c && second d) || hasNeighbours first second (d :: cs)
  | _ => false

def isSpace (c : Char) : Bool := c == ' '

def hasSpaceBeforeBreak (cs : List Char) : Bool := hasNeighbours isSpace isBreak cs

def hasSpaceAfterBreak (cs : List Char) : Bool := hasNeighbours isBreak isSpace cs

def allowsPlain (cs : List Char) : Bool :=
  let isEdge (c : Option Char) : Bool := c.any isSpace
  !isEdge cs.head? && !isEdge cs.getLast? && cs.all isPrintable && !cs.any isBreak &&
    !hasIndicator cs

def allowsSingleQuotes (cs : List Char) : Bool :=
  cs.all isPrintable && !hasSpaceBeforeBreak cs && !hasSpaceAfterBreak cs

def allowsLiteral (cs : List Char) : Bool :=
  cs.all isPrintable && !hasSpaceBeforeBreak cs && !cs.getLast?.any isSpace

inductive Style where
  | plain | singleQuoted | doubleQuoted | literal
  deriving DecidableEq, Repr, Inhabited

def style (text : String) : Style :=
  let cs := text.toList
  if cs.contains '\n' then if allowsLiteral cs then .literal else .doubleQuoted
  else if !isMistakable text && allowsPlain cs then .plain
  else if allowsSingleQuotes cs then .singleQuoted
  else .doubleQuoted

/-- The indent that has to follow a line break. -/
def indentAfter (afterBreak : Bool) (indent : Nat) : List Char :=
  if afterBreak then List.replicate indent ' ' else []

/-- Characters with the indent in front of each line, `afterBreak` saying that one starts here. -/
def indented (indent : Nat) (afterBreak : Bool) : List Char → List Char
  | [] => []
  | c :: cs =>
      if isBreak c then c :: indented indent true cs
      else indentAfter afterBreak indent ++ c :: indented indent false cs

def singleQuoted (indent : Nat) (cs : List Char) : List Char :=
  let doubled := cs.flatMap fun c => if c = '\x27' then [c, c] else [c]
  '\x27' :: indented indent false doubled ++
    indentAfter (cs.getLast?.any isBreak) indent ++ ['\x27']

def hex (width value : Nat) : List Char :=
  let digits := (Nat.toDigits 16 value).map Char.toUpper
  List.replicate (width - digits.length) '0' ++ digits

def namedEscapes : List (Char × Char) :=
  [('\x00', '0'), ('\x07', 'a'), ('\x08', 'b'), ('\t', 't'), ('\n', 'n'), ('\x0b', 'v'),
   ('\x0c', 'f'), ('\r', 'r'), ('\x1b', 'e'), ('\x22', '\x22'), ('\\', '\\'), ('\x85', 'N'),
   ('\u2028', 'L'), ('\u2029', 'P')]

def doubleQuotedChar (c : Char) : List Char :=
  match namedEscapes.find? fun (known, _) => known == c with
  | some (_, letter) => ['\\', letter]
  | none =>
      if isPrintable c then [c]
      else if c.toNat ≤ 0xFF then '\\' :: 'x' :: hex 2 c.toNat
      else if c.toNat ≤ 0xFFFF then '\\' :: 'u' :: hex 4 c.toNat
      else '\\' :: 'U' :: hex 8 c.toNat

def doubleQuoted (cs : List Char) : List Char :=
  '\x22' :: cs.flatMap doubleQuotedChar ++ ['\x22']

/-- The marks behind the bar of a literal block: the indent if the text does not show it, and
whether the line break at the end is none, one or many. -/
def literalMarks (cs : List Char) : List Char :=
  let indentMark := if cs.head?.any fun c => isSpace c || isBreak c then ['2'] else []
  let endMark := match cs.reverse with
    | [] => ['-']
    | [last] => if isBreak last then ['+'] else ['-']
    | last :: before :: _ =>
        if !isBreak last then ['-'] else if isBreak before then ['+'] else []
  indentMark ++ endMark

def literal (indent : Nat) (cs : List Char) : List Char :=
  let ending := if cs.getLast?.any isBreak then [] else ['\n']
  '|' :: literalMarks cs ++ '\n' :: indented indent true cs ++ ending

/-- The scalar and the line break after it; further lines stand behind the given indent. -/
def scalar (indent : Nat) (text : String) : String :=
  let cs := text.toList
  String.ofList <| match style text with
    | .plain => cs ++ ['\n']
    | .singleQuoted => singleQuoted indent cs ++ ['\n']
    | .doubleQuoted => doubleQuoted cs ++ ['\n']
    | .literal => literal indent cs

end DocComment.Node.Yaml
