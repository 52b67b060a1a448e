import DocComment.Settings.DateTime
import DocComment.Settings.Value

/-!
Settings files in TOML: names with values, one to a line, under headers that name tables. Names are
bare, quoted or dotted. Values are strings in double or single quotes, one or three at each end, whole
numbers, numbers with a fraction or an exponent, truth values, days and times, lists and inline
tables. A name may be given a value once, and a table may be opened once; a header in double brackets
adds a table to a list of them, of which the last is the one that is open. Lists and inline tables may
be nested, and dotted names may be long, only up to a limit.
-/

namespace DocComment.Settings.Toml

def skipBlanks (cs : List Char) : List Char := cs.dropWhile fun c => c == ' ' || c == '\t'

def isText (c : Char) : Bool := c == '\t' || (0x20 ≤ c.toNat && c.toNat ≠ 0x7F)

def skipComment : List Char → List Char
  | '#' :: cs => cs.dropWhile isText
  | cs => cs

def lineEnd? : List Char → Option (List Char)
  | [] => some []
  | '\n' :: cs => some cs
  | '\r' :: '\n' :: cs => some cs
  | _ => none

def restOfLine? (cs : List Char) : Option (List Char) := lineEnd? (skipComment (skipBlanks cs))

/-- Blanks, comments and line ends; the fuel bounds the number of lines. -/
def skipLines : Nat → List Char → List Char
  | 0, cs => cs
  | fuel + 1, cs =>
      let rest := skipComment (skipBlanks cs)
      match rest with
      | [] => []
      | _ :: _ =>
          match lineEnd? rest with
          | some next => skipLines fuel next
          | none => rest

def codePoint? (digits : List Char) : Option Char :=
  (Decimal.natural? 16 digits).bind fun code =>
    if code.isValidChar then some (Char.ofNat code) else none

def skipSpace : List Char → List Char
  | [] => []
  | '\r' :: '\n' :: cs => skipSpace cs
  | c :: cs => if c == ' ' || c == '\t' || c == '\n' then skipSpace cs else c :: cs

/-- How many characters stand between a backslash at the end of its line and the next text. -/
def joint? (cs : List Char) : Option Nat :=
  match skipBlanks cs with
  | [] => none
  | c :: rest => (lineEnd? (c :: rest)).map fun _ => cs.length - (skipSpace cs).length

def escape? : List Char → Option (Char × Nat)
  | 'u' :: a :: b :: c :: d :: _ => (codePoint? [a, b, c, d]).map (·, 5)
  | 'U' :: a :: b :: c :: d :: e :: f :: g :: h :: _ =>
      (codePoint? [a, b, c, d, e, f, g, h]).map (·, 9)
  | c :: _ =>
      ([('b', '\x08'), ('t', '\t'), ('n', '\n'), ('f', '\x0c'), ('r', '\r'), ('\x22', '\x22'),
        ('\\', '\\')].find? fun (letter, _) => letter == c).map fun (_, meant) => (meant, 1)
  | [] => none

/-- The kinds of strings: with escapes or without, on one line or over several. -/
inductive Quoting where
  | basic
  | literal
  | basicLines
  | literalLines
  deriving DecidableEq, Repr

namespace Quoting

def escapes : Quoting → Bool
  | .basic | .basicLines => true
  | .literal | .literalLines => false

def lines : Quoting → Bool
  | .basicLines | .literalLines => true
  | .basic | .literal => false

def quote (quoting : Quoting) : Char := if quoting.escapes then '\x22' else '\x27'

def width (quoting : Quoting) : Nat := if quoting.lines then 3 else 1

def quotesAhead (quoting : Quoting) (cs : List Char) : Nat :=
  (cs.takeWhile (· == quoting.quote)).length

/-- The quotes that close a string and what follows them. Of more quotes than are needed the last ones
close it and those in front of them belong to its text; they are too few to close it themselves. -/
def closing? (quoting : Quoting) (cs : List Char) : Option (List Char × List Char) :=
  let quotes := quoting.quotesAhead cs
  let taken := min quotes (2 * quoting.width - 1)
  if quotes < quoting.width then none
  else some (List.replicate (taken - quoting.width) quoting.quote, cs.drop taken)

/-- What comes next in a text, and how many characters stand for it behind the first. Every line end
is a line feed. -/
def piece? (quoting : Quoting) : List Char → Option (List Char × Nat)
  | [] => none
  | c :: cs =>
      if quoting.escapes ∧ c = '\\' then
        ((escape? cs).map fun (meant, length) => ([meant], length)).or
          (if quoting.lines then (joint? cs).map ([], ·) else none)
      else if isText c then some ([c], 0)
      else if quoting.lines then
        (lineEnd? (c :: cs)).map fun rest => (['\n'], cs.length - rest.length)
      else none

/-- The text of a string from behind its opening quotes, without the characters at the front that were
read already, and what follows the string. -/
def text? (quoting : Quoting) : Nat → List Char → Option (List Char × List Char)
  | _, [] => none
  | read + 1, _ :: cs => quoting.text? read cs
  | 0, c :: cs =>
      match quoting.closing? (c :: cs) with
      | some closed => some closed
      | none => do
          let (meant, length) ← quoting.piece? (c :: cs)
          let (text, rest) ← quoting.text? length cs
          some (meant ++ text, rest)

end Quoting

/-- A string of any kind. A line end right behind three opening quotes is not part of the text. -/
def string? : List Char → Option (List Char × List Char)
  | '\x22' :: '\x22' :: '\x22' :: cs => Quoting.basicLines.text? 0 ((lineEnd? cs).getD cs)
  | '\x22' :: cs => Quoting.basic.text? 0 cs
  | '\x27' :: '\x27' :: '\x27' :: cs => Quoting.literalLines.text? 0 ((lineEnd? cs).getD cs)
  | '\x27' :: cs => Quoting.literal.text? 0 cs
  | _ => none

def isBare (c : Char) : Bool := c.isAlphanum || c == '_' || c == '-'

def simpleKey? : List Char → Option (String × List Char)
  | '\x22' :: cs => (Quoting.basic.text? 0 cs).map fun (text, rest) => (String.ofList text, rest)
  | '\x27' :: cs => (Quoting.literal.text? 0 cs).map fun (text, rest) => (String.ofList text, rest)
  | cs =>
      let bare := cs.takeWhile isBare
      if bare.isEmpty then none else some (String.ofList bare, cs.dropWhile isBare)

def names? : Nat → List Char → Option (List String × List Char)
  | 0, _ => none
  | fuel + 1, cs => do
      let (name, rest) ← simpleKey? (skipBlanks cs)
      match skipBlanks rest with
      | '.' :: rest =>
          let (names, rest) ← names? fuel rest
          some (name :: names, rest)
      | rest => some ([name], rest)

/-- How many names a dotted name may have and how many brackets and braces may be open at once. -/
def deepest : Nat := 79

def key? (cs : List Char) : Option (List String × List Char) :=
  (names? (cs.length + 1) cs).filter fun (names, _) => names.length ≤ deepest

def withoutUnderscores? (isDigit : Char → Bool) : List Char → Option (List Char)
  | [] => some []
  | [c] => if isDigit c then some [c] else none
  | c :: d :: cs =>
      if !isDigit c then none
      else if d = '_' then
        if cs.isEmpty then none else (withoutUnderscores? isDigit cs).map (c :: ·)
      else (withoutUnderscores? isDigit (d :: cs)).map (c :: ·)

def digits? (base : Nat) (cs : List Char) : Option Nat :=
  let isDigit (c : Char) : Bool := (Decimal.digitValue? c).any (· < base)
  (withoutUnderscores? isDigit cs).bind (Decimal.natural? base)

/-- The digits before a point: a zero stands there alone. -/
def whole? (cs : List Char) : Option (List Char) :=
  (withoutUnderscores? Char.isDigit cs).filter fun digits =>
    !digits.isEmpty && (digits.length == 1 || digits.head? != some '0')

def integer? (cs : List Char) : Option Int :=
  let inRange (value : Int) : Option Int :=
    if -(Nat.pow 2 63 : Int) ≤ value ∧ value < Nat.pow 2 63 then some value else none
  match cs with
  | '0' :: 'x' :: digits => (digits? 16 digits).bind fun value => inRange value
  | '0' :: 'o' :: digits => (digits? 8 digits).bind fun value => inRange value
  | '0' :: 'b' :: digits => (digits? 2 digits).bind fun value => inRange value
  | cs =>
      let (negative, digits) := Decimal.sign cs
      ((whole? digits).bind (Decimal.natural? 10)).bind fun value =>
        inRange (if negative then - (value : Int) else value)

def exponent? (cs : List Char) : Option Int :=
  let (negative, digits) := Decimal.sign cs
  (digits? 10 digits).map fun value => if negative then - (value : Int) else value

/-- A number with a fraction, an exponent or both. One that is too great is refused; one that is too
far below zero is minus infinity. -/
def real? (cs : List Char) : Option Binary64 := do
  let (negative, unsigned) := Decimal.sign cs
  if unsigned = "inf".toList then some (.infinite negative)
  else if unsigned = "nan".toList then some .nan
  else
    let isMark (c : Char) : Bool := c == 'e' || c == 'E'
    let mantissa := unsigned.takeWhile (!isMark ·)
    let power := unsigned.dropWhile (!isMark ·)
    let isBefore (c : Char) : Bool := c != '.'
    let whole ← whole? (mantissa.takeWhile isBefore)
    let fraction ← match mantissa.dropWhile isBefore with
      | [] => some []
      | _ :: digits => (withoutUnderscores? Char.isDigit digits).filter (!·.isEmpty)
    let exponent ← match power with
      | [] => some 0
      | _ :: digits => exponent? digits
    guard (!(fraction.isEmpty && power.isEmpty))
    let digits ← Decimal.natural? 10 (whole ++ fraction)
    let number := Binary64.ofDecimal
      { negative, digits, exponent := exponent - (fraction.length : Int) }
    guard (number != .infinite false)
    some number

def word? (cs : List Char) : Option Value :=
  if cs = "true".toList then some (.flag true)
  else if cs = "false".toList then some (.flag false)
  else ((integer? cs).map .integer).or ((real? cs).map .real)

def isWordChar (c : Char) : Bool := c.isAlphanum || c == '_' || c == '-' || c == '+' || c == '.'

/-- A value that holds no others. -/
def scalar? (cs : List Char) : Option (Value × List Char) :=
  match string? cs with
  | some (text, rest) => some (.text (String.ofList text), rest)
  | none =>
      match Moment.read? cs with
      | some (moment, rest) => some (.text (String.ofList moment.text), rest)
      | none => (word? (cs.takeWhile isWordChar)).map fun value => (value, cs.dropWhile isWordChar)

/-- How a table came to be, which decides what may be added to it. -/
inductive Origin where
  /-- Named on the way to another table. -/
  | implied
  /-- Opened by its own header. -/
  | header
  /-- Named by a dotted name. -/
  | dotted
  deriving DecidableEq, Repr, Inhabited

inductive Tree where
  | leaf (value : Value)
  | table (origin : Origin) (entries : List (String × Tree))
  /-- A list of tables, the last of them still open. -/
  | tables (closed : List Value) (last : List (String × Tree))
  deriving Inhabited

namespace Tree

abbrev Entries := List (String × Tree)

def get? (name : String) (entries : Entries) : Option Tree :=
  (entries.find? fun (known, _) => known == name).map (·.2)

def replace (name : String) (tree : Tree) (entries : Entries) : Entries :=
  entries.map fun (known, old) => if known = name then (known, tree) else (known, old)

/-- The entries after a change to those of the table above the end of a path. Tables that are missing
on the way come to be, and of a list of tables the last is meant. -/
def change? (change : String → Entries → Option Entries) : List String → Entries → Option Entries
  | [], _ => none
  | [name], entries => change name entries
  | name :: path, entries =>
      match get? name entries with
      | none => (change? change path []).map fun inner =>
          entries ++ [(name, .table .implied inner)]
      | some (.table origin inner) =>
          (change? change path inner).map fun inner => replace name (.table origin inner) entries
      | some (.tables closed last) =>
          (change? change path last).map fun last => replace name (.tables closed last) entries
      | some (.leaf _) => none

def openTable? : List String → Entries → Option Entries :=
  change? fun name entries =>
    match get? name entries with
    | none => some (entries ++ [(name, .table .header [])])
    | some (.table .implied inner) => some (replace name (.table .header inner) entries)
    | some _ => none

/-- The entries with a value under a dotted name. A table that a header opened takes nothing from
outside, and the table right above the value has to be a dotted one. -/
def insert? (value : Value) : List String → Entries → Option Entries
  | [], _ => none
  | [name], entries =>
      match get? name entries with
      | none => some (entries ++ [(name, .leaf value)])
      | some _ => none
  | name :: path, entries =>
      match get? name entries with
      | none => (insert? value path []).map fun inner => entries ++ [(name, .table .dotted inner)]
      | some (.table origin inner) =>
          if origin = .header ∨ (origin = .implied ∧ path.length = 1) then none
          else (insert? value path inner).map fun inner => replace name (.table origin inner) entries
      | some (.tables closed last) =>
          if path.length = 1 then none
          else (insert? value path last).map fun last => replace name (.tables closed last) entries
      | some (.leaf _) => none

/-- The entries with a value under a dotted name in the table of a header. -/
def insertUnder? (value : Value) (key : List String) : List String → Entries → Option Entries
  | [], entries => insert? value key entries
  | name :: path, entries =>
      match get? name entries with
      | some (.table origin inner) =>
          (insertUnder? value key path inner).map fun inner =>
            replace name (.table origin inner) entries
      | some (.tables closed last) =>
          (insertUnder? value key path last).map fun last =>
            replace name (.tables closed last) entries
      | _ => none

mutual

def toValue : Tree → Value
  | .leaf value => value
  | .table _ entries => .table (toValues entries)
  | .tables closed last => .list (closed ++ [.table (toValues last)])

def toValues : List (String × Tree) → List (String × Value)
  | [] => []
  | (name, tree) :: rest => (name, tree.toValue) :: toValues rest

end

def addTable? : List String → Entries → Option Entries :=
  change? fun name entries =>
    match get? name entries with
    | none => some (entries ++ [(name, .tables [] [])])
    | some (.tables closed last) =>
        some (replace name (.tables (closed ++ [.table (toValues last)]) []) entries)
    | some _ => none

end Tree

mutual

/-- A value in which `depth` more brackets and braces may be open at once. The fuel bounds the number
of items and entries. -/
def value? : Nat → Nat → List Char → Option (Value × List Char)
  | 0, _, _ => none
  | fuel + 1, depth, cs =>
      match cs with
      | '[' :: cs =>
          match depth with
          | 0 => none
          | depth + 1 => (items? fuel depth cs).map fun (items, rest) => (.list items, rest)
      | '\x7b' :: cs =>
          match depth, skipBlanks cs with
          | 0, _ => none
          | _, '\x7d' :: rest => some (.table [], rest)
          | depth + 1, cs => (inline? fuel depth [] cs).map fun (entries, rest) =>
              (.table (Tree.toValues entries), rest)
      | cs => scalar? cs

def items? : Nat → Nat → List Char → Option (List Value × List Char)
  | 0, _, _ => none
  | fuel + 1, depth, cs =>
      match skipLines cs.length cs with
      | ']' :: rest => some ([], rest)
      | cs => do
          let (item, rest) ← value? fuel depth cs
          match skipLines rest.length rest with
          | ',' :: rest =>
              let (items, rest) ← items? fuel depth rest
              some (item :: items, rest)
          | ']' :: rest => some ([item], rest)
          | _ => none

def inline? : Nat → Nat → Tree.Entries → List Char → Option (Tree.Entries × List Char)
  | 0, _, _, _ => none
  | fuel + 1, depth, entries, cs => do
      let (key, rest) ← key? cs
      match rest with
      | '=' :: rest =>
          let (value, rest) ← value? fuel depth (skipBlanks rest)
          let entries ← Tree.insert? value key entries
          match skipBlanks rest with
          | ',' :: rest => inline? fuel depth entries rest
          | '\x7d' :: rest => some (entries, rest)
          | _ => none
      | _ => none

end

def header? (entries : Tree.Entries) (cs : List Char) :
    Option (List String × Tree.Entries × List Char) := do
  match cs with
  | '[' :: cs =>
      let (path, rest) ← key? cs
      match rest with
      | ']' :: ']' :: rest => some (path, ← Tree.addTable? path entries, rest)
      | _ => none
  | cs =>
      let (path, rest) ← key? cs
      match rest with
      | ']' :: rest => some (path, ← Tree.openTable? path entries, rest)
      | _ => none

/-- The entries of a file from one of its lines on, under the header that was opened last. The fuel
bounds the number of lines. -/
def entries? : Nat → List String → Tree.Entries → List Char → Option Tree.Entries
  | 0, _, _, _ => none
  | fuel + 1, path, entries, cs =>
      match skipLines (cs.length + 1) cs with
      | [] => some entries
      | '[' :: cs => do
          let (opened, entries, rest) ← header? entries cs
          let rest ← restOfLine? rest
          entries? fuel opened entries rest
      | cs => do
          let (key, rest) ← key? cs
          match rest with
          | '=' :: rest =>
              let (value, rest) ← value? (rest.length + 1) deepest (skipBlanks rest)
              let entries ← Tree.insertUnder? value key path entries
              let rest ← restOfLine? rest
              entries? fuel path entries rest
          | _ => none

/-- The entries of a file, or none if it is malformed. A mark of the byte order may stand first. -/
def parse? (text : String) : Option (List (String × Value)) :=
  let cs := match text.toList with
    | '\uFEFF' :: cs => cs
    | cs => cs
  (entries? (cs.length + 1) [] [] cs).map Tree.toValues

end DocComment.Settings.Toml
