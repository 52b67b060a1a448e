import DocComment.Token.Basic

/-!
The lexical classes. Each class says how many characters at the front of a text belong to it, always
the most it can take, and `lexeme?` picks the class by the first character. A text whose front
belongs to no class has no lexeme.
-/

namespace DocComment.Token

def isSpace (c : Char) : Bool :=
  c == ' ' || c == '\t' || c == '\r' || c == '\n' || c == '\x0c'

def isWordStart (c : Char) : Bool :=
  c.isAlpha || c == '_' || c == '$' || c == '\\'

def isWordChar (c : Char) : Bool :=
  c.isAlphanum || c == '_' || c == '$' || c == '\\'

def isNumberChar (c : Char) : Bool :=
  c.isAlphanum || c == '_'

def isHashChar (c : Char) : Bool :=
  c.isAlphanum || c == '_' || c == '-'

def isQuote (c : Char) : Bool :=
  c == '\x22' || c == '\x27' || c == '\x60'

def run (condition : Char → Bool) (cs : List Char) : Nat :=
  (cs.takeWhile condition).length

/-- Word characters, with single hyphens between them. -/
def wordTail : List Char → Nat
  | [] => 0
  | '-' :: c :: cs => if isWordChar c then wordTail cs + 2 else 0
  | c :: cs => if isWordChar c then wordTail cs + 1 else 0

def fraction : List Char → Nat
  | '.' :: c :: cs => if c.isDigit then run isNumberChar cs + 2 else 0
  | _ => 0

def percent : List Char → Nat
  | '%' :: _ => 1
  | _ => 0

/-- What follows the first digit of a number: more of it, a fraction, a percent sign. -/
def numberTail (cs : List Char) : Nat :=
  let whole := run isNumberChar cs
  let decimal := whole + fraction (cs.drop whole)
  decimal + percent (cs.drop decimal)

/-- The distance past the closing quote. A backslash takes the next character with it, but never a
line feed, and only backticks may hold a line feed of their own. -/
def closingQuote? (quote : Char) : List Char → Option Nat
  | [] => none
  | [c] => if c = quote then some 1 else none
  | c :: d :: cs =>
      if c = quote then some 1
      else if c = '\\' then
        if d = '\n' then none else (closingQuote? quote cs).map (· + 2)
      else if c = '\n' ∧ quote ≠ '\x60' then none
      else (closingQuote? quote (d :: cs)).map (· + 1)

def closingComment? : List Char → Option Nat
  | [] => none
  | '*' :: '/' :: _ => some 2
  | _ :: cs => (closingComment? cs).map (· + 1)

/-- Spellings that stand for themselves, longer ones first. -/
def fixedSpellings : List (String × Kind) :=
  [("===", .operator), ("!==", .operator), ("...", .ellipsis),
   ("==", .operator), ("!=", .operator), ("<=", .operator), (">=", .operator), ("&&", .operator),
   ("||", .operator), ("??", .operator), ("++", .operator), ("--", .operator), ("+=", .operator),
   ("-=", .operator), ("*=", .operator), ("/=", .operator), ("::", .doubleColon),
   ("=>", .fatArrow), ("->", .thinArrow),
   ("(", .openParen), (")", .closeParen), ("[", .openBracket), ("]", .closeBracket),
   ("\x7b", .openBrace), ("\x7d", .closeBrace), ("<", .lessThan), (">", .greaterThan),
   (":", .colon), (";", .semicolon), (",", .comma), (".", .dot), ("=", .assign), ("*", .star),
   ("&", .ampersand), ("?", .question), ("|", .pipe),
   ("+", .operator), ("-", .operator), ("/", .operator), ("%", .operator), ("!", .operator),
   ("^", .operator), ("~", .operator)]

def fixed? (cs : List Char) : Option (Kind × Nat) :=
  (fixedSpellings.find? fun (spelling, _) => spelling.toList.isPrefixOf cs).map
    fun (spelling, kind) => (kind, spelling.length)

def comment? : List Char → Option (Kind × Nat)
  | '/' :: '/' :: cs => some (.lineComment, run (· != '\n') cs + 2)
  | '/' :: '*' :: cs => (closingComment? cs).map fun count => (.blockComment, count + 2)
  | _ => none

/-- The longest lexeme at the front of a text: its kind and how many characters it takes. -/
def lexeme? : List Char → Option (Kind × Nat)
  | [] => none
  | c :: cs =>
      if isSpace c then some (.whitespace, run isSpace cs + 1)
      else if isWordStart c then some (.identifier, wordTail cs + 1)
      else if c.isDigit then some (.number, numberTail cs + 1)
      else if isQuote c then (closingQuote? c cs).map fun count => (.string, count + 1)
      else if c = '#' then some (.hash, run isHashChar cs + 1)
      else (comment? (c :: cs)).or (fixed? (c :: cs))

def brokenQuote (quote : Char) : List Char → Nat
  | [] => 0
  | [c] => if c = '\n' ∧ quote ≠ '\x60' then 0 else 1
  | c :: d :: cs =>
      if c = '\\' then
        if d = '\n' then 1 else brokenQuote quote cs + 2
      else if c = '\n' ∧ quote ≠ '\x60' then 0
      else brokenQuote quote (d :: cs) + 1

/-- How many characters are read before it is clear that no lexeme starts here. -/
def unreadable : List Char → Nat
  | [] => 0
  | c :: cs => if isQuote c then brokenQuote c cs + 1 else 1

private theorem fixed_positive {cs : List Char} {kind : Kind} {count : Nat}
    (found : fixed? cs = some (kind, count)) : 0 < count := by
  simp only [fixed?, Option.map_eq_some_iff] at found
  obtain ⟨⟨spelling, other⟩, member, same⟩ := found
  have nonempty : ∀ entry ∈ fixedSpellings, 0 < entry.1.length := by decide
  have positive := nonempty _ (List.mem_of_find?_eq_some member)
  simp_all

private theorem comment_positive {cs : List Char} {kind : Kind} {count : Nat}
    (found : comment? cs = some (kind, count)) : 0 < count := by
  unfold comment? at found
  split at found
  · simp_all; omega
  · simp only [Option.map_eq_some_iff] at found
    obtain ⟨_, _, same⟩ := found
    simp_all; omega
  · simp at found

/-- A lexeme takes at least one character. -/
theorem lexeme_positive {cs : List Char} {kind : Kind} {count : Nat}
    (found : lexeme? cs = some (kind, count)) : 0 < count := by
  cases cs with
  | nil => simp [lexeme?] at found
  | cons c cs =>
      simp only [lexeme?] at found
      split at found
      · simp_all; omega
      split at found
      · simp_all; omega
      split at found
      · simp_all; omega
      split at found
      · simp only [Option.map_eq_some_iff] at found
        obtain ⟨_, _, same⟩ := found
        simp_all; omega
      split at found
      · simp_all; omega
      · rcases Option.or_eq_some_iff.1 found with left | ⟨_, right⟩
        · exact comment_positive left
        · exact fixed_positive right

end DocComment.Token
