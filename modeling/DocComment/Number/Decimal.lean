/-!
Numbers written in decimal: a whole number of digits and a power of ten. Nothing is rounded here.
-/

namespace DocComment

/-- The number `digits · 10 ^ exponent`, below zero if `negative`. -/
structure Decimal where
  negative : Bool := false
  digits : Nat
  exponent : Int := 0
  deriving DecidableEq, Repr, Inhabited

namespace Decimal

def digitValue? (c : Char) : Option Nat :=
  if c.isDigit then some (c.toNat - '0'.toNat)
  else if 'a' ≤ c ∧ c ≤ 'f' then some (c.toNat - 'a'.toNat + 10)
  else if 'A' ≤ c ∧ c ≤ 'F' then some (c.toNat - 'A'.toNat + 10)
  else none

/-- The number that digits of a base spell; nothing without a digit or with a foreign one. -/
def natural? (base : Nat) (cs : List Char) : Option Nat :=
  if cs.isEmpty then none
  else cs.foldlM (fun value c =>
    (digitValue? c).bind fun digit => if digit < base then some (value * base + digit) else none) 0

def sign : List Char → Bool × List Char
  | '-' :: cs => (true, cs)
  | '+' :: cs => (false, cs)
  | cs => (false, cs)

/-- The exponent after a mantissa: nothing, or a letter `e` and a signed number. -/
def exponent? : List Char → Option Int
  | [] => some 0
  | c :: cs =>
      if c = 'e' ∨ c = 'E' then
        let (negative, digits) := sign cs
        (natural? 10 digits).map fun value => if negative then - (value : Int) else value
      else none

/-- A number without a sign: digits with a point anywhere among them, then perhaps an exponent. -/
def unsigned? (cs : List Char) : Option Decimal :=
  let whole := cs.takeWhile Char.isDigit
  let rest := cs.dropWhile Char.isDigit
  let (fraction, rest) := match rest with
    | '.' :: rest => (rest.takeWhile Char.isDigit, rest.dropWhile Char.isDigit)
    | rest => ([], rest)
  (natural? 10 (whole ++ fraction)).bind fun digits =>
    (exponent? rest).map fun exponent =>
      { digits, exponent := exponent - (fraction.length : Int) }

def parse? (cs : List Char) : Option Decimal :=
  let (negative, rest) := sign cs
  (unsigned? rest).map ({ · with negative })

example : parse? "-12.50e3".toList = some ⟨true, 1250, 1⟩ := by decide
example : parse? ".".toList = none := by decide

def length (value : Nat) : Nat := (Nat.toDigits 10 value).length

/-- The power of ten above the number: its first digit stands just below `10 ^ magnitude`. -/
def magnitude (number : Decimal) : Int := length number.digits + number.exponent

end Decimal

end DocComment
