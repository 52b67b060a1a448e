import DocComment.Number.Decimal

/-!
Numbers of 64-bit binary floating point, in exact integer arithmetic: a mantissa below `2 ^ 53` and
a power of two. A decimal rounds to the nearest of them, the even one of two that are equally near.
A number is written with the fewest decimal digits that still round back to it: the nearest of those
decimals, and the one farther from zero of two that are equally near.
-/

namespace DocComment

inductive Binary64 where
  /-- The number `mantissa · 2 ^ exponent`. -/
  | finite (negative : Bool) (mantissa : Nat) (exponent : Int)
  | infinite (negative : Bool)
  | nan
  deriving DecidableEq, Repr, Inhabited

namespace Binary64

def leastExponent : Int := -1074

def greatestExponent : Int := 971

/-- The quotient rounded to the nearest whole number, a half to the even neighbour. -/
def roundHalfEven (numerator denominator : Nat) : Nat :=
  let quotient := numerator / denominator
  let twice := 2 * (numerator % denominator)
  if twice < denominator then quotient
  else if twice = denominator ∧ quotient % 2 = 0 then quotient
  else quotient + 1

/-- The quotient rounded to 53 significant bits. -/
def ofRatio (negative : Bool) (numerator denominator : Nat) : Binary64 :=
  if numerator = 0 then .finite negative 0 leastExponent
  else
    let estimate : Int := (Nat.log2 numerator : Int) - (Nat.log2 denominator : Int) - 53
    -- The quotient scaled by `2 ^ -estimate` has 53 or 54 bits before its point.
    let scaled (exponent : Int) : Nat × Nat :=
      if 0 ≤ exponent then (numerator, denominator * Nat.pow 2 exponent.toNat)
      else (numerator * Nat.pow 2 (-exponent).toNat, denominator)
    let bits (exponent : Int) : Nat :=
      let (above, below) := scaled exponent
      above / below
    let fitted := if bits estimate < Nat.pow 2 53 then estimate else estimate + 1
    let exponent := max fitted leastExponent
    let (above, below) := scaled exponent
    let rounded := roundHalfEven above below
    let (mantissa, exponent) :=
      if rounded = Nat.pow 2 53 then (Nat.pow 2 52, exponent + 1) else (rounded, exponent)
    if greatestExponent < exponent then .infinite negative
    else .finite negative mantissa exponent

/-- The number nearest to a decimal. Far outside the range no power of ten is worked out. -/
def ofDecimal (number : Decimal) : Binary64 :=
  if number.digits = 0 ∨ number.magnitude < -400 then .finite number.negative 0 leastExponent
  else if 400 < number.magnitude then .infinite number.negative
  else if 0 ≤ number.exponent then
    ofRatio number.negative (number.digits * Nat.pow 10 number.exponent.toNat) 1
  else ofRatio number.negative number.digits (Nat.pow 10 (-number.exponent).toNat)

def isFinite : Binary64 → Bool
  | .finite .. => true
  | _ => false

/-- Every number but the two zeros. -/
def isNonzero : Binary64 → Bool
  | .finite _ mantissa _ => mantissa != 0
  | .infinite _ => true
  | .nan => true

/-- The nearest whole number up to a bound, a half away from zero; zero for what lies below it. -/
def toNatClamped (bound : Nat) : Binary64 → Nat
  | .finite negative mantissa exponent =>
      if negative then 0
      else if 0 ≤ exponent then min (mantissa * Nat.pow 2 exponent.toNat) bound
      else
        let unit := Nat.pow 2 (-exponent).toNat
        min ((2 * mantissa + unit) / (2 * unit)) bound
  | .infinite negative => if negative then 0 else bound
  | .nan => 0

/-- A multiple of `10 ^ place` that rounds to the number. If two neighbours do it is the nearer, and
the upper one at equal distance. Distances are counted in quarters of the number's own unit, so that
the ends of its interval are whole. -/
def onGrid? (mantissa : Nat) (exponent : Int) (place : Int) : Option Nat :=
  let below := if mantissa = Nat.pow 2 52 ∧ leastExponent < exponent then 1 else 2
  let quarter := exponent - 2
  let unit := Nat.pow 2 quarter.toNat * Nat.pow 10 (-place).toNat
  let step := Nat.pow 2 (-quarter).toNat * Nat.pow 10 place.toNat
  let value := 4 * mantissa * unit
  let low := (4 * mantissa - below) * unit
  let high := (4 * mantissa + 2) * unit
  let rounds (candidate : Nat) : Bool :=
    let point := candidate * step
    if mantissa % 2 = 0 then low ≤ point && point ≤ high else low < point && point < high
  let lower := value / step
  let upper := lower + 1
  if rounds lower && rounds upper then
    if value - lower * step < upper * step - value then some lower else some upper
  else if rounds lower then some lower
  else if rounds upper then some upper
  else none

/-- The fewest digits that round to the number, and the place of the last of them. -/
def shortest (mantissa : Nat) (exponent : Int) : Nat × Int :=
  ((List.range 660).findSome? fun (above : Nat) =>
    let place : Int := 309 - (above : Int)
    (onGrid? mantissa exponent place).map fun digits => (digits, place)).getD (mantissa, exponent)

def positional (digits : Nat) (place : Int) : List Char :=
  let written := Nat.toDigits 10 digits
  if 0 ≤ place then written ++ List.replicate place.toNat '0'
  else
    let behind := (-place).toNat
    let padded := List.replicate (behind + 1 - written.length) '0' ++ written
    padded.take (padded.length - behind) ++ '.' :: padded.drop (padded.length - behind)

def text : Binary64 → String
  | .finite negative mantissa exponent =>
      let (digits, place) := if mantissa = 0 then (0, 0) else shortest mantissa exponent
      String.ofList ((if negative then ['-'] else []) ++ positional digits place)
  | .infinite negative => if negative then "-inf" else "inf"
  | .nan => "NaN"

end Binary64

end DocComment
