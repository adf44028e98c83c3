import Scaffold.Number.Binary64
import Scaffold.Text.Basic

/-!
Two ways of writing a double: positional, for source code and messages, and the scalar form of data
documents, which marks whole numbers with `.0` and takes an exponent far from one.
-/

/-! ## Shortest digits

The fewest decimal digits that read back as a given double. The reals that round to a double form
an interval around it; a decimal grid is coarse enough to be of use and fine enough to have a point
in that interval, and the coarsest such grid gives the digits.
-/

namespace Scaffold.Number

/-- Where an exact tie between two decimals of equal length goes. -/
inductive Tie where
  | up
  | toEven
  deriving DecidableEq

/-- The decimal `digits * 10 ^ exponent`. -/
structure Decimal where
  digits : Nat
  exponent : Int
  deriving DecidableEq

/-- The reals that round to a positive double, all three in units of `2 ^ power`. -/
structure Rounding where
  low : Nat
  middle : Nat
  high : Nat
  power : Int
  closed : Bool

/-- The interval of a finite positive double. Below a power of two the neighbours lie closer, so the
lower half of the interval is half as wide. -/
def Rounding.of (x : Binary64) : Rounding :=
  let m := x.mantissa
  let narrow := m == Nat.pow 2 52 && 1 < x.exponentField
  { low := 4 * m - (if narrow then 1 else 2)
    middle := 4 * m
    high := 4 * m + 2
    power := x.power - 2
    closed := m % 2 == 0 }

/-- `2 ^ p` as a ratio of natural numbers. -/
def twoRatio (p : Int) : Nat × Nat :=
  if 0 ≤ p then (Nat.pow 2 p.toNat, 1) else (1, Nat.pow 2 (-p).toNat)

/-- `10 ^ p` as a ratio of natural numbers. -/
def tenRatio (p : Int) : Nat × Nat :=
  if 0 ≤ p then (Nat.pow 10 p.toNat, 1) else (1, Nat.pow 10 (-p).toNat)

/-- The point of the grid of step `10 ^ p` that lies in the interval, if one of the two neighbours
of the middle does; of two the nearer. -/
def Rounding.onGrid (r : Rounding) (tie : Tie) (p : Int) : Option Nat :=
  let (two, twoDen) := twoRatio r.power
  let (ten, tenDen) := tenRatio p
  -- `c * 10 ^ p` and `x * 2 ^ power` are compared over one common denominator.
  let gridValue (c : Nat) : Nat := c * ten * twoDen
  let value (x : Nat) : Nat := x * two * tenDen
  let inside (c : Nat) : Bool :=
    if r.closed then value r.low ≤ gridValue c && gridValue c ≤ value r.high
    else value r.low < gridValue c && gridValue c < value r.high
  let below := value r.middle / (ten * twoDen)
  let above := below + 1
  match inside below, inside above with
  | false, false => none
  | true, false => some below
  | false, true => some above
  | true, true =>
    let down := value r.middle - gridValue below
    let up := gridValue above - value r.middle
    if down < up then some below
    else if up < down then some above
    else
      match tie with
      | .up => some above
      | .toEven => some (if below % 2 == 0 then below else above)

/-- The first grid, from the coarsest on, that has a point in the interval. -/
def Rounding.search (r : Rounding) (tie : Tie) : (fuel : Nat) → (p : Int) → Decimal
  | 0, p => ⟨(r.onGrid tie p).getD 0, p⟩
  | fuel + 1, p =>
    match r.onGrid tie p with
    | some digits => ⟨digits, p⟩
    | none => r.search tie fuel (p - 1)

/-- A decimal without trailing zeros in its digits. -/
def Decimal.stripZeros : (fuel : Nat) → Decimal → Decimal
  | 0, d => d
  | fuel + 1, d =>
    if d.digits != 0 && d.digits % 10 == 0 then stripZeros fuel ⟨d.digits / 10, d.exponent + 1⟩
    else d

/-- The shortest decimal that reads back as a finite positive double. Grids are tried from above
the number's own magnitude downwards; sixteen more steps reach seventeen digits. -/
def shortest (tie : Tie) (x : Binary64) : Decimal :=
  let r := Rounding.of x
  let bits : Int := (Nat.log2 (max x.mantissa 1) : Int) + x.power
  -- `bits * 1233 / 4096` is the decimal magnitude up to one.
  let top := (bits * 1233) / 4096 + 2
  (r.search tie 24 top).stripZeros 20

/-! ## Formats -/

def natDigits (n : Nat) : List Char :=
  Nat.toDigits 10 n

/-- `n` zeros. -/
def zeros (n : Nat) : String :=
  Text.repeated n "0"

/-- A decimal without an exponent; `point` is written after a whole number. -/
def positional (d : Decimal) (point : String) : String :=
  let digits := natDigits d.digits
  let width : Int := digits.length + d.exponent
  if 0 ≤ d.exponent then String.ofList digits ++ zeros d.exponent.toNat ++ point
  else if 0 < width then
    String.ofList (digits.take width.toNat) ++ "." ++ String.ofList (digits.drop width.toNat)
  else "0." ++ zeros (-width).toNat ++ String.ofList digits

/-- A decimal with an exponent: one digit before the point, and no point after a single digit. -/
def exponential (d : Decimal) : String :=
  let digits := natDigits d.digits
  let width : Int := digits.length + d.exponent
  let mark := "e" ++ toString (width - 1)
  match digits with
  | [] => mark
  | [c] => c.toString ++ mark
  | c :: rest => c.toString ++ "." ++ String.ofList rest ++ mark

def signText (x : Binary64) : String :=
  if x.negative then "-" else ""

/-- Positional form: never an exponent and no point in whole numbers. -/
def plainText (x : Binary64) : String :=
  if x.isNaN then "NaN"
  else if x.isInfinite then signText x ++ "inf"
  else if x.isZero then signText x ++ "0"
  else signText x ++ positional (shortest .up x) ""

/-- Scalar form of data documents: positional with `.0` on whole numbers when the decimal point
falls at most five places before the first digit and at most sixteen after it, exponential
elsewhere. -/
def scalarText (x : Binary64) : String :=
  if x.isNaN then ".nan"
  else if x.isInfinite then signText x ++ ".inf"
  else if x.isZero then signText x ++ "0.0"
  else
    let d := shortest .toEven x
    let width : Int := (natDigits d.digits).length + d.exponent
    signText x ++ if -5 < width && width ≤ 16 then positional d ".0" else exponential d

end Scaffold.Number
