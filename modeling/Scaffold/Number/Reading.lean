import Scaffold.Number.Binary64

/-!
Numbers as they are read from text: integers with an optional sign inside the signed 64-bit range,
and decimals with an optional fraction and exponent, rounded to the nearest double.
-/

namespace Scaffold.Number

def digitsValue (digits : List Char) : Nat :=
  digits.foldl (fun n c => 10 * n + (c.toNat - '0'.toNat)) 0

/-- A sign in front, if there is one, and what follows it. -/
def splitSign : List Char → Bool × List Char
  | '-' :: rest => (true, rest)
  | '+' :: rest => (false, rest)
  | cs => (false, cs)

def allDigits (cs : List Char) : Bool :=
  !cs.isEmpty && cs.all Char.isDigit

def inInt64 (n : Int) : Bool :=
  -Int.pow 2 63 ≤ n && n < Int.pow 2 63

/-- A signed integer of at most 64 bits: an optional sign and digits, nothing else. -/
def readInt64? (s : String) : Option Int :=
  let (negative, digits) := splitSign s.toList
  if allDigits digits then
    let n : Int := digitsValue digits
    let n := if negative then -n else n
    if inInt64 n then some n else none
  else none

/-- The parts of a decimal: digits before and after the point, and the power of ten. -/
structure DecimalText where
  whole : List Char
  fraction : List Char
  exponent : Int

/-- The exponent part: nothing, or a mark followed by an optional sign and digits. -/
def readExponent? : List Char → Option Int
  | [] => some 0
  | mark :: rest =>
    if mark == 'e' || mark == 'E' then
      let (negative, digits) := splitSign rest
      if allDigits digits then
        let n : Int := digitsValue digits
        some (if negative then -n else n)
      else none
    else none

/-- An unsigned decimal: digits, an optional point with digits around it, at least one digit in
all, and an optional exponent. -/
def readDecimal? (cs : List Char) : Option DecimalText :=
  let whole := cs.takeWhile Char.isDigit
  let rest := cs.dropWhile Char.isDigit
  let (fraction, rest) : List Char × List Char :=
    match rest with
    | '.' :: more => (more.takeWhile Char.isDigit, more.dropWhile Char.isDigit)
    | _ => ([], rest)
  if whole.isEmpty && fraction.isEmpty then none
  else (readExponent? rest).map (⟨whole, fraction, ·⟩)

/-- The magnitude bits of the double nearest to a decimal. Decimals far outside the range of
doubles are settled by the position of their first digit, so that no power of ten is larger than
the text and the range need. -/
def DecimalText.magnitude (d : DecimalText) : Nat :=
  let digits := (d.whole ++ d.fraction).dropWhile (· == '0')
  let exponent := d.exponent - d.fraction.length
  let top := exponent + digits.length
  if digits.isEmpty then 0
  else if top < -400 then 0
  else if 400 < top then Binary64.infinityBits
  else
    let n := digitsValue digits
    if 0 ≤ exponent then Binary64.magnitudeOfRatio (n * Nat.pow 10 exponent.toNat) 1
    else Binary64.magnitudeOfRatio n (Nat.pow 10 (-exponent).toNat)

/-- A double: an optional sign, then `inf`, `infinity` or `nan` in any case, or a decimal. -/
def readBinary64? (s : String) : Option Binary64 :=
  let (negative, cs) := splitSign s.toList
  let word := String.ofList (cs.map Char.toLower)
  if word == "inf" || word == "infinity" then
    some (Binary64.ofMagnitude negative Binary64.infinityBits)
  else if word == "nan" then some (Binary64.ofMagnitude negative Binary64.nanBits)
  else (readDecimal? cs).map fun d => Binary64.ofMagnitude negative d.magnitude

end Scaffold.Number
